import RetroPark.Net.Handshake
import RetroPark.Net.Lockstep
import RetroPark.Net.Lockstep.Leftovers
import RetroPark.Net.Rollback.Leftovers

/-!
# Starting a session again

A session object that is started again beside a newly constructed one that is started with the same
arguments, runtime and messages.

* `Opens` is what a start that succeeds does to its runtime, whatever the session holds;
* `restart_like_fresh` is the case in which the two cannot be told apart by any ticks that follow;
* `restart_remembers` is a session of either kind that applies an input of the one before it.
-/

namespace RetroPark.Net

open Dialogue RetroPark.Runtime

variable {κ β : Type} (env : Env κ β)

/-! ### What a start does -/

/-- The exchange of the initial state. -/
def exchangeState (role : Role) (w : World κ β) :
    TransportProgram (Except StartError Unit × World κ β) :=
  match role with
  | .host _ => sendState env w
  | .join => receiveState env w

/-- The value a start takes, of its own or from the `Hello` it receives first. -/
def Role.agreed (role : Role) (received : List Blob) : UInt32 :=
  role.taken (((decoded (Wire.decodeHello (received.headD []))).map (·.inputDelay)).getD 0)

/-- A start that succeeds sets the value `v` and leaves the world `w'`. -/
def Opens (same : Vector UInt8 64 → Vector UInt8 64 → Bool) (adopt : UInt32 → UInt32) (role : Role)
    (hash : UInt64) (id : Option CString) (w : World κ β) (sent received : List Blob) (v : UInt32)
    (w' : World κ β) : Prop :=
  ∃ sent₁ received₁ sent₂ received₂,
    Completes (handshake same adopt (decide (role ≠ .join)) role.value hash id) sent₁ received₁
        (.ok v) ∧
      Completes (exchangeState env role w) sent₂ received₂ (.ok (), w') ∧
        sent = sent₁ ++ sent₂ ∧ received = received₁ ++ received₂

section Opens

variable {env} {same : Vector UInt8 64 → Vector UInt8 64 → Bool} {adopt : UInt32 → UInt32}
  {role : Role} {hash : UInt64} {id : Option CString} {w w' : World κ β}
  {sent received : List Blob} {v : UInt32}

theorem sendState_world (h : Completes (sendState env w) sent received (.ok (), w')) :
    received = [] ∧ w' =
      (let size := (serializeSize env).run w
       if size.1 = 0 then size.2 else ((saveState env true size.1).run size.2).2) := by
  rw [sendState] at h
  dsimp only at h ⊢
  split_ifs at h ⊢ with hnone hsaved
  · obtain ⟨-, hreceived, hw⟩ := sendStateSync_completes h
    exact ⟨hreceived, hw⟩
  · cases (Prod.mk.inj (completes_ret.mp h).2.2).1
  · obtain ⟨-, hreceived, hw⟩ := sendStateSync_completes h
    exact ⟨hreceived, hw⟩

theorem receiveState_world (h : Completes (receiveState env w) sent received (.ok (), w')) :
    w' =
      (match decoded (Wire.decodeStateSync (received.headD [])) with
       | none => w
       | some s => if s.blob = [] then w else ((loadState env s.blob).run w).2) := by
  rcases completes_recv_bind.mp h with ⟨bytes, rest, rfl, harrived⟩ | hnone
  · dsimp only at harrived
    rw [List.headD_cons]
    cases hsync : decoded (Wire.decodeStateSync bytes) with
    | none =>
      rw [hsync] at harrived
      exact nomatch (Prod.mk.inj (completes_ret.mp harrived).2.2).1
    | some s =>
      rw [hsync] at harrived
      dsimp only at harrived ⊢
      split_ifs at harrived ⊢
      · exact (Prod.mk.inj (completes_ret.mp harrived).2.2).2
      · exact nomatch (Prod.mk.inj (completes_ret.mp harrived).2.2).1
      · exact (Prod.mk.inj (completes_ret.mp harrived).2.2).2
  · exact nomatch (Prod.mk.inj (completes_ret.mp hnone).2.2).1

/-- What the messages received say is what the session takes. -/
theorem Opens.value_eq (h : Opens env same adopt role hash id w sent received v w') :
    v = adopt (role.agreed received) := by
  obtain ⟨sent₁, received₁, sent₂, received₂, hhello, -, -, rfl⟩ := h
  obtain ⟨d, hd, rfl⟩ := handshake_completes hhello
  obtain ⟨-, bytes, peer, rfl, hpeer, -, -, rfl⟩ := exchangeHello_completes hd
  rw [Role.agreed, List.singleton_append, List.headD_cons, decoded_eq_some.mpr hpeer]
  cases role <;> rfl

/-- The messages received decide what a start does. -/
theorem Opens.unique {sent' : List Blob} {v₀ : UInt32} {w₀ : World κ β}
    (h : Opens env same adopt role hash id w sent received v w')
    (h₀ : Opens env same adopt role hash id w sent' received v₀ w₀) : v₀ = v ∧ w₀ = w' := by
  refine ⟨h₀.value_eq.trans h.value_eq.symm, ?_⟩
  obtain ⟨_, received₁, _, received₂, hhello, hstate, -, rfl⟩ := h
  obtain ⟨_, received₁', _, received₂', hhello', hstate', -, heq⟩ := h₀
  obtain ⟨d, hd, -⟩ := handshake_completes hhello
  obtain ⟨d', hd', -⟩ := handshake_completes hhello'
  obtain ⟨-, bytes, peer, rfl, -⟩ := exchangeHello_completes hd
  obtain ⟨-, bytes', peer', rfl, -⟩ := exchangeHello_completes hd'
  -- Both starts took their `Hello` from the front, so the rest is the same.
  obtain ⟨-, rfl⟩ := List.cons_eq_cons.mp heq
  cases role with
  | host value => exact (sendState_world hstate').2.trans (sendState_world hstate).2.symm
  | join => exact (receiveState_world hstate').trans (receiveState_world hstate).symm

theorem Opens.exists_iff {P : Type} {g : UInt32 → World κ β → P} {q : P}
    (h : Opens env same adopt role hash id w sent received v w') :
    (∃ v₀ w₀, Opens env same adopt role hash id w sent received v₀ w₀ ∧ q = g v₀ w₀) ↔
      q = g v w' := by
  constructor
  · rintro ⟨v₀, w₀, h₀, rfl⟩
    obtain ⟨rfl, rfl⟩ := h.unique h₀
    rfl
  · exact fun hq => ⟨v, w', h, hq⟩

/-- A start calls the runtime as a session does. -/
theorem Opens.reaches (h : Opens env same adopt role hash id w sent received v w') :
    Reaches env w w' := by
  obtain ⟨_, _, _, received₂, -, hstate, -, -⟩ := h
  cases role with
  | host value =>
    rw [(sendState_world hstate).2]
    have hsize : Reaches env w ((serializeSize env).run w).2 := reaches_call .serializeSize rfl
    dsimp only
    split_ifs
    · exact hsize
    · exact hsize.trans (reaches_call (.saveState true ((serializeSize env).run w).1) rfl)
  | join =>
    rw [receiveState_world hstate]
    split
    · exact .refl
    · next s _ =>
      split_ifs
      · exact .refl
      · exact reaches_call (.loadState s.blob) rfl

/-- A start that is composed of a handshake and a last part succeeds when both do. -/
theorem completes_start_iff {P : Type} {hs : TransportProgram (Except StartError UInt32)}
    {k : Except StartError UInt32 → TransportProgram (Except StartError Unit × P)}
    {prog : TransportProgram (Except StartError Unit × World κ β)} {g : UInt32 → World κ β → P}
    (hfail : ∀ e, ∃ p, k (.error e) = .ret (.error e, p))
    (hk : ∀ v, k (.ok v) = prog >>= fun r => .ret (r.1, g v r.2)) {q : P} :
    Completes (hs >>= k) sent received (.ok (), q) ↔
      ∃ v w', (∃ sent₁ received₁ sent₂ received₂, Completes hs sent₁ received₁ (.ok v) ∧
        Completes prog sent₂ received₂ (.ok (), w') ∧ sent = sent₁ ++ sent₂ ∧
          received = received₁ ++ received₂) ∧ q = g v w' := by
  constructor
  · intro h
    obtain ⟨v, sent₁, received₁, sent₂, received₂, h₁, h₂, hsent, hreceived⟩ :=
      completes_handshake hfail h
    rw [hk] at h₂
    obtain ⟨w', hw', hq⟩ := completes_world (g v) h₂
    exact ⟨v, w', ⟨sent₁, received₁, sent₂, received₂, h₁, hw', hsent, hreceived⟩, hq⟩
  · rintro ⟨v, w', ⟨sent₁, received₁, sent₂, received₂, h₁, hw', hsent, hreceived⟩, rfl⟩
    refine completes_bind.mpr
      ⟨.ok v, sent₁, received₁, sent₂, received₂, h₁, ?_, hsent, hreceived⟩
    rw [hk]
    exact completes_bind.mpr ⟨(.ok (), w'), sent₂, received₂, [], [], hw', .ret _,
      (List.append_nil _).symm, (List.append_nil _).symm⟩

/-- A lockstep session starts exactly when it opens. -/
theorem NetPeer.start_iff {p q : NetPeer κ β} :
    Completes (p.start env role hash id) sent received (.ok (), q) ↔
      ∃ v w', Opens env memEqual (fun v => v) role hash id p.world sent received v w' ∧
        q = (p.reset role.ports.1 role.ports.2).opened v w' := by
  cases role with
  | host value => exact completes_start_iff (fun e => ⟨_, rfl⟩) fun v => rfl
  | join => exact completes_start_iff (fun e => ⟨_, rfl⟩) fun v => rfl

/-- A rollback session starts exactly when it opens. -/
theorem RollbackPeer.start_iff {p q : RollbackPeer κ β} :
    Completes (p.start env role hash id) sent received (.ok (), q) ↔
      ∃ v w', Opens env strEqual orDefault role hash id p.world sent received v w' ∧
        q = (p.reset role.ports.1 role.ports.2).opened v w' := by
  cases role with
  | host value => exact completes_start_iff (fun e => ⟨_, rfl⟩) fun v => rfl
  | join => exact completes_start_iff (fun e => ⟨_, rfl⟩) fun v => rfl

end Opens

/-! ### The ticks that follow -/

namespace NetPeer

/-- A newly constructed session. -/
def fresh (w : World κ β) : NetPeer κ β := { session := {}, world := w }

/-- Started for the first time, a session is the one a match begins with. -/
theorem fresh_opened (isHost : Bool) (delay : UInt32) (w w' : World κ β) :
    (((fresh w).reset (if isHost then 0 else 1)
        (if isHost then 1 else 0)).opened delay w').session =
      .begin isHost delay := rfl

/-- The peer with empty logs. -/
def unlogged (p : NetPeer κ β) : NetPeer κ β := { p with sent := [], applied := [] }

/-- What a list of ticks returns and the number of messages each takes, what they send, the frames
they apply, and the runtime they leave. -/
def observe (calls : List (InputState × NetIo)) (p : NetPeer κ β) :
    List (NetStatus × ℕ) × List Message × List (AppliedFrame κ) × World κ β :=
  let r := ticks env calls p
  (r.1, r.2.sent, r.2.applied, r.2.world)

variable {env}

theorem observe_withMaps {p : NetPeer κ β} {m : NetMaps}
    (h : NetSession.Alike p.session.applyFrame p.session m) (calls : List (InputState × NetIo)) :
    observe env calls (p.withMaps m) = observe env calls p := by
  obtain ⟨m', hticks⟩ := ticks_alike env h calls
  unfold observe
  rw [hticks]
  rfl

end NetPeer

namespace RollbackPeer

/-- A newly constructed session. -/
def fresh (w : World κ β) : RollbackPeer κ β := { session := {}, world := w }

/-- Started for the first time, a session is the one a run begins with. -/
theorem fresh_opened (isHost : Bool) (prediction : UInt32) (w w' : World κ β) :
    ((fresh w).reset (if isHost then 0 else 1) (if isHost then 1 else 0)).opened
      (orDefault prediction) w' = begin isHost prediction w' := rfl

/-- The peer with empty logs. -/
def unlogged (p : RollbackPeer κ β) : RollbackPeer κ β := { p with sent := [], ran := [] }

/-- What a list of ticks returns, what they send, the frames they run, and the runtime they
leave. -/
def observe (calls : List TickCall) (p : RollbackPeer κ β) :
    List RbStatus × List Message × List (FrameRun κ) × World κ β :=
  let r := ticks env calls p
  (r.1, r.2.sent, r.2.ran, r.2.world)

variable {env}

theorem observe_withMaps {A : Prop} {p : RollbackPeer κ β} {m : RollbackMaps}
    (h : Restarted env A p m) (calls : List TickCall) :
    observe env calls (p.withMaps m) = observe env calls p := by
  obtain ⟨m', hticks⟩ := ticks_restarted h calls
  unfold observe
  rw [hticks]
  rfl

end RollbackPeer

/-- The prediction window is positive. -/
theorem orDefault_pos (prediction : UInt32) : 0 < (orDefault prediction).toNat := by
  unfold orDefault
  split_ifs with h
  · decide
  · exact Nat.pos_of_ne_zero fun h0 => h (UInt32.toNat_inj.mp h0)

/-- A session that is started again behaves as a newly constructed one: a lockstep session whose
maps are harmless at the agreed delay, and a rollback session that holds no remote input, and no
snapshot unless the runtime always takes a new one. -/
theorem restart_like_fresh :
    (∀ (role : Role) (hash : UInt64) (id : Option CString) (sent received : List Blob)
      (p q : NetPeer κ β), Completes (p.start env role hash id) sent received (.ok (), q) →
      p.session.Harmless (role.agreed received).toNat →
      ∃ q₀, (∀ r, Completes ((NetPeer.fresh p.world).start env role hash id) sent received
          (.ok (), r) ↔ r = q₀) ∧
        ∀ calls, NetPeer.observe env calls q.unlogged = NetPeer.observe env calls q₀) ∧
    ∀ (role : Role) (hash : UInt64) (id : Option CString) (sent received : List Blob)
      (p q : RollbackPeer κ β), Completes (p.start env role hash id) sent received (.ok (), q) →
      p.session.remotes = .empty → (p.session.ring = .empty ∨ KeepsSnapshots env p.world) →
      ∃ q₀, (∀ r, Completes ((RollbackPeer.fresh p.world).start env role hash id) sent received
          (.ok (), r) ↔ r = q₀) ∧
        ∀ calls, RollbackPeer.observe env calls q.unlogged = RollbackPeer.observe env calls q₀ := by
  constructor
  · intro role hash id sent received p q hstart hharmless
    obtain ⟨v, w', hopens, rfl⟩ := NetPeer.start_iff.mp hstart
    refine ⟨((NetPeer.fresh p.world).reset role.ports.1 role.ports.2).opened v w',
      fun r => NetPeer.start_iff.trans hopens.exists_iff, fun calls => ?_⟩
    -- The newly constructed session is the other one with empty maps.
    obtain rfl : v = role.agreed received := hopens.value_eq
    have halike := NetSession.Harmless.alike
      (s := ((p.reset role.ports.1 role.ports.2).opened (role.agreed received) w').session)
      ⟨hharmless.locals, hharmless.remotes, hharmless.own, hharmless.peer, hharmless.agree⟩ rfl
    exact (NetPeer.observe_withMaps (p := ((p.reset role.ports.1 role.ports.2).opened
      (role.agreed received) w').unlogged) halike calls).symm
  · intro role hash id sent received p q hstart hremotes hsnapshots
    obtain ⟨v, w', hopens, rfl⟩ := RollbackPeer.start_iff.mp hstart
    refine ⟨((RollbackPeer.fresh p.world).reset role.ports.1 role.ports.2).opened v w',
      fun r => RollbackPeer.start_iff.trans hopens.exists_iff, fun calls => ?_⟩
    have hvalue : v = orDefault (role.agreed received) := hopens.value_eq
    have hfresh : ((p.reset role.ports.1 role.ports.2).opened v w').unlogged.withMaps {} =
        ((RollbackPeer.fresh p.world).reset role.ports.1 role.ports.2).opened v w' := by
      unfold RollbackPeer.withMaps RollbackSession.withMaps RollbackPeer.unlogged
        RollbackPeer.opened RollbackPeer.reset
      dsimp only
      rw [hremotes]
      rfl
    rw [← hfresh]
    -- At frame 0 nothing is simulated yet, so only the ring could differ.
    refine (RollbackPeer.observe_withMaps (A := p.session.ring = .empty) ⟨⟨?_, ?_, ?_⟩, ?_, ?_, ?_⟩
      calls).symm
    · rintro k (hempty | hk)
      · exact congrArg (OrderedMap.find? · k) hempty
      · exact absurd hk (Nat.not_lt_zero k)
    · exact fun k hk => absurd hk (Nat.not_lt_zero k)
    · exact fun k hk => absurd hk (Nat.not_lt_zero k)
    · exact hsnapshots.imp_right fun hkeeps => hkeeps.of_reaches hopens.reaches
    · exact Nat.zero_le _
    · exact hvalue ▸ orDefault_pos _

/-! ### Sessions of the reference core -/

/-- The messages a start that succeeds sends, and the peer it leaves. -/
def started {P : Type} (prog : TransportProgram (Except StartError Unit × P))
    (received : List Blob) : Option (List Blob × P) :=
  match converse prog received with
  | some (sent, .ok (), q) => some (sent, q)
  | _ => none

theorem completes_of_started {P : Type} {prog : TransportProgram (Except StartError Unit × P)}
    {received : List Blob} {r : List Blob × P} (h : started prog received = some r) :
    Completes prog r.1 received (.ok (), r.2) := by
  unfold started at h
  split at h
  · next sent q hq =>
    obtain rfl := Option.some.inj h
    exact completes_of_converse hq
  · exact nomatch h

/-- The `Hello` of a join. -/
def joinHello : Blob := Wire.encodeHello (hello 0 refHash refName)

/-- A lockstep session that holds an input and a checksum of an earlier one. -/
def usedNetPeer : NetPeer RefCoreRollback Unit :=
  { session := {
      frame := 3
      status := .waiting
      localPending := OrderedMap.empty.insert 400 RefCoreRollback.pressX
      ownCrc := OrderedMap.empty.insert 0 9 }
    world := RefCoreRollback.loaded }

/-- A rollback session that holds a snapshot and inputs of an earlier one. -/
def usedRollbackPeer : RollbackPeer RefCoreRollback Unit :=
  { session := {
      frame := 3
      status := .desync
      ring := OrderedMap.empty.insert 2 [1, 2, 3, 4]
      locals := OrderedMap.empty.insert 2 RefCoreRollback.pressX
      used := OrderedMap.empty.insert 2 RefCoreRollback.pressX }
    world := RefCoreRollback.loaded }

/-- The second sessions of both peers start as the first ones of new peers would. -/
theorem restart_like_fresh_leftovers :
    (∃ sent q q₀, Completes (usedNetPeer.start RefCoreRollback.env (.host 200) refHash refName) sent
        [joinHello] (.ok (), q) ∧
      (∀ r, Completes ((NetPeer.fresh usedNetPeer.world).start RefCoreRollback.env (.host 200)
        refHash refName) sent [joinHello] (.ok (), r) ↔ r = q₀) ∧
      ∀ calls, NetPeer.observe RefCoreRollback.env calls q.unlogged =
        NetPeer.observe RefCoreRollback.env calls q₀) ∧
    ∃ sent q q₀,
      Completes (usedRollbackPeer.start RefCoreRollback.env (.host 4) refHash refName) sent
        [joinHello] (.ok (), q) ∧
      (∀ r, Completes
        ((RollbackPeer.fresh usedRollbackPeer.world).start RefCoreRollback.env (.host 4)
        refHash refName) sent [joinHello] (.ok (), r) ↔ r = q₀) ∧
      ∀ calls, RollbackPeer.observe RefCoreRollback.env calls q.unlogged =
        RollbackPeer.observe RefCoreRollback.env calls q₀ := by
  constructor
  · have hany : (started (usedNetPeer.start RefCoreRollback.env (.host 200) refHash refName)
        [joinHello]).isSome = true := by
      decide +kernel
    obtain ⟨r, hr⟩ := Option.isSome_iff_exists.mp hany
    have hstart := completes_of_started hr
    have hharmless : usedNetPeer.session.Harmless ((Role.host 200).agreed [joinHello]).toNat := by
      -- The input is for frame 400, past the delay; the checksum for frame 0 has no partner.
      refine ⟨fun k i hk hlt => ?_, (fun k i hk => nomatch hk), fun k crc hk => ?_,
        (fun k crc hk => nomatch hk), (fun k own peer _ hpeer => nomatch hpeer)⟩
      · change (OrderedMap.empty.insert 400 RefCoreRollback.pressX).find? k = some i at hk
        rw [OrderedMap.find?_insert] at hk
        split_ifs at hk with h400
        · subst h400
          exact absurd hlt (by decide)
        · exact nomatch hk
      · change (OrderedMap.empty.insert 0 9).find? k = some crc at hk
        rw [OrderedMap.find?_insert] at hk
        split_ifs at hk with h0
        · subst h0
          decide
        · exact nomatch hk
    obtain ⟨q₀, hfresh, hsame⟩ :=
      (restart_like_fresh RefCoreRollback.env).1 (.host 200) refHash refName
      r.1 [joinHello] usedNetPeer r.2 hstart hharmless
    exact ⟨r.1, r.2, q₀, hstart, hfresh, hsame⟩
  · have hany : (started (usedRollbackPeer.start RefCoreRollback.env (.host 4) refHash refName)
        [joinHello]).isSome = true := by
      decide +kernel
    obtain ⟨r, hr⟩ := Option.isSome_iff_exists.mp hany
    have hstart := completes_of_started hr
    obtain ⟨q₀, hfresh, hsame⟩ :=
      (restart_like_fresh RefCoreRollback.env).2 (.host 4) refHash refName
      r.1 [joinHello] usedRollbackPeer r.2 hstart rfl
      (Or.inr (keepsSnapshots_of_ready RefCoreRollback.loaded_live.ready
        refDriven.serializeCapable))
    exact ⟨r.1, r.2, q₀, hstart, hfresh, hsame⟩

/-- A tick in which the other side's input of frame 0 arrives. -/
def hearing : InputState × NetIo :=
  (.neutral,
    { inputSent := true
      arriving := [.input { frame := 0, port := 1, state := RefCoreRollback.pressX }]
      recvFailed := false
      checksumSent := true })

/-- A tick in which nothing arrives. -/
def silent : InputState × NetIo :=
  (.neutral, { inputSent := true, arriving := [], recvFailed := false, checksumSent := true })

/-- Three starts that succeed one after another, computed: of a session, of that session again
later, and of a new one beside it, which sends the same messages. -/
theorem restarts_of_started {P : Type} {prog : TransportProgram (Except StartError Unit × P)}
    {again anew : P → TransportProgram (Except StartError Unit × P)} {A B : P → Prop}
    [DecidablePred A]
    [DecidablePred B]
    (h : (started prog [joinHello]).any (fun a => (started (again a.2) [joinHello]).any fun b =>
      (started (anew a.2) [joinHello]).any fun c => decide (c.1 = b.1 ∧ A b.2 ∧ B c.2)) = true) :
    ∃ sent sent' p q q₀, Completes prog sent [joinHello] (.ok (), p) ∧
      Completes (again p) sent' [joinHello] (.ok (), q) ∧
      Completes (anew p) sent' [joinHello] (.ok (), q₀) ∧ A q ∧ B q₀ := by
  obtain ⟨a, ha, ha'⟩ := (Option.any_eq_true _ _).mp h
  obtain ⟨b, hb, hb'⟩ := (Option.any_eq_true _ _).mp ha'
  obtain ⟨c, hc, hc'⟩ := (Option.any_eq_true _ _).mp hb'
  obtain ⟨hsent, hA, hB⟩ := of_decide_eq_true hc'
  exact ⟨a.1, b.1, a.2, b.2, c.2, completes_of_started ha, completes_of_started hb,
    hsent ▸ completes_of_started hc, hA, hB⟩

/-- A session that has received an input starts again and applies it: the lockstep session where a
new one waits, and the rollback session where a new one predicts a neutral input. -/
theorem restart_remembers :
    (∃ sent sent' p q q₀,
      Completes ((NetPeer.fresh RefCoreRollback.loaded).start RefCoreRollback.env
        (.host 0) refHash refName) sent [joinHello] (.ok (), p) ∧
      Completes ((NetPeer.ticks RefCoreRollback.env [hearing] p).2.start RefCoreRollback.env
        (.host 0) refHash refName) sent' [joinHello] (.ok (), q) ∧
      Completes ((NetPeer.fresh (NetPeer.ticks RefCoreRollback.env [hearing] p).2.world).start
        RefCoreRollback.env (.host 0) refHash refName) sent' [joinHello] (.ok (), q₀) ∧
      (NetPeer.observe RefCoreRollback.env [silent] q.unlogged).1 = [(.ok, 0)] ∧
      (NetPeer.observe RefCoreRollback.env [silent] q₀).1 = [(.waiting, 0)]) ∧
    ∃ sent sent' p q q₀, Completes ((RollbackPeer.fresh RefCoreRollback.loaded).start
        RefCoreRollback.env (.host 8) refHash refName) sent [joinHello] (.ok (), p) ∧
      Completes ((RollbackPeer.ticks RefCoreRollback.env [.delivering .neutral hearing.2.arriving]
        p).2.start RefCoreRollback.env (.host 8) refHash refName) sent' [joinHello] (.ok (), q) ∧
      Completes ((RollbackPeer.fresh (RollbackPeer.ticks RefCoreRollback.env
        [.delivering .neutral hearing.2.arriving] p).2.world).start RefCoreRollback.env (.host 8)
          refHash refName) sent' [joinHello] (.ok (), q₀) ∧
      (RollbackPeer.observe RefCoreRollback.env [.delivering .neutral []] q.unlogged).2.2.1.map
        (·.port1) = [RefCoreRollback.pressX] ∧
      (RollbackPeer.observe RefCoreRollback.env [.delivering .neutral []] q₀).2.2.1.map
        (·.port1) = [.neutral] := by
  constructor
  · exact restarts_of_started (by decide +kernel)
  · exact restarts_of_started (by decide +kernel)

end RetroPark.Net
