import RetroPark.Net.Lockstep.Detection

/-!
# Lockstep with a long delay

With a delay of more than 120 frames the checksum of a frame arrives when the own checksum of that
frame has already been pruned, so that no tick ever returns `Desync`.

* `Announces` is the order in which one side sends its messages, `Lags` what follows for the two
  maps of checksums of the side that receives them;
* `round_run` shows that two sides with such a delay can always go on by one frame;
* `desync_not_detected` is the run of two cores that start in different states.
-/

namespace RetroPark.Net

open Duplex RetroPark.Runtime

namespace NetSession

/-- A checksum at hand was there before, or is one of the messages received. -/
theorem receiveAll_peerCrc_isSome {s : NetSession} {f : ℕ} {ms : List Message}
    (h : ((s.receiveAll ms).peerCrc.find? f).isSome) :
    (s.peerCrc.find? f).isSome ∨
      ∃ (j : ℕ) (crc : UInt32), ms[j]? = some (Message.checksum { frame := f, crc }) := by
  induction ms using List.reverseRecOn with
  | nil => exact Or.inl h
  | append_singleton ms m ih =>
    -- What the earlier messages brought keeps its place among them all.
    have hold : ((s.receiveAll ms).peerCrc.find? f).isSome → (s.peerCrc.find? f).isSome ∨
        ∃ (j : ℕ) (crc : UInt32),
          (ms ++ [m])[j]? = some (Message.checksum { frame := f, crc }) := by
      intro hms
      refine (ih hms).imp id ?_
      rintro ⟨j, crc, hj⟩
      exact ⟨j, crc, by rw [List.getElem?_append_left (List.getElem?_eq_some_iff.mp hj).1, hj]⟩
    rw [receiveAll_concat] at h
    cases m with
    | input _ => exact hold h
    | other => exact hold h
    | checksum c =>
      change ((OrderedMap.insert _ c.frame c.crc).find? f).isSome at h
      rw [OrderedMap.find?_insert] at h
      split_ifs at h with hf
      · subst hf
        exact Or.inr ⟨ms.length, c.crc, by simp⟩
      · exact hold h

end NetSession

namespace NetPeer

variable {κ β : Type} {env : Env κ β}

section LongDelay

variable {D : ℕ} {x y : Party (NetPeer κ β) InputState} {m m' : Link (NetPeer κ β) InputState}

/-- The inputs a side has sent: one for each frame up to `D` ahead, and before a checksum those up
to `D` frames after it. -/
structure Announces (env : Env κ β) (D : ℕ) (x : Party (NetPeer κ β) InputState) : Prop where
  inputs : ∀ k, D ≤ k → k < x.state.session.frame + D + (if x.calling.isSome then 1 else 0) →
    (lastInput k ((protocol env).outbox x)).isSome
  before : ∀ (i : ℕ) (c : Checksum), ((protocol env).outbox x)[i]? = some (.checksum c) →
    ∀ k, D ≤ k → k ≤ c.frame + D → (lastInput k (((protocol env).outbox x).take i)).isSome

/-- The own checksums of a side are of the last 121 frames, those received of frames more than `D`
frames back. -/
structure Lags (D : ℕ) (x : Party (NetPeer κ β) InputState) : Prop where
  undetected : x.state.session.status ≠ .desync
  own_recent : ∀ f, (x.state.session.ownCrc.find? f).isSome → x.state.session.frame ≤ f + 121
  peer_old : ∀ f, (x.state.session.peerCrc.find? f).isSome → f + D + 1 ≤ x.state.session.frame

theorem announces_start {delay : UInt32} {w : Side → World κ β} (s : Side) :
    Announces env delay.toNat (startMatch delay w s) where
  inputs k hk hlt := by
    change k < 0 + delay.toNat + 0 at hlt
    omega
  before i c hi := by simp [startMatch, Protocol.outbox, protocol] at hi

theorem lags_start {delay : UInt32} {w : Side → World κ β} (s : Side) :
    Lags delay.toNat (startMatch delay w s) where
  undetected := fun h => nomatch h
  own_recent f hf := by
    change ((OrderedMap.empty : OrderedMap ℕ UInt32).find? f).isSome at hf
    simp at hf
  peer_old f hf := by
    change ((OrderedMap.empty : OrderedMap ℕ UInt32).find? f).isSome at hf
    simp at hf

/-- Messages sent later keep the order of the earlier ones. -/
theorem Announces.before_append (h : Announces env D x) {rest : List Message}
    (hnew : ∀ c, .checksum c ∈ rest → ∀ k, D ≤ k → k ≤ c.frame + D →
      (lastInput k ((protocol env).outbox x)).isSome) (i : ℕ) (c : Checksum)
    (hi : ((protocol env).outbox x ++ rest)[i]? = some (.checksum c)) (k : ℕ) (hk : D ≤ k)
    (hle : k ≤ c.frame + D) :
    (lastInput k (((protocol env).outbox x ++ rest).take i)).isSome := by
  rcases Nat.lt_or_ge i ((protocol env).outbox x).length with hlt | hge
  · rw [List.getElem?_append_left hlt] at hi
    rw [List.take_append_of_le_length hlt.le]
    exact h.before i c hi k hk hle
  · rw [List.getElem?_append_right hge] at hi
    rw [List.take_append, List.take_of_length_le hge]
    exact latest_isSome_append (hnew c (List.mem_of_getElem? hi) k hk hle) _

theorem Announces.begin (h : Announces env D x) (hkeeps : Keeps env D x) (hidle : x.calling = none)
    (localNow : InputState) : Announces env D { x with calling := some localNow } := by
  have hout : (protocol env).outbox { x with calling := some localNow } =
      (protocol env).outbox x ++ [x.state.inputMessage localNow] := by
    rw [Protocol.outbox_idle hidle]
    rfl
  refine ⟨fun k hk hlt => ?_, fun i c hi k hk hle => ?_⟩
  · rw [hout]
    rcases Nat.lt_or_ge k (x.state.session.frame + D) with hold | hnew
    · exact latest_isSome_append (h.inputs k hk (by rw [hidle]; exact hold)) _
    · -- The input just announced is for this frame.
      obtain rfl : x.state.session.applyFrame = k := by
        change k < x.state.session.frame + D + 1 at hlt
        rw [NetSession.applyFrame, hkeeps.delay]
        omega
      exact latest_isSome (List.mem_append_right _ (List.mem_singleton.mpr rfl))
        (by simp [inputMessage, Message.inputFor])
  · rw [hout] at hi ⊢
    refine h.before_append (fun c hc => ?_) i c hi k hk hle
    exact absurd (List.mem_singleton.mp hc) (by simp [inputMessage])

/-- The checksum of a frame follows the inputs for up to `D` frames after it. -/
theorem Announces.finish {localNow : InputState} (h : Announces env D x)
    (hcalling : x.calling = some localNow) {q : NetPeer κ β} {cs : List Checksum}
    (hsent : q.sent = (protocol env).outbox x ++ cs.map .checksum)
    (hcs : ∀ c ∈ cs, c.frame = x.state.session.frame)
    (hframe : q.session.frame ≤ x.state.session.frame + 1) (taken : ℕ) :
    Announces env D { state := q, taken } := by
  -- The call in progress has announced its input already.
  have hinputs : ∀ k, D ≤ k → k < x.state.session.frame + D + 1 →
      (lastInput k ((protocol env).outbox x)).isSome :=
    fun k hk hlt => h.inputs k hk (by rw [hcalling]; exact hlt)
  have hout : (protocol env).outbox { state := q, taken } =
      (protocol env).outbox x ++ cs.map .checksum := hsent
  refine ⟨fun k hk hlt => ?_, fun i c hi k hk hle => ?_⟩
  · rw [hout]
    change k < q.session.frame + D + 0 at hlt
    exact latest_isSome_append (hinputs k hk (by omega)) _
  · rw [hout] at hi ⊢
    refine h.before_append (fun c hc k hk hle => ?_) i c hi k hk hle
    -- The new checksum comes after everything that was sent before.
    obtain ⟨c', hc', heq⟩ := List.mem_map.mp hc
    obtain rfl := Message.checksum.inj heq
    have := hcs c' hc'
    exact hinputs k hk (by omega)

theorem Records.own_recent {s : NetSession} {own : OrderedMap ℕ UInt32} {cs : List Checksum}
    {sent goesOn : Bool} (h : Records s sent own cs goesOn) {n : ℕ}
    (hown : ∀ f, (s.ownCrc.find? f).isSome → s.frame ≤ f + n) {f : ℕ} (hf : (own.find? f).isSome) :
    s.frame ≤ f + n := by
  have hinsert : ∀ crc, ((s.ownCrc.insert s.frame crc).find? f).isSome → s.frame ≤ f + n := by
    intro crc hcrc
    rw [OrderedMap.find?_insert] at hcrc
    split_ifs at hcrc with heq
    · omega
    · exact hown f hcrc
  cases h with
  | skipped => exact hown f hf
  | sent crc _ _ => exact hinsert crc hf
  | lost crc _ _ => exact hinsert crc hf

theorem finish_frame_le {p : NetPeer κ β} (hconnected : p.session.status ≠ .disconnected)
    (localNow : InputState) (ms : List Message) :
    ((protocol env).finish p localNow () ms).1.session.frame ≤ p.session.frame + 1 := by
  obtain ⟨n, -, -, hcases⟩ := finish_cases env hconnected localNow ms
  dsimp only at hcases
  rcases hcases with ⟨hq, -⟩ | ⟨-, q, hshown, hq⟩
  · rw [hq]
    exact Nat.le_succ _
  · obtain ⟨own, cs, hsession, -, -⟩ := hshown.records
    have hframe : q.session.frame = p.session.frame := by rw [hsession]; rfl
    rw [hq]
    exact hframe ▸ (settle_settled q).frame_cases.2.2

/-- A checksum that arrives while the input of the frame is missing was sent long before it. -/
theorem Lags.peer_afterReceive (h : Lags D x) (hkeeps : Keeps env D x) (hhears : Hears env D x y)
    (hy : Announces env D y) {localNow : InputState} {k : ℕ}
    (hmissing : ∀ j < k, (x.state.afterReceive localNow
      (((protocol env).inFlight x y).take j)).session.hasRemote = false) {f : ℕ}
    (hf : ((x.state.afterReceive localNow
      (((protocol env).inFlight x y).take k)).session.peerCrc.find? f).isSome) :
    f + D + 1 ≤ x.state.session.frame := by
  rcases NetSession.receiveAll_peerCrc_isSome hf with hold | ⟨j, crc, hj⟩
  · exact h.peer_old f hold
  · obtain ⟨hlt, -⟩ := List.getElem?_eq_some_iff.mp hj
    have hjk : j < k := lt_of_lt_of_le hlt (by rw [List.length_take]; exact min_le_left _ _)
    rw [List.getElem?_take_of_lt hjk, Protocol.inFlight, List.getElem?_drop] at hj
    have hnone := mt (hhears.hasRemote_iff hkeeps.delay localNow j).mpr (by simp [hmissing j hjk])
    obtain ⟨hlate, hnone⟩ := not_or.mp hnone
    -- Were it newer, the input it was sent after would be at hand.
    by_contra hle
    have hsome := hy.before _ _ hj x.state.session.frame (not_lt.mp hlate) (by dsimp only; omega)
    rw [List.take_add] at hsome
    exact hnone hsome

/-- Own checksums are at most 121 frames old, those of the other side more than `D`. -/
theorem not_hasMismatch (hD : 120 < D) {s : NetSession} {n : ℕ}
    (hown : ∀ f, (s.ownCrc.find? f).isSome → n ≤ f + 121)
    (hpeer : ∀ f, (s.peerCrc.find? f).isSome → f + D + 1 ≤ n) : ¬s.hasMismatch = true := by
  intro hmismatch
  obtain ⟨f, own, peer, hfind, hfind', -⟩ := s.hasMismatch_iff.mp hmismatch
  have hrecent := hown f (by rw [hfind]; rfl)
  have hold := hpeer f (by rw [hfind']; rfl)
  omega

/-- With a delay of more than 120 frames, a tick compares no two checksums of one frame. -/
theorem Lags.finish {localNow : InputState} (h : Lags D x) (hD : 120 < D) (hkeeps : Keeps env D x)
    (hhears : Hears env D x y) (hy : Announces env D y) {n : ℕ}
    (hn : n ≤ ((protocol env).inFlight x y).length) :
    Lags D ((protocol env).ended x y localNow n ()) := by
  obtain ⟨k, -, -, hmissing, hcases⟩ :=
    ended_cases localNow hkeeps.connected hhears.taken_le hn
  have hpeer : ∀ f, ((x.state.afterReceive localNow
      (((protocol env).inFlight x y).take k)).session.peerCrc.find? f).isSome →
      f + D + 1 ≤ x.state.session.frame :=
    fun f hf => h.peer_afterReceive hkeeps hhears hy hmissing hf
  dsimp only at hcases
  rcases hcases with ⟨hq, -⟩ | ⟨-, q, hshown, hq⟩
  · rw [hq]
    exact ⟨by rintro ⟨⟩, h.own_recent, hpeer⟩
  · obtain ⟨own, cs, hsession, -, hrecords⟩ := hshown.records
    have hframe : q.session.frame = x.state.session.frame := by rw [hsession]; rfl
    have hown : ∀ f, (q.session.ownCrc.find? f).isSome → x.state.session.frame ≤ f + 121 := by
      intro f hf
      rw [hsession] at hf
      exact hrecords.own_recent h.own_recent hf
    have hpeer : ∀ f, (q.session.peerCrc.find? f).isSome → f + D + 1 ≤ x.state.session.frame := by
      intro f hf
      rw [hsession] at hf
      exact hpeer f hf
    rw [hq, settle, if_neg (not_hasMismatch hD hown hpeer)]
    refine ⟨by rintro ⟨⟩, fun f hf => ?_, fun f hf => ?_⟩
    · obtain ⟨crc, hcrc⟩ := Option.isSome_iff_exists.mp hf
      obtain ⟨hfloor, -⟩ := OrderedMap.find?_of_find?_eraseBelow hcrc
      change q.session.frame + 1 ≤ f + 121
      -- Pruning drops the own checksums of two periods ago.
      rw [NetSession.checksumEvery] at hfloor
      omega
    · obtain ⟨crc, hcrc⟩ := Option.isSome_iff_exists.mp hf
      obtain ⟨-, hfind⟩ := OrderedMap.find?_of_find?_eraseBelow hcrc
      have := hpeer f (by rw [hfind]; rfl)
      change f + D + 1 ≤ q.session.frame + 1
      omega

/-- What a side keeps, hears and announces, for any two runtimes. -/
theorem supply_inductive (d : ℕ) : (protocol env).Inductive (fun _ _ _ => True)
    (fun _ x => Keeps env d x ∧ Announces env d x)
    (fun _ x y => Hears env d x y ∧ Keeps env d y ∧ Announces env d y) where
  begin := by
    rintro s x y localNow ⟨hkeeps, hannounces⟩ ⟨hhears, hother⟩ ⟨hhears', -⟩ hidle - -
    have hkeeps' := hkeeps.begin hidle localNow
    have hannounces' := hannounces.begin hkeeps hidle localNow
    refine ⟨⟨hkeeps', hannounces'⟩,
      ⟨⟨hhears.taken_le, hhears.remotePending, hhears.heard, hhears.applied⟩, hother⟩,
      hhears'.append [x.state.inputMessage localNow] ?_, hkeeps', hannounces'⟩
    rw [Protocol.outbox_idle hidle]
    rfl
  finish := by
    rintro s x y localNow n - ⟨hkeeps, hannounces⟩ ⟨hhears, hother⟩ ⟨hhears', -⟩ hcalling hn
    obtain ⟨hkeeps', cs, hcs, hframe⟩ := hkeeps.finish hcalling
      (((protocol env).inFlight x y).take n) (x.taken + ((protocol env).finish x.state localNow ()
        (((protocol env).inFlight x y).take n)).2)
    have hannounces' := hannounces.finish hcalling hcs hframe
      (finish_frame_le hkeeps.connected localNow _) (x.taken + ((protocol env).finish x.state
        localNow () (((protocol env).inFlight x y).take n)).2)
    exact ⟨⟨hkeeps', hannounces'⟩,
      ⟨hhears.finish localNow hkeeps.connected hkeeps.delay hn, hother⟩,
      hhears'.append (cs.map .checksum) hcs, hkeeps', hannounces'⟩

/-- The invariant of a match with a delay of more than 120 frames. -/
def LagInvariant (env : Env κ β) (D : ℕ) : Link (NetPeer κ β) InputState → Prop :=
  Protocol.Holds (fun _ x => (Keeps env D x ∧ Announces env D x) ∧ Lags D x)
    (fun _ x y => Hears env D x y ∧ Keeps env D y ∧ Announces env D y)

theorem lag_start {delay : UInt32} {w : Side → World κ β} :
    LagInvariant env delay.toNat (startMatch delay w) := fun s =>
  ⟨⟨⟨keeps_start s, announces_start s⟩, lags_start s⟩, hears_start s, keeps_start s.other,
    announces_start s.other⟩

/-- Every call keeps the invariant of a match with such a delay. -/
theorem lag_inductive (hD : 120 < D) : (protocol env).Inductive (fun _ _ _ => True)
    (fun _ x => (Keeps env D x ∧ Announces env D x) ∧ Lags D x)
    (fun _ x y => Hears env D x y ∧ Keeps env D y ∧ Announces env D y) :=
  (supply_inductive D).strengthen
    (fun hlags => ⟨hlags.undetected, hlags.own_recent, hlags.peer_old⟩)
    fun hself hlags hother _ hn => hlags.finish hD hself.1 hother.1 hother.2.2 hn

/-! ### A run that goes on -/

/-- The latest tick of each side has returned `Ok`. -/
def AllOk (m : Link (NetPeer κ β) InputState) (_ : Action InputState Unit) : Prop :=
  (m host).state.session.status = .ok ∧ (m join).state.session.status = .ok

instance (m : Link (NetPeer κ β) InputState) (act : Action InputState Unit) :
    Decidable (AllOk m act) := inferInstanceAs (Decidable (_ ∧ _))

theorem allOk_iff {act : Action InputState Unit} :
    AllOk m act ↔ ∀ s, (m s).state.session.status = .ok := by
  refine ⟨fun h s => ?_, fun h => ⟨h host, h join⟩⟩
  cases s
  · exact h.1
  · exact h.2

/-- Both sides are between two calls at frame `f`, and the latest tick of each has returned `Ok`. -/
structure Level (f : ℕ) (m : Link (NetPeer κ β) InputState) : Prop where
  ok : ∀ s, (m s).state.session.status = .ok
  idle : ∀ s, (m s).calling = none
  frame : ∀ s, (m s).state.session.frame = f

/-- The other side announces its inputs `D` frames ahead, so a side that is less than `D` frames
ahead of it finds the input of its frame on the wire. -/
theorem hasRemote_of_lt {x y : Party (NetPeer κ β) InputState} (hhears : Hears env D x y)
    (hdelay : x.state.session.delay.toNat = D) (hy : Announces env D y)
    (hframe : x.state.session.frame < y.state.session.frame + D) (localNow : InputState) :
    (x.state.afterReceive localNow (((protocol env).inFlight x y).take
      ((protocol env).inFlight x y).length)).session.hasRemote = true := by
  rw [hhears.hasRemote_iff hdelay, or_iff_not_imp_left]
  intro hlate
  have hall : received env x y ++ ((protocol env).inFlight x y).take
      ((protocol env).inFlight x y).length = (protocol env).outbox y := by
    rw [List.take_length]
    exact List.take_append_drop _ _
  rw [hall]
  exact hy.inputs _ (not_lt.mp hlate) (lt_of_lt_of_le hframe (Nat.le_add_right _ _))

/-- A side that is less than `D` frames ahead can tick with everything on its way at hand, and moves
on to its next frame. -/
theorem tick_ok (hD : 120 < D) (h : LagInvariant env D m)
    (hok : ∀ t, (m t).state.session.status = .ok) {s : Side} (hidle : (m s).calling = none)
    (hframe : (m s).state.session.frame < (m s.other).state.session.frame + D) :
    ∃ acts m', (protocol env).machine.Run AllOk m acts m' ∧ LagInvariant env D m' ∧
      (m' s).state.session.status = .ok ∧ (m' s).calling = none ∧
      (m' s).state.session.frame = (m s).state.session.frame + 1 ∧ m' s.other = m s.other ∧
      ∀ f crc, f ≠ (m s).state.session.frame →
        (.checksum { frame := f, crc } ∈ (m' s).state.sent ↔
          .checksum { frame := f, crc } ∈ (m s).state.sent) := by
  obtain ⟨⟨⟨hkeeps, -⟩, -⟩, hhears, -, hother⟩ := h s
  let x : Party (NetPeer κ β) InputState := { m s with calling := some .neutral }
  let n := ((protocol env).inFlight x (m s.other)).length
  let m₁ := Function.update m s x
  let m₂ := Function.update m₁ s ((protocol env).ended x (m s.other) .neutral n ())
  have hself : m₁ s = x := Function.update_self _ _ _
  have hrest : m₁ s.other = m s.other := Function.update_of_ne s.other_ne _ _
  have hbegin : (protocol env).step m (.begin s .neutral) = some m₁ := by
    rw [Protocol.step, hidle]
    exact if_pos (decide_eq_true hkeeps.connected)
  have hfinish : (protocol env).step m₁ (.finish s n ()) = some m₂ := by
    rw [Protocol.step, hself, hrest]
    exact if_pos le_rfl
  -- Both steps keep the invariant of the match.
  have h₁ := (lag_inductive hD).step h
    (show Protocol.onBegin (fun _ _ _ => True) m (.begin s .neutral) from trivial) hbegin
  have h₂ := (lag_inductive hD).step h₁
    (show Protocol.onBegin (fun _ _ _ => True) m₁ (.finish s n ()) from trivial) hfinish
  have hself₂ : m₂ s = (protocol env).ended x (m s.other) .neutral n () :=
    Function.update_self _ _ _
  have hrest₂ : m₂ s.other = m s.other := (Function.update_of_ne s.other_ne _ _).trans hrest
  have hconnected : x.state.session.status ≠ .disconnected := hkeeps.connected
  have htaken : x.taken ≤ ((protocol env).outbox (m s.other)).length := hhears.taken_le
  -- The tick either ran out of messages or showed its frame.
  obtain ⟨k, -, -, -, hcases⟩ := ended_cases .neutral hconnected htaken (le_refl n)
  dsimp only at hcases
  rcases hcases with ⟨-, rfl, hnone⟩ | ⟨-, q, hshown, hq⟩
  · -- The input of the frame has been sent, so the receive loop finds it.
    have hhears' : Hears env D x (m s.other) :=
      ⟨hhears.taken_le, hhears.remotePending, hhears.heard, hhears.applied⟩
    have hhas := hasRemote_of_lt hhears' hkeeps.delay hother hframe .neutral
    exact absurd (hhas.symm.trans hnone) (by decide)
  · obtain ⟨own, cs, hsession, -, -⟩ := hshown.records
    have hqframe : q.session.frame = (m s).state.session.frame := by rw [hsession]; rfl
    obtain ⟨-, hlags, -⟩ := (h₂ s).1
    rw [hself₂, hq] at hlags
    -- `Lags` excludes a desync, so the tick moved on.
    rcases (settle_settled q).frame with ⟨-, hdesync⟩ | ⟨hnext, hstatus, -⟩
    · exact absurd hdesync hlags
    · have hok₁ : ∀ t, (m₁ t).state.session.status = .ok := by
        intro t
        by_cases ht : t = s
        · subst ht
          rw [hself]
          exact hok t
        · rw [Side.eq_other_of_ne ht, hrest]
          exact hok s.other
      refine ⟨[.begin s .neutral, .finish s n ()], m₂, ?_, h₂, ?_, ?_, ?_, hrest₂, ?_⟩
      · exact .cons (allOk_iff.mpr hok) hbegin (.cons (allOk_iff.mpr hok₁) hfinish (.nil _))
      · rw [hself₂, hq]
        exact hstatus
      · rw [hself₂]
        rfl
      · rw [hself₂, hq]
        exact hnext.trans (by rw [hqframe])
      · intro f crc hf
        rw [hself₂, hq]
        exact hshown.checksum_mem hf crc

/-- Two sides that are level can both move on by one frame. -/
theorem level_succ (hD : 120 < D) (h : LagInvariant env D m) {f : ℕ} (hlevel : Level f m) :
    ∃ acts m', (protocol env).machine.Run AllOk m acts m' ∧ LagInvariant env D m' ∧
      Level (f + 1) m' ∧ ∀ s f' crc, f' ≠ f →
        (.checksum { frame := f', crc } ∈ (m' s).state.sent ↔
          .checksum { frame := f', crc } ∈ (m s).state.sent) := by
  -- The host ticks first, and is then one frame ahead of the joiner.
  obtain ⟨acts, m₁, hrun, h₁, hok, hidle, hframe, hrest, hsums⟩ :=
    tick_ok hD h hlevel.ok (s := host) (hlevel.idle host)
      (by rw [hlevel.frame, hlevel.frame]; omega)
  rw [hlevel.frame] at hframe
  have hjoin : m₁ join = m join := hrest
  have hok₁ : ∀ t, (m₁ t).state.session.status = .ok := by
    intro t
    cases t
    · exact hok
    · exact hjoin ▸ hlevel.ok join
  obtain ⟨acts', m₂, hrun', h₂, hok', hidle', hframe', hrest', hsums'⟩ :=
    tick_ok hD h₁ hok₁ (s := join) (hjoin ▸ hlevel.idle join) (by
      have hother : (m₁ join.other).state.session.frame = f + 1 := hframe
      rw [hother, hjoin, hlevel.frame]
      omega)
  rw [hjoin, hlevel.frame] at hframe' hsums'
  have hhost : m₂ host = m₁ host := hrest'
  refine ⟨acts ++ acts', m₂, hrun.append hrun', h₂, ⟨?_, ?_, ?_⟩, ?_⟩ <;> intro t <;> cases t
  · exact hhost ▸ hok
  · exact hok'
  · exact hhost ▸ hidle
  · exact hidle'
  · exact hhost ▸ hframe
  · exact hframe'
  · intro f' crc hf
    show _ ∈ (m₂ host).state.sent ↔ _
    rw [hhost]
    exact hsums f' crc (by rw [hlevel.frame]; exact hf)
  · exact fun f' crc hf => hsums' f' crc hf

/-- Two sides that are level can go on for any number of frames. -/
theorem round_run (hD : 120 < D) (h : LagInvariant env D m) {f : ℕ} (hlevel : Level f m) (k : ℕ) :
    ∃ acts m', (protocol env).machine.Run AllOk m acts m' ∧ Level (f + k) m' ∧
      ∀ s f' crc, f' < f → (.checksum { frame := f', crc } ∈ (m' s).state.sent ↔
        .checksum { frame := f', crc } ∈ (m s).state.sent) := by
  -- Induction on the number of frames; the invariant is carried along.
  suffices hgoal : ∃ acts m', (protocol env).machine.Run AllOk m acts m' ∧
      LagInvariant env D m' ∧ Level (f + k) m' ∧
      ∀ s f' crc, f' < f → (.checksum { frame := f', crc } ∈ (m' s).state.sent ↔
        .checksum { frame := f', crc } ∈ (m s).state.sent) by
    obtain ⟨acts, m', hrun, -, hlevel', hsums⟩ := hgoal
    exact ⟨acts, m', hrun, hlevel', hsums⟩
  induction k with
  | zero => exact ⟨[], m, .nil m, h, hlevel, fun _ _ _ _ => Iff.rfl⟩
  | succ k ih =>
    obtain ⟨acts, m₁, hrun, h₁, hlevel₁, hsums⟩ := ih
    obtain ⟨acts', m₂, hrun', h₂, hlevel₂, hsums'⟩ := level_succ hD h₁ hlevel₁
    exact ⟨acts ++ acts', m₂, hrun.append hrun', h₂, hlevel₂, fun s f' crc hf =>
      (hsums' s f' crc (by omega)).trans (hsums s f' crc hf)⟩

/-- With a delay of 121 frames, the checksums for frame 0 differ, and both sides play on to frame
123 with every tick returning `Ok`. -/
theorem desync_not_detected :
    ∃ acts m, (protocol RefCoreRollback.env).machine.Run AllOk (apart 121) acts m ∧
      AllOk m (.begin host .neutral) ∧ Differ 0 (m host).state (m join).state ∧
      ∀ s, (m s).state.session.frame = 123 := by
  -- The first tick of each side is run; from there the rounds go on.
  have hfirst : ∃ m, (protocol RefCoreRollback.env).machine.Run AllOk (apart 121)
        (wholeTick host .neutral 0 ++ wholeTick join .neutral 0) m ∧
      AllOk m (.begin host .neutral) ∧ ((m host).calling = none ∧ (m join).calling = none) ∧
      ((m host).state.session.frame = 1 ∧ (m join).state.session.frame = 1) ∧
      Differ 0 (m host).state (m join).state :=
    Machine.exists_run (by decide +kernel)
  obtain ⟨m, hrun, hok, hidle, hframe, hdiffer⟩ := hfirst
  have hlag : LagInvariant RefCoreRollback.env 121 m := by
    have hstart : LagInvariant RefCoreRollback.env (121 : UInt32).toNat (apart 121) := lag_start
    refine (lag_inductive (by decide)).run hstart (hrun.weaken fun _ act _ => ?_)
    cases act <;> trivial
  have hlevel : Level 1 m := by
    refine ⟨allOk_iff.mp hok, fun s => ?_, fun s => ?_⟩ <;> cases s
    · exact hidle.1
    · exact hidle.2
    · exact hframe.1
    · exact hframe.2
  obtain ⟨acts, m', hrun', hlevel', hsums⟩ := round_run (by omega) hlag hlevel 122
  refine ⟨_, m', hrun.append hrun', allOk_iff.mpr hlevel'.ok, ?_, hlevel'.frame⟩
  -- No checksum for frame 0 is sent after the first tick.
  have hsums := fun s crc => hsums s 0 crc (by omega)
  exact hdiffer.congr (fun crc => (hsums host crc).mpr) (fun crc => (hsums join crc).mpr)
    (fun crc => (hsums host crc).mp) fun crc => (hsums join crc).mp

end LongDelay

end NetPeer

end RetroPark.Net
