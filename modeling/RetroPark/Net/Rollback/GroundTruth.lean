import RetroPark.Net.Rollback.Replay

/-!
# Rollback equals ground truth

The remote inputs arrive in frame order, each frame with one value, at any time and any number at
once (`ArrivesInOrder`). Over a deterministic core with faithful savestates, every tick that does
not lose the connection ends with the live core, and every snapshot, in the state of a plain replay:
with the real remote input for every frame received, and the recorded prediction for the others.

* `Reconciled` is the invariant between two ticks;
* `tick_equals_replay` is the statement about the live state and the snapshots;
* `SentTrue` says that every checksum sent is of the replay with the real inputs on both ports.
-/

namespace RetroPark.Net

open Replay RetroPark.Runtime

/-- The `Input` messages of a list carry the real inputs of the peer in frame order, starting from
`n` frames received; a frame received before may be repeated. -/
def ArrivesInOrder (real : ℕ → InputState) : ℕ → List Message → Prop
  | _, [] => True
  | n, .input m :: ms =>
      m.frame ≤ n ∧ m.state = real m.frame ∧ ArrivesInOrder real (max n (m.frame + 1)) ms
  | n, .checksum _ :: ms => ArrivesInOrder real n ms
  | n, .other :: ms => ArrivesInOrder real n ms

instance decidableArrivesInOrder (real : ℕ → InputState) :
    ∀ n ms, Decidable (ArrivesInOrder real n ms)
  | _, [] => .isTrue trivial
  | n, .input m :: ms =>
      let _ := decidableArrivesInOrder real (max n (m.frame + 1)) ms
      inferInstanceAs (Decidable (_ ∧ _ ∧ _))
  | n, .checksum _ :: ms => decidableArrivesInOrder real n ms
  | n, .other :: ms => decidableArrivesInOrder real n ms

/-- The number of frames received once a list of messages has been drained. -/
def arrived : ℕ → List Message → ℕ
  | n, [] => n
  | n, .input m :: ms => arrived (max n (m.frame + 1)) ms
  | n, .checksum _ :: ms => arrived n ms
  | n, .other :: ms => arrived n ms

theorem arrived_append (n : ℕ) (ms ms' : List Message) :
    arrived n (ms ++ ms') = arrived (arrived n ms) ms' := by
  induction ms generalizing n with
  | nil => rfl
  | cons m ms ih => cases m <;> exact ih _

theorem arrivesInOrder_append {real : ℕ → InputState} {n : ℕ} {ms ms' : List Message} :
    ArrivesInOrder real n (ms ++ ms') ↔
      ArrivesInOrder real n ms ∧ ArrivesInOrder real (arrived n ms) ms' := by
  induction ms generalizing n with
  | nil => simp [ArrivesInOrder, arrived]
  | cons m ms ih => cases m <;> simp [ArrivesInOrder, arrived, ih, and_assoc]

/-- Checksums are no inputs. -/
theorem arrives_checksums (real : ℕ → InputState) (n : ℕ) (cs : List Checksum) :
    ArrivesInOrder real n (cs.map .checksum) ∧ arrived n (cs.map .checksum) = n := by
  induction cs with
  | nil => exact ⟨trivial, rfl⟩
  | cons c cs ih => exact ih

namespace RollbackSession

/-- The real inputs of the frames in `[lo, received)` are on record. -/
def HasReal (real : ℕ → InputState) (lo : ℕ) (s : RollbackSession) : Prop :=
  ∀ k, lo ≤ k → k < s.received → s.remotes.find? k = some (real k)

theorem received_drain (s : RollbackSession) (ms : List Message) :
    (s.drain ms).received = arrived s.received ms := by
  induction ms generalizing s with
  | nil => rfl
  | cons m ms ih =>
    cases m with
    | input m => exact (ih _).trans (congrArg (arrived · ms) (s.received_receive_input m))
    | checksum m => exact ih _
    | other => exact ih _

/-- Draining messages in order keeps the record of real inputs. -/
theorem HasReal.drain {real : ℕ → InputState} {lo : ℕ} {s : RollbackSession} {ms : List Message}
    (h : s.HasReal real lo) (ha : ArrivesInOrder real s.received ms) :
    (s.drain ms).HasReal real lo := by
  induction ms generalizing s with
  | nil => exact h
  | cons m ms ih =>
    cases m with
    | input m =>
      obtain ⟨hle, hstate, hrest⟩ := ha
      refine ih ?_ (by rwa [received_receive_input])
      intro k hk hlt
      rw [received_receive_input] at hlt
      have hremotes : (s.receive (.input m)).remotes = s.remotes.insert m.frame m.state := by
        unfold receive
        dsimp only
        split_ifs <;> rfl
      rw [hremotes, OrderedMap.find?_insert]
      split_ifs with heq
      · rw [heq, hstate]
      · exact h k hk (by omega)
    | checksum m => exact ih h ha
    | other => exact ih h ha

end RollbackSession

namespace RollbackPeer

variable {κ β : Type} (env : Env κ β) {c : CorePtr} {σ : Type*} {D : DrivenCore env.core c σ}

/-- What a tick is fed from outside arrives in order. -/
def InOrder (real : ℕ → InputState) (p : RollbackPeer κ β) (a : TickCall) : Prop :=
  ArrivesInOrder real p.session.received a.io.drained

instance (real : ℕ → InputState) (p : RollbackPeer κ β) (a : TickCall) :
    Decidable (InOrder real p a) := decidableArrivesInOrder real _ _

/-- The remote input of frame `k` in the ground truth of a peer: the real one if it has been
received, and otherwise the one on record. -/
def remoteTruth (real : ℕ → InputState) (p : RollbackPeer κ β) (k : ℕ) : InputState :=
  if k < p.session.received then real k else (p.session.used.find? k).getD .neutral

/-- The invariant between two ticks: the core has run every frame below the current one with the
input recorded for it and with remote inputs `U`, which are the real ones wherever those have been
received. -/
structure Reconciled (D : DrivenCore env.core c σ) (s₀ : σ) (real : ℕ → InputState)
    (p : RollbackPeer κ β) : Prop where
  tracks : ∃ U, Tracks env D s₀ p.recorded U p.session.frame p ∧
    ∀ k < p.session.frame, k < p.session.received → U k = real k
  simulated : ∀ k < p.session.frame, (p.recorded? k).isSome
  hasReal : p.session.HasReal real p.session.verified
  stocked : p.session.Stocked
  prediction_pos : 1 ≤ p.session.maxPrediction.toNat
  verified_lt : p.session.verified < p.session.frame ∨ p.session.verified = 0
  verified_le_received : p.session.verified ≤ p.session.received

variable {env} {s₀ : σ} {real : ℕ → InputState} {p : RollbackPeer κ β}

theorem reconciled_begin {isHost : Bool} {agreed : UInt32} {w : World κ β}
    (h : Live env D w s₀) : Reconciled env D s₀ real (begin isHost agreed w) where
  tracks := by
    refine ⟨fun _ => .neutral, ⟨RollbackSession.seated_begin isHost agreed, h, ?_, ?_, ?_, ?_⟩, ?_⟩
    · exact fun k hk => absurd hk (Nat.not_lt_zero k)
    · exact fun k _ hk => absurd hk (Nat.not_lt_zero k)
    · exact fun k _ hk => absurd hk (Nat.not_lt_zero k)
    · exact fun k hk => absurd hk (Nat.not_lt_zero k)
    · exact fun k hk => absurd hk (Nat.not_lt_zero k)
  simulated := fun k hk => absurd hk (Nat.not_lt_zero k)
  hasReal := fun k _ hk => absurd hk (Nat.not_lt_zero k)
  stocked := fun k _ hk => absurd hk (Nat.not_lt_zero k)
  prediction_pos := RollbackSession.begin_maxPrediction_pos isHost agreed
  verified_lt := Or.inr rfl
  verified_le_received := Nat.zero_le _

/-- In a reconciled state the core is in the state of the plain replay, and so is every snapshot. -/
theorem Reconciled.replay_eq (h : Reconciled env D s₀ real p) :
    D.view p.world.core =
        replay D.step s₀ (p.session.fed p.recorded (p.remoteTruth real)) p.session.frame ∧
      ∀ k b, p.session.ring.find? k = some b → k < p.session.frame →
        b = D.enc (replay D.step s₀ (p.session.fed p.recorded (p.remoteTruth real)) k) := by
  obtain ⟨U, htracks, hreal⟩ := h.tracks
  have htruth : ∀ k < p.session.frame, p.remoteTruth real k = U k := by
    intro k hk
    unfold remoteTruth
    split_ifs with hrec
    · exact (hreal k hk hrec).symm
    · have := h.verified_le_received
      rw [htracks.used k (by omega) hk, Option.getD_some]
  have hsame : Tracks env D s₀ p.recorded (p.remoteTruth real) p.session.frame p :=
    htracks.congr_inputs (fun _ _ => rfl) (fun _ _ => rfl) htruth
  exact ⟨hsame.live.view, fun k b hb hk => hsame.ring k hk b hb⟩

/-- The snapshot of the verified frame is there, and no later input can change it. -/
theorem Reconciled.ring_verified (h : Reconciled env D s₀ real p) (hpos : p.session.verified ≠ 0) :
    p.session.ring.find? p.session.verified = some
      (D.enc (replay D.step s₀ (p.session.fed p.recorded real) p.session.verified)) := by
  have hlt : p.session.verified < p.session.frame := h.verified_lt.resolve_right hpos
  obtain ⟨state, hstate⟩ := Option.isSome_iff_exists.mp (h.stocked _ le_rfl hlt)
  obtain ⟨U, htracks, hreal⟩ := h.tracks
  rw [hstate, htracks.ring _ hlt state hstate]
  refine congrArg (some ∘ D.enc) (replay_congr fun k hk => ?_)
  have hle := h.verified_le_received
  -- Every frame below the verified one was run with its real inputs.
  rw [RollbackSession.fed, RollbackSession.fed, hreal k (hk.trans hlt) (by omega)]

theorem finish_recorded (status : RbStatus) (checksumSent : Bool) (p : RollbackPeer κ β) :
    (RollbackPeer.finish status checksumSent p).2.recorded? = p.recorded? := by
  have hfields := finish_session status checksumSent p
  have hran : (RollbackPeer.finish status checksumSent p).2.ran = p.ran :=
    maybeSendChecksum_ran checksumSent p
  funext k
  unfold recorded?
  rw [hran, hfields]
  rfl

/-- The end of a tick keeps a reconciled state. -/
theorem Reconciled.finish (h : Reconciled env D s₀ real p) (status : RbStatus)
    {checksumSent : Bool} :
    Reconciled env D s₀ real (RollbackPeer.finish status checksumSent p).2 := by
  have hfields := finish_session status checksumSent p
  obtain ⟨U, htracks, hreal⟩ := h.tracks
  refine ⟨⟨U, ?_, ?_⟩, ?_, ?_, ?_, ?_, ?_, ?_⟩
  · rw [recorded_congr (finish_recorded status checksumSent p), hfields]
    exact htracks.finish status
  · rw [hfields]
    exact hreal
  · rw [finish_recorded, hfields]
    exact h.simulated
  · rw [hfields]
    intro k hk hlt
    change (p.session.remotes.eraseBelow p.session.floor).find? k = some (real k)
    -- Pruning erases nothing from the verified frame on.
    rw [OrderedMap.find?_eraseBelow_of_le _ (p.session.floor_le.trans hk)]
    exact h.hasReal k hk hlt
  · rw [hfields]
    exact h.stocked.prune
  · rw [hfields]
    exact h.prediction_pos
  · rw [hfields]
    exact h.verified_lt
  · rw [hfields]
    exact h.verified_le_received

/-- Every checksum sent is of a state all of whose inputs had been received, the replay with the
real inputs on both ports. -/
def SentTrue (D : DrivenCore env.core c σ) (s₀ : σ) (real : ℕ → InputState)
    (p : RollbackPeer κ β) : Prop :=
  ∀ m : Checksum, .checksum m ∈ p.sent →
    m.frame ≤ p.session.frame ∧ m.frame ≤ p.session.received ∧
    m.crc = crc32 (D.enc (replay D.step s₀ (p.session.fed p.recorded real) m.frame))

/-- The checksum at the end of a tick is of a state that no later input can change. -/
theorem Reconciled.sentTrue_finish (h : Reconciled env D s₀ real p) (hsent : SentTrue D s₀ real p)
    (status : RbStatus) {checksumSent : Bool} :
    SentTrue D s₀ real (RollbackPeer.finish status checksumSent p).2 := by
  intro m hm
  rw [recorded_congr (finish_recorded status checksumSent p), finish_session]
  change m.frame ≤ p.session.frame ∧ m.frame ≤ p.session.received ∧
    m.crc = crc32 (D.enc (replay D.step s₀ (p.session.fed p.recorded real) m.frame))
  change Message.checksum m ∈ (maybeSendChecksum checksumSent p).sent at hm
  rcases maybeSendChecksum_cases checksumSent p with ⟨heq, -⟩ | ⟨state, hpos, -, hstate, heq⟩
  · rw [heq] at hm
    exact hsent m hm
  · rw [heq] at hm
    have happended : Message.checksum m ∈ p.sent ++
        [.checksum { frame := p.session.verified, crc := crc32 state }] := by
      cases checksumSent with
      | false => exact List.mem_append_left _ hm
      | true => exact hm
    rcases List.mem_append.mp happended with hold | hnew
    · exact hsent m hold
    · obtain rfl : m = { frame := p.session.verified, crc := crc32 state } := by simpa using hnew
      -- The new checksum is of the verified state, which the ring still holds.
      have hlt : p.session.verified < p.session.frame := h.verified_lt.resolve_right hpos
      refine ⟨hlt.le, h.verified_le_received, ?_⟩
      have hring := h.ring_verified hpos
      rw [hstate] at hring
      exact congrArg crc32 (Option.some.inj hring)

/-- A peer in the middle of a tick, once it has reconciled: the frames verified by now were run
with their real inputs, and the local input of the next frame is on record. -/
structure Verified (D : DrivenCore env.core c σ) (s₀ : σ) (real : ℕ → InputState)
    (localNow : InputState) (p : RollbackPeer κ β) : Prop where
  tracks : ∃ U, Tracks env D s₀ p.recorded U p.session.frame p ∧
    ∀ k < p.session.verified, U k = real k
  simulated : ∀ k < p.session.frame, (p.recorded? k).isSome
  hasReal : p.session.HasReal real p.session.verified
  stocked : p.session.Stocked
  prediction_pos : 1 ≤ p.session.maxPrediction.toNat
  local_next : p.session.locals.find? p.session.frame = some localNow
  verified_le : p.session.verified ≤ p.session.frame
  verified_le_received : p.session.verified ≤ p.session.received
  reached : min p.session.received p.session.frame ≤ p.session.verified

/-- Draining in order and reconciling verifies the frames whose real inputs have arrived. -/
theorem Reconciled.reconcile (h : Reconciled env D s₀ real p) {a : TickCall}
    (horder : InOrder real p a) :
    ∃ q, RollbackPeer.reconcile env (afterDrain a p) = (true, q) ∧
      Verified D s₀ real a.localNow q ∧ q.session.frame = p.session.frame ∧
      p.session.received ≤ q.session.received ∧ q.sent = (afterDrain a p).sent ∧
        q.recorded? = p.recorded? ∧
      q.session.fed = p.session.fed := by
  obtain ⟨hframe, hver, hmax, hring, -, hrec⟩ := afterDrain_fields a p
  have hoff := (sendInput a.localNow true p).session.drain_offline a.io.drained
  have hfed : (afterDrain a p).session.fed = p.session.fed := (congrArg RollbackSession.fed hoff :)
  have hlocals : (afterDrain a p).session.locals =
      p.session.locals.insert p.session.frame a.localNow := (congrArg RollbackSession.locals hoff :)
  have hrecorded : (afterDrain a p).recorded? = p.recorded? := by
    have hof : (afterDrain a p).session.localOf (κ := κ) = p.session.localOf :=
      (congrArg RollbackSession.localOf hoff :)
    funext k
    unfold recorded?
    rw [hof]
    rfl
  -- Draining in order adds real inputs only, and leaves the ring alone.
  have hreal : (afterDrain a p).session.HasReal real p.session.verified :=
    RollbackSession.HasReal.drain (s := (sendInput a.localNow true p).session) h.hasReal horder
  have hstock : (afterDrain a p).session.Stocked := by
    intro k hk hkf
    rw [hring]
    exact h.stocked k (hver.symm.trans_le hk) (hkf.trans_eq hframe)
  obtain ⟨U, htracks, hU⟩ := h.tracks
  have hdrained : Tracks env D s₀ p.recorded U (afterDrain a p).session.frame (afterDrain a p) := by
    rw [hframe]
    exact (htracks.sendInput a.localNow true).drain a.io.drained
  -- `Tracks.reconcile` rolls back; below, the counters of `q` are read off.
  obtain ⟨q, U', hq, htracks', hlocals', hrec', hold, hnew⟩ := hdrained.reconcile hstock
  obtain ⟨hframe', hmax', hrec'', hver'⟩ := reconcile_counters env (afterDrain a p)
  obtain ⟨hsent, hout⟩ := reconcile_outline env (afterDrain a p)
  have hgrows := reconcile_grows env (afterDrain a p)
  rw [hq] at hframe' hmax' hrec'' hver' hsent hout hgrows
  dsimp only at hframe' hmax' hrec'' hver' hsent hout hgrows
  rw [if_pos rfl] at hver'
  have hremotes : q.session.remotes = (afterDrain a p).session.remotes :=
    (congrArg RollbackSession.remotes hout :)
  have hfed' : q.session.fed = (afterDrain a p).session.fed :=
    (congrArg RollbackSession.fed hout :)
  have htarget : q.session.verified = max p.session.verified
      (min (afterDrain a p).session.received p.session.frame) := by
    rw [hver', RollbackSession.target, hver, hframe]
  have hlt := h.verified_lt
  have hle := h.verified_le_received
  have hqrec : q.recorded? = p.recorded? := funext fun k => by rw [hrec', hrecorded]
  refine ⟨q, hq, ⟨⟨U', ?_, ?_⟩, ?_, ?_, ?_, ?_, ?_, ?_, ?_, ?_⟩, hframe'.trans hframe,
    hrec.trans_eq hrec''.symm, hsent, hqrec, hfed'.trans hfed⟩
  · rw [recorded_congr hqrec, hframe']
    exact htracks'
  · intro k hk
    -- A frame verified before keeps its input, one verified now got its real one.
    rcases Nat.lt_or_ge k p.session.verified with hkv | hkv
    · rw [hold k (hkv.trans_eq hver.symm)]
      exact hU k (by omega) (by omega)
    · exact hnew k (real k) (hver.trans_le hkv) (hk.trans_eq hver') (hreal k hkv (by omega))
  · rw [hqrec, hframe', hframe]
    exact h.simulated
  · intro k hk hkr
    rw [hremotes]
    exact hreal k (by omega) (hkr.trans_eq hrec'')
  · intro k hk hkf
    exact hgrows k (hstock k (by omega) (hkf.trans_eq hframe'))
  · rw [hmax', hmax]
    exact h.prediction_pos
  · rw [hlocals', hlocals, hframe', hframe]
    exact OrderedMap.find?_insert_self _ _ _
  · omega
  · omega
  · omega

/-- The rest of the tick after the reconcile ends in a reconciled state. -/
theorem Verified.stallOrRun {localNow : InputState} (h : Verified D s₀ real localNow p)
    (wantPixels checksumSent : Bool) (hsent : SentTrue D s₀ real p) :
    ∃ status q, RollbackPeer.stallOrRun env localNow wantPixels checksumSent p = (status, q) ∧
      (status = .ok ∨ status = .stalled) ∧ Reconciled env D s₀ real q ∧ SentTrue D s₀ real q ∧
      ∀ k < q.session.frame,
        q.recorded k = if p.session.frame = k then localNow else p.recorded k := by
  have hfinish : ∀ status (q : RollbackPeer κ β),
      (RollbackPeer.finish status checksumSent q).2.session.frame = q.session.frame ∧
        (RollbackPeer.finish status checksumSent q).2.recorded = q.recorded :=
    fun status q =>
      ⟨by rw [finish_session]; rfl, recorded_congr (finish_recorded status checksumSent q)⟩
  have hver := h.verified_le
  have hle := h.verified_le_received
  have hreached := h.reached
  have hpos := h.prediction_pos
  obtain ⟨U, htracks, hreal⟩ := h.tracks
  rcases htracks.stallOrRun h.local_next wantPixels checksumSent with
    ⟨hahead, w, heq, hq⟩ | ⟨hahead, q, heq, hout, hsame, hstock, hrec, hq⟩
  · -- A stalled tick has received fewer frames than it has simulated.
    have hbehind : p.session.received < p.session.frame := by
      rw [p.session.ahead_eq] at hahead
      split_ifs at hahead <;> omega
    have hpre : Reconciled env D s₀ real { p with world := w } :=
      { tracks := ⟨U, hq, fun k hk hkr => hreal k (by change k < p.session.received at hkr; omega)⟩
        simulated := h.simulated
        hasReal := h.hasReal
        stocked := h.stocked
        prediction_pos := hpos
        verified_lt := Or.inl (by change p.session.verified < p.session.frame; omega)
        verified_le_received := hle }
    refine ⟨.stalled, (RollbackPeer.finish .stalled checksumSent _).2, heq, Or.inr rfl,
      hpre.finish .stalled, hpre.sentTrue_finish hsent .stalled, fun k hk => ?_⟩
    rw [(hfinish _ _).1] at hk
    rw [(hfinish _ _).2, if_neg hk.ne']
    rfl
  · -- A tick that runs its frame feeds it the local input on record.
    have hframe : q.session.frame = p.session.frame + 1 := (congrArg RollbackSession.frame hout :)
    have hmax : q.session.maxPrediction = p.session.maxPrediction :=
      (congrArg RollbackSession.maxPrediction hout :)
    have hver' : q.session.verified = p.session.verified :=
      (congrArg RollbackSession.verified hout :)
    have hrec' : q.session.received = p.session.received :=
      (congrArg RollbackSession.received hout :)
    have hremotes : q.session.remotes = p.session.remotes :=
      (congrArg RollbackSession.remotes hout :)
    have hfed : q.session.fed = p.session.fed := (congrArg RollbackSession.fed hout :)
    have hqrec : q.recorded = fun k => if p.session.frame = k then localNow else p.recorded k := by
      funext k
      rw [recorded, hrec]
      split_ifs <;> rfl
    have hpre : Reconciled env D s₀ real q := by
      refine ⟨⟨_, by rw [hqrec, hframe]; exact hq, ?_⟩, ?_, ?_, hstock h.stocked, hmax ▸ hpos,
        Or.inl (by omega), by omega⟩
      · intro k hk hkr
        split_ifs with heqk
        · rw [RollbackSession.remoteInput, ← heqk, h.hasReal _ hver (by omega), Option.getD_some]
        · exact hreal k (by omega)
      · intro k hk
        rw [hrec]
        split_ifs
        · rfl
        · exact h.simulated k (by omega)
      · intro k hk hkr
        rw [hremotes]
        exact h.hasReal k (by omega) (by omega)
    -- The frames of an old checksum are all below the new one.
    have hpreSent : SentTrue D s₀ real q := by
      intro m hm
      rw [hsame] at hm
      obtain ⟨hmle, hmrec, hcrc⟩ := hsent m hm
      refine ⟨by omega, by omega, hcrc.trans (congrArg crc32 (congrArg D.enc
        (replay_congr fun k hk => ?_)))⟩
      rw [hfed, hqrec, RollbackSession.fed, RollbackSession.fed, if_neg (by omega)]
    refine ⟨.ok, (RollbackPeer.finish .ok checksumSent q).2, heq, Or.inl rfl, hpre.finish .ok,
      hpre.sentTrue_finish hpreSent .ok, fun k _ => ?_⟩
    rw [(hfinish _ _).2, hqrec]

theorem Cut.sentTrue {q : RollbackPeer κ β} (h : Cut p q) (hsent : SentTrue D s₀ real p) :
    SentTrue D s₀ real q := by
  have hof : q.session.localOf (κ := κ) = p.session.localOf :=
    (congrArg RollbackSession.localOf h.fields :)
  have hfed : q.session.fed = p.session.fed := (congrArg RollbackSession.fed h.fields :)
  have hrec : q.recorded = p.recorded := recorded_congr <| by
    funext k
    unfold recorded?
    rw [hof, h.ran]
  intro m hm
  obtain ⟨hle, hreceived, hcrc⟩ := hsent m ((h.sent m).mp hm)
  exact ⟨hle.trans_eq h.counters.1.symm, hreceived.trans h.received, by rw [hcrc, hfed, hrec]⟩

/-- A tick that gets past its drain returns `Ok` or `Stalled` in a reconciled state. -/
theorem Reconciled.tickCall {a : TickCall} (h : Reconciled env D s₀ real p)
    (hsent : SentTrue D s₀ real p) (hdrains : Drains p a) (horder : InOrder real p a) :
    ((tickCall env a p).1 = .ok ∨ (tickCall env a p).1 = .stalled) ∧
      Reconciled env D s₀ real (tickCall env a p).2 ∧
      SentTrue D s₀ real (tickCall env a p).2 ∧
      ∀ k < (tickCall env a p).2.session.frame, (tickCall env a p).2.recorded k =
        if p.session.frame = k then a.localNow else p.recorded k := by
  obtain ⟨q, hq, hverified, hframe, hgrows, hqsent, hrec, hfed⟩ := h.reconcile horder
  -- Reconciling sends nothing; the replay it compares with is the same.
  have hsent' : SentTrue D s₀ real q := by
    intro m hm
    rw [hqsent] at hm
    have hold : Message.checksum m ∈ p.sent := by simpa [afterDrain, sendInput] using hm
    obtain ⟨hle, hreceived, hcrc⟩ := hsent m hold
    rw [hframe, hfed, recorded_congr hrec]
    exact ⟨hle, hreceived.trans hgrows, hcrc⟩
  obtain ⟨status, q', heq, hstatus, hq', hsent'', hrec'⟩ :=
    hverified.stallOrRun a.wantPixels a.io.checksumSent hsent'
  rw [hframe, recorded_congr hrec] at hrec'
  rw [tickCall_of_drains env hdrains, hq]
  dsimp only
  rw [if_pos rfl, heq]
  exact ⟨hstatus, hq', hsent'', hrec'⟩

/-- Along a run a session is reconciled until it is disconnected, and its checksums are true. -/
theorem run_reconciled {isHost : Bool} {agreed : UInt32} {w : World κ β} (hlive : Live env D w s₀)
    {as : List TickCall}
    (hrun : (tickMachine env).Run (InOrder real) (begin isHost agreed w) as p) :
    (p.session.status = .disconnected ∨ Reconciled env D s₀ real p) ∧ SentTrue D s₀ real p := by
  refine hrun.invariant (I := fun p => (p.session.status = .disconnected ∨
    Reconciled env D s₀ real p) ∧ SentTrue D s₀ real p) ?_ ?_
  · exact ⟨Or.inr (reconciled_begin hlive), fun m hm => by simp [begin] at hm⟩
  · -- A tick that cannot drain disconnects, and the session stays so.
    rintro p a q ⟨hp, hsent⟩ horder hstep
    obtain rfl : (tickCall env a p).2 = q := Option.some.inj hstep
    by_cases hdrains : Drains p a
    · obtain ⟨-, hq, hsent', -⟩ :=
        (hp.resolve_left hdrains.1).tickCall hsent hdrains horder
      exact ⟨Or.inr hq, hsent'⟩
    · obtain ⟨-, hcut⟩ := cut_of_not_drains env hdrains
      exact ⟨Or.inl hcut.status, hcut.sentTrue hsent⟩

/-- After every tick that returns `Ok` or `Stalled`, the core is in the state of the plain replay
of the frames simulated so far, with the local input each was first simulated with and, as remote
input, the real one if it has been received and the one on record otherwise; and every snapshot is
of that replay. Once all remote inputs have arrived, this is the replay with the real inputs. -/
theorem tick_equals_replay {isHost : Bool} {agreed : UInt32} {w : World κ β}
    (hlive : Live env D w s₀) {as : List TickCall}
    (hrun : (tickMachine env).Run (InOrder real) (begin isHost agreed w) as p) {a : TickCall}
    (horder : InOrder real p a) {q : RollbackPeer κ β} (hq : (tickCall env a p).2 = q)
    (hstatus : (tickCall env a p).1 = .ok ∨ (tickCall env a p).1 = .stalled) :
    D.view q.world.core =
        replay D.step s₀ (q.session.fed q.recorded (q.remoteTruth real)) q.session.frame ∧
      (∀ k b, q.session.ring.find? k = some b → k < q.session.frame →
        b = D.enc (replay D.step s₀ (q.session.fed q.recorded (q.remoteTruth real)) k)) ∧
      (∀ k < q.session.frame, (q.recorded? k).isSome) ∧
      (∀ k, q.session.received ≤ k → k < q.session.frame → (q.session.used.find? k).isSome) ∧
      (q.session.frame ≤ q.session.received →
        D.view q.world.core =
          replay D.step s₀ (q.session.fed q.recorded real) q.session.frame) := by
  -- A tick that is cut short returns neither.
  have hdrains : Drains p a := by
    by_contra hnot
    obtain ⟨hret, -⟩ := cut_of_not_drains env hnot
    simp [hret] at hstatus
  obtain ⟨hp, hsent⟩ := run_reconciled hlive hrun
  obtain ⟨-, hrec, -⟩ := (hp.resolve_left hdrains.1).tickCall hsent hdrains horder
  rw [hq] at hrec
  obtain ⟨hview, hring⟩ := hrec.replay_eq
  refine ⟨hview, hring, hrec.simulated, ?_, ?_⟩
  · intro k hk hkf
    obtain ⟨U, htracks, -⟩ := hrec.tracks
    rw [htracks.used k (hrec.verified_le_received.trans hk) hkf]
    rfl
  · intro hall
    -- With all inputs at hand the truth is the real input of each frame.
    rw [hview]
    refine replay_congr fun k hk => ?_
    rw [RollbackSession.fed, RollbackSession.fed, remoteTruth, if_pos (hk.trans_le hall)]

/-- The peer of a joining session holds `X` from the first frame on. The session predicts a
released key, rolls back in its second tick, and ends up in the state of the replay with `X`. -/
theorem tick_equals_replay_mispredicted :
    let p := runTicks RefCoreRollback.env [.delivering .neutral []]
      (begin false 8 RefCoreRollback.loaded)
    let q := (tickCall RefCoreRollback.env
      (.delivering .neutral [.input ⟨0, 0, RefCoreRollback.pressX⟩]) p).2
    q.session.rollbackCount = 1 ∧ q.world.core.acc = 4 ∧
      (RefCoreRollback.driven 1).view q.world.core = replay (RefCoreRollback.driven 1).step 0
        (q.session.fed q.recorded (q.remoteTruth fun _ => RefCoreRollback.pressX))
        q.session.frame := by
  intro p q
  have hrun : (tickMachine RefCoreRollback.env).Run (InOrder fun _ => RefCoreRollback.pressX)
      (begin false 8 RefCoreRollback.loaded) [.delivering .neutral []] p :=
    .cons trivial rfl (.nil _)
  have horder : InOrder (fun _ => RefCoreRollback.pressX) p
      (.delivering .neutral [.input ⟨0, 0, RefCoreRollback.pressX⟩]) :=
    ⟨Nat.zero_le _, rfl, trivial⟩
  refine ⟨by decide +kernel, by decide +kernel, ?_⟩
  exact (tick_equals_replay RefCoreRollback.loaded_live hrun horder rfl
    (Or.inl (by decide +kernel))).1

end RollbackPeer

end RetroPark.Net
