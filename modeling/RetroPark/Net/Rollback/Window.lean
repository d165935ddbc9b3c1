import RetroPark.Net.Rollback.Run
import RetroPark.Cores.RefCoreRollback

/-!
# The prediction window

How far a session simulates ahead of the remote inputs it has received, and how large its snapshot
ring gets. Nothing is assumed of the runtime, the core or the messages.

* `RingWithin lo hi m` says that the snapshots of `m` are of frames in `[lo, hi]`; the helpers of
  a tick write snapshots of the current frames only;
* `Windowed s` is the invariant: the simulated frames exceed the received inputs, and the verified
  frame, by at most the prediction window;
* the stall guard is off until the first remote input arrives, so the invariant is kept by the
  ticks that satisfy `HearsInTime`, and `runs_past_window` is a run in which no input arrives and
  the bound fails.
-/

namespace RetroPark.Net

/-- The snapshots of `m` are of frames in `[lo, hi]`. -/
def RingWithin (lo hi : ℕ) (m : OrderedMap ℕ Blob) : Prop :=
  ∀ k b, m.find? k = some b → lo ≤ k ∧ k ≤ hi

theorem RingWithin.insert {lo hi f : ℕ} {m : OrderedMap ℕ Blob} (h : RingWithin lo hi m)
    (hlo : lo ≤ f) (hhi : f ≤ hi) (b : Blob) : RingWithin lo hi (m.insert f b) := by
  intro k b' hk
  rw [OrderedMap.find?_insert] at hk
  split_ifs at hk with heq
  · exact heq ▸ ⟨hlo, hhi⟩
  · exact h k b' hk

theorem RingWithin.index {lo hi f : ℕ} {m : OrderedMap ℕ Blob} (h : RingWithin lo hi m)
    (hlo : lo ≤ f) (hhi : f ≤ hi) (b : Blob) : RingWithin lo hi (m.index f b).2 := by
  unfold OrderedMap.index
  cases m.find? f with
  | none => exact h.insert hlo hhi b
  | some v => exact h

theorem RingWithin.mono {lo hi lo' hi' : ℕ} {m : OrderedMap ℕ Blob} (h : RingWithin lo hi m)
    (hlo : lo' ≤ lo) (hhi : hi ≤ hi') : RingWithin lo' hi' m :=
  fun k b hk => ⟨hlo.trans (h k b hk).1, (h k b hk).2.trans hhi⟩

theorem RingWithin.eraseBelow {lo hi : ℕ} {m : OrderedMap ℕ Blob} (h : RingWithin lo hi m)
    (floor : ℕ) : RingWithin floor hi (m.eraseBelow floor) := by
  intro k b hk
  obtain ⟨hfloor, hold⟩ := OrderedMap.find?_of_find?_eraseBelow hk
  exact ⟨hfloor, (h k b hold).2⟩

namespace RollbackPeer

variable {κ β : Type} (env : Env κ β) {lo hi : ℕ}

theorem saveRing_within {f : ℕ} {p : RollbackPeer κ β} (h : RingWithin lo hi p.session.ring)
    (hlo : lo ≤ f) (hhi : f ≤ hi) : RingWithin lo hi (saveRing env f p).session.ring := by
  unfold saveRing
  dsimp only
  split_ifs
  · exact h.insert hlo hhi _
  · exact h.insert hlo hhi _
  · exact h

theorem resimulate_within {n f : ℕ} {p : RollbackPeer κ β} (h : RingWithin lo hi p.session.ring)
    (hlo : lo ≤ f) (hhi : f + n ≤ hi) :
    RingWithin lo hi (resimulate env n f p).2.session.ring := by
  induction n generalizing f p with
  | zero => exact h
  | succ n ih =>
    rw [resimulate]
    dsimp only
    split_ifs
    · exact h
    · exact ih (saveRing_within env h (by omega) (by omega)) (by omega) (by omega)

theorem rollBack_within {g : ℕ} {p : RollbackPeer κ β} (h : RingWithin lo hi p.session.ring)
    (hlo : lo ≤ g) (hg : g ≤ p.session.frame) (hhi : p.session.frame ≤ hi) :
    RingWithin lo hi (rollBack env g p).2.session.ring := by
  have hindex := h.index hlo (hg.trans hhi) []
  unfold rollBack
  dsimp only
  split_ifs
  · exact hindex
  · exact resimulate_within env hindex hlo (by omega)
  · exact resimulate_within env hindex hlo (by omega)

theorem reconcile_within {p : RollbackPeer κ β} (h : RingWithin lo hi p.session.ring)
    (hlo : lo ≤ p.session.verified) (hhi : p.session.frame ≤ hi) :
    RingWithin lo hi (reconcile env p).2.session.ring := by
  rcases reconcile_cases env p with ⟨-, heq⟩ | ⟨-, -, -, heq⟩ | ⟨g, hver, hg, htarget, -, heq⟩
  · exact heq ▸ h
  · exact heq ▸ h
  · have hroll := rollBack_within env h (hlo.trans hver) (by omega) hhi
    rw [heq]
    split_ifs <;> exact hroll

end RollbackPeer

/-- The invariant of the prediction window: the frame is within the window of the received inputs
and of the verified frame, and the snapshots reach from a window below some earlier verified frame
`v` to the current frame. -/
structure Windowed (s : RollbackSession) : Prop where
  prediction_pos : 1 ≤ s.maxPrediction.toNat
  verified_le : s.verified ≤ s.frame
  frame_le_received : s.frame ≤ s.received + s.maxPrediction.toNat
  frame_le_verified : s.frame ≤ s.verified + s.maxPrediction.toNat
  ring : ∃ v ≤ s.verified, s.frame ≤ v + s.maxPrediction.toNat ∧
    RingWithin (v - s.slack) s.frame s.ring

theorem Windowed.ring_length_le {s : RollbackSession} (h : Windowed s) :
    s.ring.entries.length ≤ s.maxPrediction.toNat + s.slack + 1 := by
  obtain ⟨v, -, hframe, hring⟩ := h.ring
  have hlen : s.ring.entries.length ≤ s.frame + 1 - (v - s.slack) :=
    OrderedMap.length_le_of_mem_Ico fun k b hk => by
      obtain ⟨hlo, hhi⟩ := hring k b hk
      omega
  omega

theorem windowed_begin (isHost : Bool) (agreed : UInt32) :
    Windowed (RollbackSession.begin isHost agreed) where
  prediction_pos := RollbackSession.begin_maxPrediction_pos isHost agreed
  verified_le := le_rfl
  frame_le_received := Nat.zero_le _
  frame_le_verified := Nat.zero_le _
  ring := ⟨0, le_rfl, Nat.zero_le _, fun k b hk => by
    change (OrderedMap.empty : OrderedMap ℕ Blob).find? k = some b at hk
    simp at hk⟩

/-- The window may be kept while `verified_` and the received inputs grow. -/
theorem Windowed.advance {s t : RollbackSession} (h : Windowed s) (hframe : t.frame = s.frame)
    (hmax : t.maxPrediction = s.maxPrediction) (hreceived : s.received ≤ t.received)
    (hver : s.verified ≤ t.verified) (hle : t.verified ≤ t.frame)
    (hring : ∀ lo, lo ≤ s.verified → RingWithin lo s.frame s.ring → RingWithin lo t.frame t.ring) :
    Windowed t := by
  have hslack : t.slack = s.slack := by rw [RollbackSession.slack, hmax, RollbackSession.slack]
  obtain ⟨v, hv, hvframe, hwithin⟩ := h.ring
  refine ⟨hmax ▸ h.prediction_pos, hle, ?_, ?_, v, hv.trans hver, ?_, ?_⟩
  · rw [hframe, hmax]
    exact h.frame_le_received.trans (by omega)
  · rw [hframe, hmax]
    exact h.frame_le_verified.trans (by omega)
  · rw [hframe, hmax]
    exact hvframe
  · rw [hslack]
    exact hring _ (by omega) hwithin

namespace RollbackPeer

variable {κ β : Type} (env : Env κ β)

/-- A tick that begins with the prediction window full has received some remote input by the end
of its drain. -/
def HearsInTime (p : RollbackPeer κ β) (a : TickCall) : Prop :=
  Drains p a → p.session.maxPrediction.toNat ≤ p.session.frame →
    0 < (afterDrain a p).session.received

/-- The end of a tick keeps the window, whatever the frame it ends on. -/
theorem finish_windowed {p : RollbackPeer κ β} {frame window received verified : ℕ}
    (status : RbStatus) {checksumSent : Bool} (hframe : p.session.frame = frame)
    (hmax : p.session.maxPrediction.toNat = window) (hreceived : p.session.received = received)
    (hverified : p.session.verified = verified) (hpos : 1 ≤ window) (hle : verified ≤ frame)
    (hrec : frame ≤ received + window) (hver : frame ≤ verified + window)
    (hring : RingWithin 0 frame p.session.ring) :
    Windowed (finish status checksumSent p).2.session := by
  subst hframe hmax hreceived hverified
  have hfloor : p.session.floor = p.session.verified - p.session.slack := by
    unfold RollbackSession.floor
    split_ifs <;> omega
  rw [finish_session]
  exact
    { prediction_pos := hpos
      verified_le := hle
      frame_le_received := hrec
      frame_le_verified := hver
      ring := ⟨p.session.verified, le_rfl, hver, hfloor ▸ hring.eraseBelow p.session.floor⟩ }

/-- A frame that could not be run keeps the window: nothing is pruned and the counter stays. -/
theorem leave_windowed {p q : RollbackPeer κ β} (status : RbStatus) (h : Windowed p.session)
    (hsame : SameOutline p q)
    (hring : ∀ lo, lo ≤ p.session.verified → RingWithin lo p.session.frame p.session.ring →
      RingWithin lo p.session.frame q.session.ring) :
    Windowed (leave status q).2.session := by
  obtain ⟨hframe, hmax, hrec, hver⟩ := RollbackSession.counters_of_outline hsame.outline
  refine h.advance hframe hmax hrec.ge hver.ge ?_ ?_
  · exact hver.trans_le (h.verified_le.trans_eq hframe.symm)
  · intro lo hlo hw
    exact (hring lo hlo hw).mono le_rfl hframe.ge

/-- A simulated frame keeps the window if there was room for it. -/
theorem finish_succ_windowed {p q : RollbackPeer κ β} {checksumSent : Bool} (w : World κ β)
    (h : Windowed p.session)
    (hreached : min p.session.received p.session.frame ≤ p.session.verified)
    (hroom : p.session.frame + 1 ≤ p.session.received + p.session.maxPrediction.toNat)
    (hsame : SameOutline p q) (hring : RingWithin 0 p.session.frame q.session.ring) :
    Windowed (finish .ok checksumSent
      { q with world := w, session.frame := p.session.frame + 1 }).2.session := by
  obtain ⟨-, hmax, hrec, hver⟩ := RollbackSession.counters_of_outline hsame.outline
  have hpos := h.prediction_pos
  have hle := h.verified_le
  have hbehind : p.session.frame + 1 ≤ p.session.verified + p.session.maxPrediction.toNat := by
    omega
  exact finish_windowed .ok rfl (congrArg UInt32.toNat hmax) hrec hver hpos
    (hle.trans (Nat.le_succ _)) hroom hbehind (hring.mono le_rfl (Nat.le_succ _))

/-- Stalling or simulating one more frame keeps the window, provided the stall guard is on. -/
theorem stallOrRun_windowed {p : RollbackPeer κ β} (localNow : InputState)
    (wantPixels checksumSent : Bool) (h : Windowed p.session)
    (hreached : min p.session.received p.session.frame ≤ p.session.verified)
    (hon : p.session.maxPrediction.toNat ≤ p.session.frame → 0 < p.session.received) :
    Windowed (stallOrRun env localNow wantPixels checksumSent p).2.session := by
  have hring : RingWithin 0 p.session.frame p.session.ring := by
    obtain ⟨v, -, -, hwithin⟩ := h.ring
    exact hwithin.mono (Nat.zero_le _) le_rfl
  have hsame := (saveRing_sameOutline env p.session.frame p).trans
    (runFrame_sameOutline env p.session.frame localNow true _)
  unfold stallOrRun
  dsimp only
  split_ifs with hstall hfail
  · exact finish_windowed .stalled rfl rfl rfl rfl h.prediction_pos h.verified_le
      h.frame_le_received h.frame_le_verified hring
  · exact leave_windowed .desync h hsame fun lo hlo hw =>
      saveRing_within env hw (hlo.trans h.verified_le) le_rfl
  · -- The stall guard let the frame through, so it is inside the window.
    have hroom : p.session.frame + 1 ≤ p.session.received + p.session.maxPrediction.toNat := by
      rw [p.session.ahead_eq] at hstall
      split_ifs at hstall with h0
      · by_contra hfull
        exact absurd (hon (by omega)) (by omega)
      · omega
    exact finish_succ_windowed _ h hreached hroom hsame
      (saveRing_within env hring (Nat.zero_le _) le_rfl)

/-- One tick keeps the window, provided it hears from the peer in time. -/
theorem tickCall_windowed {p : RollbackPeer κ β} {a : TickCall} (h : Windowed p.session)
    (hears : HearsInTime p a) : Windowed (tickCall env a p).2.session := by
  by_cases hdrains : Drains p a
  · rw [tickCall_of_drains env hdrains]
    obtain ⟨hframe, hver, hmax, hring, -, hrec⟩ := afterDrain_fields a p
    obtain ⟨hframe', hmax', hrec', hver'⟩ := reconcile_counters env (afterDrain a p)
    have hdrained : Windowed (afterDrain a p).session := by
      refine h.advance hframe hmax hrec hver.ge ?_ ?_
      · rw [hframe, hver]
        exact h.verified_le
      · intro lo _ hw
        rw [hframe, hring]
        exact hw
    have htarget : (afterDrain a p).session.target ≤ (afterDrain a p).session.frame :=
      max_le hdrained.verified_le (min_le_right _ _)
    have hreconciled : Windowed (reconcile env (afterDrain a p)).2.session := by
      refine hdrained.advance hframe' hmax' hrec'.ge ?_ ?_ ?_
      · rw [hver']
        split_ifs
        · exact le_max_left _ _
        · exact le_rfl
      · rw [hver', hframe']
        split_ifs
        · exact htarget
        · exact hdrained.verified_le
      · intro lo hlo hw
        rw [hframe']
        exact reconcile_within env hw hlo le_rfl
    split_ifs with hok
    · refine stallOrRun_windowed env a.localNow a.wantPixels a.io.checksumSent hreconciled ?_ ?_
      · rw [hrec', hframe', hver', if_pos hok]
        exact le_max_right _ _
      · rw [hmax', hframe', hrec', hmax, hframe]
        exact hears hdrains
    · exact hreconciled
  · -- A tick that ends before its reconcile step only adds to what has been received.
    obtain ⟨-, hcut⟩ := cut_of_not_drains env hdrains
    obtain ⟨hframe, hmax, hver⟩ := hcut.counters
    refine h.advance hframe hmax hcut.received hver.ge
      (hver.trans_le (h.verified_le.trans hframe.ge)) ?_
    intro lo _ hw
    rw [hcut.ring]
    exact hw.mono le_rfl hframe.ge

/-- In every run whose ticks hear from the peer in time, the frame is at most the prediction window
ahead of the received inputs, and the number of snapshots is bounded. -/
theorem frame_le_received_add_maxPrediction {isHost : Bool} {agreed : UInt32} {w : World κ β}
    {as : List TickCall} {p : RollbackPeer κ β}
    (hrun : (tickMachine env).Run HearsInTime (begin isHost agreed w) as p) :
    p.session.frame ≤ p.session.received + p.session.maxPrediction.toNat ∧
      p.session.ring.entries.length ≤ p.session.maxPrediction.toNat + p.session.slack + 1 := by
  have h : Windowed p.session := by
    refine hrun.invariant (I := fun p => Windowed p.session) (windowed_begin isHost agreed) ?_
    intro p a q hp hears hstep
    obtain rfl : (tickCall env a p).2 = q := Option.some.inj hstep
    exact tickCall_windowed env hp hears
  exact ⟨h.frame_le_received, h.ring_length_le⟩

instance (p : RollbackPeer κ β) (a : TickCall) : Decidable (HearsInTime p a) :=
  inferInstanceAs (Decidable (_ → _ → _))

/-- With a window of one frame, a session that hears the peer's first input in its second tick. -/
theorem frame_le_received_add_maxPrediction_two_ticks :
    let p := runTicks RefCoreRollback.env
      [.delivering .neutral [], .delivering .neutral [.input ⟨0, 1, .neutral⟩]]
      (begin true 1 RefCoreRollback.loaded)
    p.session.frame ≤ p.session.received + p.session.maxPrediction.toNat ∧
      p.session.ring.entries.length ≤ p.session.maxPrediction.toNat + p.session.slack + 1 :=
  frame_le_received_add_maxPrediction RefCoreRollback.env
    (.cons (by decide +kernel) rfl (.cons (by decide +kernel) rfl (.nil _)))

/-- With a window of one frame and no message from the peer, two ticks simulate two frames. -/
theorem runs_past_window :
    ∃ as p, (tickMachine RefCoreRollback.env).Run Machine.always
        (begin true 1 RefCoreRollback.loaded) as p ∧
      p.session.maxPrediction = 1 ∧
      p.session.received + p.session.maxPrediction.toNat < p.session.frame :=
  ⟨[.delivering .neutral [], .delivering .neutral []], _,
    .cons trivial rfl (.cons trivial rfl (.nil _)), by decide +kernel, by decide +kernel⟩

end RollbackPeer

end RetroPark.Net
