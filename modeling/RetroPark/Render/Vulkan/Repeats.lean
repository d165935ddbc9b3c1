import RetroPark.Cores.ExternalSwapChain

/-!
# Repeated presents

The contract of `consume_sync_handle` releases the slot of a frame with its first composite. The
backend composites the frame again in every present until the core reports another, and while the
runtime is paused in every present, without a wait and without a signal.

* `composites_stable`: what has to hold of a run besides the contract for every composite to sample
  its frame, and for those of a paused runtime to sample the same pixels;
* `Released` alone leaves both open: `repeat_overwritten`.
-/

namespace RetroPark.Vulkan

/-- The frame of a present whose composite has not finished. -/
def Stage.pending : Stage → Option (ℕ × ℕ)
  | .taken c | .queued c | .running c => some (c.index, c.syncValue)
  | .idle | .finished _ => none

namespace Handoff

variable {N : ℕ} {P : Producer N} {s s' : Handoff}

/-- The frame that the host presents and the one it would present next. -/
def shown (s : Handoff) : List (ℕ × ℕ) := s.target.toList ++ s.stage.pending.toList

/-- No frame is started in the slot of a consumed frame that the host presents or would present
next, and the host does not pause once the frame it has taken last is gone. -/
def RepeatsKept (P : Producer N) (s : Handoff) (a : Action) : Prop :=
  (a = .start → ∀ t ∈ s.shown, t.2 < s.consume → P.slot s.started ≠ t.1) ∧
    (a = .pause → ∀ t ∈ s.lastReady.toList, ∀ f < s.started, t.2 < P.value f → P.slot f ≠ t.1)

instance (P : Producer N) (s : Handoff) (a : Action) : Decidable (RepeatsKept P s a) :=
  inferInstanceAs (Decidable
    ((a = .start → ∀ t ∈ s.shown, t.2 < s.consume → P.slot s.started ≠ t.1) ∧
      (a = .pause → ∀ t ∈ s.lastReady.toList, ∀ f < s.started, t.2 < P.value f → P.slot f ≠ t.1)))

/-- The contract of `consume_sync_handle`, and nothing to disturb a repeat. -/
def Undisturbed (P : Producer N) (s : Handoff) (a : Action) : Prop :=
  Released P s a ∧ RepeatsKept P s a

instance (P : Producer N) (s : Handoff) (a : Action) : Decidable (Undisturbed P s a) :=
  inferInstanceAs (Decidable (Released P s a ∧ RepeatsKept P s a))

/-- Every frame that the host may come to present is in its slot. -/
structure Steady (P : Producer N) (s : Handoff) : Prop where
  kept : Kept P s
  latest : ∀ g, s.ring.latestReady = some (P.frame g) → Intact P s g
  paused : s.paused = true → ∀ g, s.lastReady = some (P.frame g) → Intact P s g
  pending : ∀ g, s.stage.pending = some (P.frame g) → Intact P s g

/-- When the surfaces have just been allocated there is nothing to present. -/
theorem init_steady (width height : UInt32) (generation : ℕ) (swapchain : Bool) :
    Steady P (init N width height generation swapchain) where
  kept := init_kept width height generation swapchain
  latest := fun _ h => nomatch h
  paused := fun h => nomatch h
  pending := fun _ h => nomatch h

/-- A start leaves a frame in its slot when it is shown once it has been consumed. -/
theorem Intact.start {g : ℕ} (hintact : Intact P s g) (hguard : Undisturbed P s .start)
    (h : step P s .start = some s')
    (hshown : P.value g < s.consume → P.frame g ∈ s.shown) : Intact P s' g := by
  obtain ⟨-, -, -, rfl⟩ := step_start h
  intro f hf hgf heq
  rcases Nat.lt_succ_iff_lt_or_eq.mp hf with hf | rfl
  · exact hintact f hf hgf heq
  · -- The slot is rewritten, so the frame has been consumed.
    have hconsumed := hguard.1 rfl g hgf heq.symm
    exact hguard.2.1 rfl _ (hshown hconsumed) hconsumed heq

/-- The frame reported last is the one taken last once it has been consumed. -/
theorem Inv.latest_taken (hi : Inv P s) {g : ℕ} (hlatest : s.ring.latestReady = some (P.frame g))
    (hconsumed : P.value g < s.consume) : s.lastReady = some (P.frame g) := by
  obtain ⟨f, hf, heq⟩ := Producer.latest_eq_some (hi.latest.symm.trans hlatest)
  obtain rfl := Producer.frame_inj heq
  obtain ⟨t, ht, hle⟩ := hi.consume_le (Nat.lt_of_le_of_lt (Nat.zero_le _) hconsumed)
  obtain ⟨f, hf', rfl⟩ := hi.taken t ht
  have hge : ¬f < g := fun hlt => by
    have := Producer.value_lt (P := P) hlt
    change s.consume ≤ P.value f + 1 at hle
    omega
  rw [ht, show f = g by omega]

/-- The frame the host would present next is shown. -/
theorem mem_shown_of_target {t : ℕ × ℕ} (h : s.target = some t) : t ∈ s.shown :=
  List.mem_append_left _ (Option.mem_toList.mpr h)

/-- The frame the host is presenting is shown. -/
theorem mem_shown_of_pending {t : ℕ × ℕ} (h : s.stage.pending = some t) : t ∈ s.shown :=
  List.mem_append_right _ (Option.mem_toList.mpr h)

namespace Steady

/-- The next present shows a frame that is in its slot. -/
theorem target (hs : Steady P s) {g : ℕ} (h : s.target = some (P.frame g)) : Intact P s g := by
  unfold Handoff.target at h
  split_ifs at h with hpaused
  · exact hs.paused hpaused g h
  · exact hs.latest g h

/-- The start of a frame leaves the frames that may be presented in their slots. -/
theorem start (hi : Inv P s) (hs : Steady P s) (hguard : Undisturbed P s .start)
    (h : Handoff.step P s .start = some s') : Steady P s' := by
  obtain ⟨-, -, -, rfl⟩ := step_start h
  have hkept := hs.kept.step hguard.1 h
  refine ⟨hkept, fun g hg => ?_, fun hpaused g hg => ?_, fun g hg => ?_⟩
  · refine (hs.latest g hg).start hguard h fun hconsumed => mem_shown_of_target ?_
    -- Paused or not, a consumed frame that was reported last is the next one shown.
    unfold Handoff.target
    split_ifs
    · exact hi.latest_taken hg hconsumed
    · exact hg
  · exact (hs.paused hpaused g hg).start hguard h fun _ =>
      mem_shown_of_target ((if_pos hpaused).trans hg)
  · exact (hs.pending g hg).start hguard h fun _ => mem_shown_of_pending hg

/-- A report makes a frame ready that is in its slot. -/
theorem report (hi : Inv P s) (hs : Steady P s) (hguard : Undisturbed P s .report)
    (h : Handoff.step P s .report = some s') : Steady P s' := by
  have hkept := hs.kept.step hguard.1 h
  have hlatest := (hi.report h).latest
  obtain ⟨-, rfl⟩ := step_report h
  refine ⟨hkept, fun g hg f hf hgf => ?_, hs.paused, hs.pending⟩
  -- The frame reported now is the last one submitted, so none after it has been started.
  obtain rfl : s.reported = g := Producer.frame_inj (Option.some.inj (hlatest.symm.trans hg))
  have hstarted := hi.started_le_submitted
  have hsubmitted := hi.submitted_le
  change f < s.started at hf
  omega

/-- The host takes a frame that is in its slot. -/
theorem take (hs : Steady P s) (hguard : Undisturbed P s .take)
    (h : Handoff.step P s .take = some s') : Steady P s' := by
  have hkept := hs.kept.step hguard.1 h
  obtain ⟨-, t, htarget, rfl⟩ := step_take h
  refine ⟨hkept, hs.latest, fun _ g hg => ?_, fun g hg => ?_⟩
  · obtain rfl := Option.some.inj hg
    exact hs.target htarget
  · obtain rfl : t = P.frame g := Option.some.inj hg
    exact hs.target htarget

/-- A pause keeps a frame that is in its slot. -/
theorem pause (hs : Steady P s) (hguard : Undisturbed P s .pause)
    (h : Handoff.step P s .pause = some s') : Steady P s' := by
  have hkept := hs.kept.step hguard.1 h
  obtain ⟨-, rfl⟩ := step_pause h
  refine ⟨hkept, hs.latest, fun _ g hg f hf hgf => ?_, hs.pending⟩
  exact hguard.2.2 rfl _ (Option.mem_toList.mpr hg) f hf (Producer.value_lt hgf)

/-- Every step that meets the guard leaves the frames that may be presented in their slots. -/
theorem step (hi : Inv P s) (hs : Steady P s) {a : Action} (hguard : Undisturbed P s a)
    (h : Handoff.step P s a = some s') : Steady P s' := by
  have hkept := hs.kept.step hguard.1 h
  have hpending := hs.pending
  -- `report`, `start`, `take` and `pause` change a frame that may be presented; the other steps
  -- only move the composite on.
  cases a with
  | submit => obtain ⟨-, -, rfl⟩ := step_submit h; exact { hs with kept := hkept }
  | report => exact report hi hs hguard h
  | start => exact start hi hs hguard h
  | finish => obtain ⟨-, rfl⟩ := step_finish h; exact { hs with kept := hkept }
  | take => exact take hs hguard h
  | refuse =>
    obtain ⟨c, -, rfl⟩ := step_refuse h
    exact { hs with kept := hkept, pending := fun _ hg => nomatch hg }
  | enqueue =>
    obtain ⟨c, hstage, rfl⟩ := step_enqueue h
    rw [hstage] at hpending
    exact { hs with kept := hkept, pending := hpending }
  | execute =>
    obtain ⟨c, hstage, -, rfl⟩ := step_execute h
    rw [hstage] at hpending
    exact { hs with kept := hkept, pending := hpending }
  | complete =>
    obtain ⟨c, -, rfl⟩ := step_complete h
    exact { hs with kept := hkept, pending := fun _ hg => nomatch hg }
  | conclude ok =>
    obtain ⟨c, -, rfl⟩ := step_conclude h
    exact { hs with kept := hkept, pending := fun _ hg => nomatch hg }
  | pause => exact pause hs hguard h
  | resume =>
    obtain ⟨-, rfl⟩ := step_resume h
    exact { hs with kept := hkept, paused := fun h => nomatch h }

end Steady

/-- The composite that executes samples its frame, which is complete. -/
def Sampled (P : Producer N) (s : Handoff) : Prop :=
  ∀ c, s.stage = .running c →
    ∃ g, c.index = P.slot g ∧ c.syncValue = P.value g ∧ s.images c.index = .holds g

/-- The composites that execute in two states sample the same pixels. -/
def SamePixels (s s' : Handoff) : Prop :=
  ∀ c c', s.stage = .running c → s'.stage = .running c' →
    c'.index = c.index ∧ s'.images c'.index = s.images c.index

variable {width height : UInt32} {generation : ℕ} {swapchain : Bool} {as : List Action}

/-- Every composite samples the frame it is for. -/
theorem Steady.sampled (hi : Inv P s) (hs : Steady P s) : Sampled P s := by
  intro c hc
  obtain ⟨g, -, hindex, hvalue⟩ := hi.frame (c := c) (hc ▸ rfl)
  have hpending : s.stage.pending = some (P.frame g) := by
    rw [hc, Producer.frame, ← hindex, ← hvalue]
    rfl
  exact ⟨g, hindex, hvalue, hi.image_of_intact hc hindex hvalue (hs.pending g hpending)⟩

/-- A paused host keeps the frame it has taken last until it resumes. -/
theorem step_paused {a : Action} (h : step P s a = some s') (hpaused : s.paused = true)
    (hresume : a ≠ .resume) : s'.paused = true ∧ s'.lastReady = s.lastReady := by
  cases a with
  | submit => obtain ⟨-, -, rfl⟩ := step_submit h; exact ⟨hpaused, rfl⟩
  | report => obtain ⟨-, rfl⟩ := step_report h; exact ⟨hpaused, rfl⟩
  | start => obtain ⟨-, -, -, rfl⟩ := step_start h; exact ⟨hpaused, rfl⟩
  | finish => obtain ⟨-, rfl⟩ := step_finish h; exact ⟨hpaused, rfl⟩
  | take =>
    obtain ⟨-, t, htarget, rfl⟩ := step_take h
    exact ⟨hpaused, htarget.symm.trans (if_pos hpaused)⟩
  | refuse => obtain ⟨_, -, rfl⟩ := step_refuse h; exact ⟨hpaused, rfl⟩
  | enqueue => obtain ⟨_, -, rfl⟩ := step_enqueue h; exact ⟨hpaused, rfl⟩
  | execute => obtain ⟨_, -, -, rfl⟩ := step_execute h; exact ⟨hpaused, rfl⟩
  | complete => obtain ⟨_, -, rfl⟩ := step_complete h; exact ⟨hpaused, rfl⟩
  | conclude ok => obtain ⟨_, -, rfl⟩ := step_conclude h; exact ⟨hpaused, rfl⟩
  | pause => obtain ⟨-, rfl⟩ := step_pause h; exact ⟨rfl, rfl⟩
  | resume => exact absurd rfl hresume

/-- While the host is paused it keeps the frame it has taken last. -/
theorem run_paused {bs : List Action} {guard : Handoff → Action → Prop}
    (h : Machine.Run (machine P) (fun s a => guard s a ∧ a ≠ .resume) s bs s')
    (hpaused : s.paused = true) : s'.paused = true ∧ s'.lastReady = s.lastReady := by
  refine h.invariant (I := fun t => t.paused = true ∧ t.lastReady = s.lastReady) ⟨hpaused, rfl⟩ ?_
  rintro t a t' ⟨hpaused, hlast⟩ ⟨-, hresume⟩ hstep
  have hnext := step_paused hstep hpaused hresume
  exact ⟨hnext.1, hnext.2.trans hlast⟩

/-- In a run that meets the guard the frames that may be presented are in their slots. -/
theorem run_steady (hN : 2 ≤ N)
    (h : Machine.Run (machine P) (Undisturbed P) (init N width height generation swapchain) as s) :
    Inv P s ∧ Steady P s :=
  h.invariant (I := fun s => Inv P s ∧ Steady P s)
    ⟨init_inv hN width height generation swapchain, init_steady width height generation swapchain⟩
    fun _ _ _ hs hguard hstep => ⟨hs.1.step hN hstep, hs.2.step hs.1 hguard hstep⟩

/-- Every composite of a run samples its frame, and those of a paused runtime the same pixels. -/
theorem composites_stable (hN : 2 ≤ N)
    (h : Machine.Run (machine P) (Undisturbed P) (init N width height generation swapchain) as s) :
    Sampled P s ∧
      (s.paused = true → ∀ bs s',
        Machine.Run (machine P) (fun s a => Undisturbed P s a ∧ a ≠ .resume) s bs s' →
          SamePixels s s') := by
  obtain ⟨hi, hs⟩ := run_steady hN h
  refine ⟨hs.sampled hi, fun hpaused bs s' hrun c c' hc hc' => ?_⟩
  obtain ⟨hi', hs'⟩ := run_steady hN (h.append (hrun.weaken fun _ _ hguard => hguard.1))
  have hlast := (run_paused hrun hpaused).2
  rw [(hi'.composite c' (hc' ▸ rfl)).1, (hi.composite c (hc ▸ rfl)).1] at hlast
  obtain ⟨hindex, hvalue⟩ := Prod.mk.inj (Option.some.inj hlast)
  obtain ⟨g, -, hgvalue, himage⟩ := hs.sampled hi c hc
  obtain ⟨g', -, hgvalue', himage'⟩ := hs'.sampled hi' c' hc'
  obtain rfl : g' = g :=
    P.value_strictMono.injective (hgvalue'.symm.trans (hvalue.trans hgvalue))
  exact ⟨hindex, himage'.trans himage.symm⟩

/-! ### Runs of the external swapchain with three slots -/

/-- The host pauses on frame 0, and presents it again after two more frames. -/
def pausedPresent : List Action :=
  renderFrame ++ presentFrame ++ [.pause] ++ renderFrame ++ renderFrame ++
    [.submit, .report, .take, .enqueue, .execute]

/-- The next present. -/
def nextPresent : List Action := [.complete, .conclude true, .take, .enqueue, .execute]

/-- A paused host presents a frame again, with the same pixels. -/
theorem composites_stable_pausedPresent :
    ∃ s s', Machine.Run (machine (ExternalSwapChain.producer 3 (by decide)))
        (Undisturbed (ExternalSwapChain.producer 3 (by decide)))
          (init 3 64 64 0 false) pausedPresent s ∧
      Sampled (ExternalSwapChain.producer 3 (by decide)) s ∧ s.stage ≠ .idle ∧ s'.stage = s.stage ∧
        SamePixels s s' := by
  have hend : ∃ s, Machine.Run (machine (ExternalSwapChain.producer 3 (by decide)))
        (Undisturbed (ExternalSwapChain.producer 3 (by decide))) (init 3 64 64 0 false)
        pausedPresent s ∧
      s.paused = true ∧ s.stage ≠ .idle ∧
      (Machine.exec (machine (ExternalSwapChain.producer 3 (by decide)))
        (fun s a => Undisturbed (ExternalSwapChain.producer 3 (by decide)) s a ∧ a ≠ .resume) s
        nextPresent).any (fun s' => decide (s'.stage = s.stage)) = true :=
    Machine.exists_run (by decide +kernel)
  obtain ⟨s, hrun, hpaused, hstage, hnext⟩ := hend
  obtain ⟨s', hrun', hstage'⟩ := Machine.exists_run hnext
  obtain ⟨hsampled, hpixels⟩ := composites_stable (by decide) hrun
  exact ⟨s, s', hrun, hsampled, hstage, hstage', hpixels hpaused nextPresent s' hrun'⟩

/-- The repeat of frame 0. -/
def repeatOfFrame0 : Composite :=
  { index := 0, syncValue := 2, submission := { wait := none, signal := none } }

/-- Frame 3 is written to slot 0 once frame 0 has been consumed, while a paused host presents frame
0 again. -/
theorem repeat_overwritten :
    ∃ s, Machine.Run (machine (ExternalSwapChain.producer 3 (by decide)))
        (Released (ExternalSwapChain.producer 3 (by decide))) (init 3 64 64 0 false)
        (renderFrame ++ presentFrame ++ [.pause] ++ renderFrame ++ renderFrame ++
          [.submit, .report, .start, .take, .enqueue, .execute]) s ∧
      s.stage = .running repeatOfFrame0 ∧ s.images 0 = .writing 3 ∧
        ¬Sampled (ExternalSwapChain.producer 3 (by decide)) s := by
  have hend : ∃ s, Machine.Run (machine (ExternalSwapChain.producer 3 (by decide)))
        (Released (ExternalSwapChain.producer 3 (by decide))) (init 3 64 64 0 false)
        (renderFrame ++ presentFrame ++ [.pause] ++ renderFrame ++ renderFrame ++
          [.submit, .report, .start, .take, .enqueue, .execute]) s ∧
      s.stage = .running repeatOfFrame0 ∧ s.images 0 = .writing 3 :=
    Machine.exists_run (by decide +kernel)
  obtain ⟨s, hrun, hstage, himage⟩ := hend
  refine ⟨s, hrun, hstage, himage, fun hsampled => ?_⟩
  obtain ⟨g, -, -, hholds⟩ := hsampled _ hstage
  exact nomatch himage.symm.trans hholds

end Handoff

end RetroPark.Vulkan
