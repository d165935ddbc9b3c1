import RetroPark.Render.Vulkan.Handoff
import Mathlib.Data.Nat.ModEq

/-!
# The external swapchain of the Dolphin core

The swapchain the Dolphin patch adds: frame `f` goes to slot `f % n`, which `AcquireNextImage` hands
out once the host has consumed frame `f - n`, and `PresentBackbuffer` signals `2 * f + 2` and
reports the frame.

* `run_released`: what `AcquireNextImage` waits for keeps the contract of `consume_sync_handle`;
* `queue_drains` and `present_ends`: the two queues and the host's thread never wait for the core's
  thread;
* `handoff_safe_and_live`: a first composite samples its own frame, and a core that waits is let
  through by the present of the last frame it has reported.
-/

namespace RetroPark.Vulkan

namespace ExternalSwapChain

variable {n : ℕ} {s s' : Handoff}

/-- The slot of frame `f`. -/
def imageIndex (n f : ℕ) : ℕ := f % n

/-- `NextExternalSignalValue`, at frame `f`. -/
def signalValue (f : ℕ) : ℕ := 2 * f + 2

/-- The value `AcquireNextImage` waits for. -/
def waitVal (n f : ℕ) : ℕ := 2 * (f - n) + 3

/-- The timeline `AcquireNextImage` waits on. -/
def waitSem (n : ℕ) : Timeline := if 2 ≤ n then .consume else .produce

/-- Whether `AcquireNextImage` has handed out the slot of frame `f`. -/
def acquired (n f : ℕ) (s : Handoff) : Bool :=
  decide (f < n) || decide (waitVal n f ≤ match waitSem n with
    | .produce => s.produce
    | .consume => s.consume)

/-- The presents of the core. -/
def producer (n : ℕ) (hn : 0 < n) : Producer n where
  slot := imageIndex n
  value := signalValue
  maySubmit := acquired n
  mayStart _ _ := true
  slot_lt f := Nat.mod_lt f hn
  value_pos f := Nat.succ_pos _
  value_strictMono := strictMono_nat_of_lt_succ fun f => by simp only [signalValue]; omega

/-- The host presents without pausing, and its presents succeed. -/
def Successful (_ : Handoff) (a : Action) : Prop := a ≠ .pause ∧ a ≠ .refuse ∧ a ≠ .conclude false

instance (s : Handoff) (a : Action) : Decidable (Successful s a) :=
  inferInstanceAs (Decidable (_ ∧ _ ∧ _))

/-- An image is handed out once the frame `n` before has been consumed. -/
theorem acquired_iff (hn : 2 ≤ n) {f : ℕ} :
    acquired n f s = true ↔ (n ≤ f → waitVal n f ≤ s.consume) := by
  rw [acquired, waitSem, if_pos hn, Bool.or_eq_true, decide_eq_true_eq, decide_eq_true_eq]
  exact ⟨fun h hle => h.resolve_left (Nat.not_lt.mpr hle), fun h =>
    (Nat.lt_or_ge f n).imp_right h⟩

/-! ### The slots are released -/

/-- Every frame submitted has waited for its slot. -/
def Acquired (n : ℕ) (s : Handoff) : Prop := ∀ f < s.submitted, n ≤ f → waitVal n f ≤ s.consume

/-- Every step leaves the frames that have been submitted with an image. -/
theorem Acquired.step (hn : 2 ≤ n) {hn' : 0 < n} (ha : Acquired n s) {a : Action}
    (h : Handoff.step (producer n hn') s a = some s') : Acquired n s' := by
  have hframe := Handoff.step_frame h
  intro f hf hle
  refine Nat.le_trans ?_ hframe.consume
  by_cases hsubmit : a = .submit
  · subst hsubmit
    obtain ⟨-, hacquired, rfl⟩ := Handoff.step_submit h
    -- Only `submit` adds a frame, and it has just waited.
    rcases Nat.lt_succ_iff_lt_or_eq.mp hf with hf | rfl
    · exact ha f hf hle
    · exact (acquired_iff hn).mp hacquired hle
  · exact ha f (hframe.submitted hsubmit ▸ hf) hle

/-- What `AcquireNextImage` waits for is the release of the slot. -/
theorem Acquired.released (ha : Acquired n s) {hn : 0 < n} {a : Action}
    (h : Handoff.step (producer n hn) s a = some s') : Handoff.Released (producer n hn) s a := by
  rintro rfl g hg hslot
  obtain ⟨-, hsubmitted, -⟩ := Handoff.step_start h
  -- The frame before it in the slot is at least `n` frames back.
  have hle : g + n ≤ s.started := Nat.ModEq.add_le_of_lt hslot hg
  have hwait := ha s.started hsubmitted (by omega)
  rw [waitVal] at hwait
  show signalValue g < s.consume
  rw [signalValue]
  omega

variable {width height : UInt32} {generation : ℕ} {swapchain : Bool} {as : List Action}

/-- A run of this core keeps the contract of `consume_sync_handle`. -/
theorem run_released (hn : 2 ≤ n) {guard : Handoff → Action → Prop}
    (h : Machine.Run (Handoff.machine (producer n (by omega))) guard
      (Handoff.init n width height generation swapchain) as s) :
    Machine.Run (Handoff.machine (producer n (by omega)))
      (Handoff.Released (producer n (by omega)))
      (Handoff.init n width height generation swapchain) as s :=
  h.strengthen (I := Acquired n) (fun _ hf => nomatch hf)
    (fun _ _ _ ha _ hstep => ha.step hn hstep) (fun _ _ _ ha _ hstep => ha.released hstep)

/-! ### First composites -/

/-- The frame of a composite that has finished and whose present has not returned. -/
def finishedSync : Stage → ℕ
  | .finished c => c.syncValue
  | _ => 0

/-- Between two presents the consume timeline is right behind the frame presented last. -/
structure Settled (s : Handoff) : Prop where
  paused : s.paused = false
  consume : s.consume ≤ max s.backend.lastPresentSync (finishedSync s.stage) + 1

/-- Every step with a present that succeeds leaves the backend in step with the timeline. -/
theorem Settled.step {P : Producer n} (hn : 2 ≤ n) (hi : Handoff.Inv P s)
    (hs : Settled s) {a : Action}
    (hguard : Successful s a) (h : Handoff.step P s a = some s') : Settled s' := by
  have hconsume := hs.consume
  refine ⟨?_, ?_⟩
  · by_contra hpaused
    have hpaused' := (Handoff.step_frame h).paused hguard.1 (Bool.eq_true_of_not_eq_false hpaused)
    exact nomatch hs.paused.symm.trans hpaused'
  · cases a with
    | submit => obtain ⟨-, -, rfl⟩ := Handoff.step_submit h; exact hconsume
    | report => obtain ⟨-, rfl⟩ := Handoff.step_report h; exact hconsume
    | start => obtain ⟨-, -, -, rfl⟩ := Handoff.step_start h; exact hconsume
    | finish => obtain ⟨-, rfl⟩ := Handoff.step_finish h; exact hconsume
    | take =>
      obtain ⟨hstage, t, -, rfl⟩ := Handoff.step_take h
      rw [hstage] at hconsume
      exact hconsume
    | refuse => exact absurd rfl hguard.2.1
    | enqueue =>
      obtain ⟨c, hstage, rfl⟩ := Handoff.step_enqueue h
      rw [hstage] at hconsume
      exact hconsume
    | execute =>
      obtain ⟨c, hstage, -, rfl⟩ := Handoff.step_execute h
      rw [hstage] at hconsume
      exact hconsume
    | complete =>
      obtain ⟨c, hstage, rfl⟩ := Handoff.step_complete h
      -- The only step that raises the consume timeline, to one past the frame.
      have hsubmission := (hi.composite c (hstage ▸ rfl)).2
      rw [hstage] at hconsume
      show c.submission.raise .consume s.consume ≤ max s.backend.lastPresentSync c.syncValue + 1
      rw [hsubmission, Handoff.raise_consume (hi.consumeSem hn)]
      change s.consume ≤ max s.backend.lastPresentSync 0 + 1 at hconsume
      split_ifs <;> omega
    | conclude ok =>
      obtain ⟨c, hstage, rfl⟩ := Handoff.step_conclude h
      cases ok with
      | false => exact absurd rfl hguard.2.2
      | true =>
        rw [hstage] at hconsume
        change s.consume ≤ max s.backend.lastPresentSync c.syncValue + 1 at hconsume
        show s.consume ≤ max (s.backend.consumed c.syncValue true).lastPresentSync 0 + 1
        -- A present that succeeds remembers the frame, so the bound stays.
        rw [VulkanBackend.consumed]
        split_ifs with hnew
        · show s.consume ≤ max c.syncValue 0 + 1
          have := of_decide_eq_true hnew
          omega
        · have := of_decide_eq_false (Bool.eq_false_of_not_eq_true hnew)
          omega
    | pause => exact absurd rfl hguard.1
    | resume => obtain ⟨-, rfl⟩ := Handoff.step_resume h; exact hconsume

/-- In a run in which the presents succeed, the backend is in step with the timeline. -/
theorem run_settled {P : Producer n} (hn : 2 ≤ n)
    (h : Machine.Run (Handoff.machine P) Successful
      (Handoff.init n width height generation swapchain) as s) :
    Handoff.Inv P s ∧ Settled s :=
  h.invariant (I := fun s => Handoff.Inv P s ∧ Settled s)
    ⟨Handoff.init_inv hn width height generation swapchain, rfl, Nat.zero_le _⟩
    fun _ _ _ hs hguard hstep => ⟨hs.1.step hn hstep, hs.2.step hn hs.1 hguard hstep⟩

/-- A composite that signals is of a frame that has not been consumed. -/
theorem Settled.consume_le (hs : Settled s) {P : Producer n} (hi : Handoff.Inv P s) {c : Composite}
    (hc : s.stage = .running c) (hfirst : c.submission.signal.isSome = true) :
    s.consume ≤ c.syncValue := by
  have hconsume := hs.consume
  rw [(hi.composite c (hc ▸ rfl)).2, Handoff.signal_isSome_iff] at hfirst
  rw [hc] at hconsume
  change s.consume ≤ max s.backend.lastPresentSync 0 + 1 at hconsume
  omega

/-! ### A core that waits is let through -/

/-- The steps of the host's thread and of the two queues. -/
def Elsewhere (s : Handoff) (a : Action) : Prop := Successful s a ∧ a ≠ .submit ∧ a ≠ .report

variable {hn : 0 < n}

/-- While the core's thread waits, the ring keeps its frame. -/
theorem run_elsewhere (h : Machine.Run (Handoff.machine (producer n hn)) Elsewhere s as s') :
    s'.submitted = s.submitted ∧ s'.reported = s.reported ∧ s'.ring = s.ring ∧
      (s'.paused = true → s.paused = true) := by
  refine h.invariant (I := fun t => t.submitted = s.submitted ∧ t.reported = s.reported ∧
    t.ring = s.ring ∧ (t.paused = true → s.paused = true)) ⟨rfl, rfl, rfl, id⟩ ?_
  rintro t a t' ⟨hsubmitted, hreported, hring, hpaused⟩ ⟨⟨hpause, -⟩, hsubmit, hreport⟩ hstep
  have hframe := Handoff.step_frame hstep
  exact ⟨(hframe.submitted hsubmit).trans hsubmitted, (hframe.reported hreport).1.trans hreported,
    (hframe.reported hreport).2.trans hring, fun h => hpaused (hframe.paused hpause h)⟩

/-- The core's queue finishes the next frame that has been submitted. -/
theorem queue_progress (hi : Handoff.Inv (producer n hn) s) (hlt : s.finished < s.submitted) :
    ∃ bs s', Machine.Run (Handoff.machine (producer n hn)) Elsewhere s bs s' ∧
      s'.finished = s.finished + 1 := by
  have hfinish : Elsewhere s .finish := by simp [Elsewhere, Successful]
  have hstart : Elsewhere s .start := by simp [Elsewhere, Successful]
  -- The frame is under way, or is started first: nothing is asked of the slot here.
  rcases Nat.lt_or_eq_of_le hi.finished_le with hstarted | hstarted
  · exact ⟨[.finish], _, .cons hfinish (if_pos hstarted) (.nil _), rfl⟩
  · refine ⟨[.start, .finish], _, .cons hstart (if_pos ⟨hstarted.symm, hstarted ▸ hlt, rfl⟩)
      (.cons hfinish (if_pos ?_) (.nil _)), rfl⟩
    exact Nat.lt_succ_of_le hi.finished_le

/-- The steps of the others keep the invariant. -/
theorem run_inv_elsewhere (hn' : 2 ≤ n) (hi : Handoff.Inv (producer n hn) s) {bs : List Action}
    (h : Machine.Run (Handoff.machine (producer n hn)) Elsewhere s bs s') :
    Handoff.Inv (producer n hn) s' :=
  h.invariant hi fun _ _ _ hi _ hstep => hi.step hn' hstep

/-- The core's queue finishes every frame that has been submitted. -/
theorem queue_drains (hn' : 2 ≤ n) (hi : Handoff.Inv (producer n hn) s) :
    ∃ bs s', Machine.Run (Handoff.machine (producer n hn)) Elsewhere s bs s' ∧
      s'.finished = s.submitted := by
  -- Induction on the number of frames still to finish.
  obtain ⟨k, hk⟩ := Nat.le.dest (Nat.le_trans hi.finished_le hi.started_le_submitted)
  induction k generalizing s with
  | zero => exact ⟨[], s, .nil s, hk⟩
  | succ k ih =>
    obtain ⟨bs, s₁, hrun, hfinished⟩ := queue_progress hi (by omega)
    obtain ⟨hsubmitted, -⟩ := run_elsewhere hrun
    obtain ⟨bs', s', hrun', hdrained⟩ := ih (run_inv_elsewhere hn' hi hrun) (by omega)
    exact ⟨bs ++ bs', s', hrun.append hrun', hdrained.trans hsubmitted⟩

/-- How far a present is from its return. -/
def remaining : Stage → ℕ
  | .idle => 0
  | .finished _ => 1
  | .running _ => 2
  | .queued _ => 3
  | .taken _ => 4

/-- With every frame complete a present can always go on, and it returns with its frame consumed. -/
theorem present_progress (hi : Handoff.Inv (producer n hn) s) (hdrained : s.finished = s.submitted)
    {c : Composite} (hc : s.stage.composite = some c) :
    ∃ a s', Elsewhere s a ∧ Handoff.step (producer n hn) s a = some s' ∧ s'.finished = s.finished ∧
      remaining s'.stage < remaining s.stage ∧
      (s'.stage.composite = some c ∨ s'.stage = .idle ∧ c.syncValue < s'.consume) := by
  have hc' := hc
  cases hstage : s.stage with
  | idle => exact nomatch hc'.symm.trans (congrArg Stage.composite hstage)
  | taken d =>
    obtain rfl : c = d := Option.some.inj (hc'.symm.trans (congrArg Stage.composite hstage))
    exact ⟨.enqueue, _, by simp [Elsewhere, Successful], Handoff.enqueue_of_taken hstage, rfl,
      Nat.lt_succ_self _, Or.inl rfl⟩
  | queued d =>
    obtain rfl : c = d := Option.some.inj (hc'.symm.trans (congrArg Stage.composite hstage))
    -- The frame was reported, so it was submitted, and its submit has finished.
    obtain ⟨g, hg, -, hvalue⟩ := hi.frame hc
    have hreached : c.submission.isReached s.produce s.consume = true := by
      rw [(hi.composite c hc).2, Handoff.isReached_iff, hi.produce, hvalue]
      have := hi.reported_le
      exact fun _ => Producer.value_le_reached.mpr (by omega)
    exact ⟨.execute, _, by simp [Elsewhere, Successful], Handoff.execute_of_queued hstage hreached,
      rfl, Nat.lt_succ_self _, Or.inl rfl⟩
  | running d =>
    obtain rfl : c = d := Option.some.inj (hc'.symm.trans (congrArg Stage.composite hstage))
    exact ⟨.complete, _, by simp [Elsewhere, Successful], Handoff.complete_of_running hstage, rfl,
      Nat.lt_succ_self _, Or.inl rfl⟩
  | finished d =>
    obtain rfl : c = d := Option.some.inj (hc'.symm.trans (congrArg Stage.composite hstage))
    exact ⟨.conclude true, _, by simp [Elsewhere, Successful],
      Handoff.conclude_of_finished hstage true, rfl, Nat.lt_succ_self _,
      Or.inr ⟨rfl, (hi.complete c hstage).2⟩⟩

/-- With every frame complete a present returns with its frame consumed. -/
theorem present_ends (hn' : 2 ≤ n) (hi : Handoff.Inv (producer n hn) s)
    (hdrained : s.finished = s.submitted) {c : Composite} (hc : s.stage.composite = some c) :
    ∃ bs s', Machine.Run (Handoff.machine (producer n hn)) Elsewhere s bs s' ∧
      s'.finished = s.finished ∧ s'.stage = .idle ∧ c.syncValue < s'.consume := by
  obtain ⟨k, hk⟩ : ∃ k, remaining s.stage = k := ⟨_, rfl⟩
  -- Induction on how far the present is from its return.
  induction k using Nat.strongRecOn generalizing s with
  | ind k ih =>
    obtain ⟨a, s₁, helsewhere, hstep, hfinished, hless, hnext⟩ := present_progress hi hdrained hc
    have hrun : Machine.Run (Handoff.machine (producer n hn)) Elsewhere s [a] s₁ :=
      .cons helsewhere hstep (.nil s₁)
    rcases hnext with hc' | ⟨hidle, hconsumed⟩
    · obtain ⟨hsubmitted, -⟩ := run_elsewhere hrun
      obtain ⟨bs, s', hrun', hfinished', hend⟩ := ih _ (hk ▸ hless) (run_inv_elsewhere hn' hi hrun)
        (hfinished.trans (hdrained.trans hsubmitted.symm)) hc' rfl
      exact ⟨_, s', hrun.append hrun', hfinished'.trans hfinished, hend⟩
    · exact ⟨_, s₁, hrun, hfinished, hidle, hconsumed⟩

/-- The host gets to the end of a present it is in, if any. -/
theorem host_idle (hn' : 2 ≤ n) (hi : Handoff.Inv (producer n hn) s)
    (hdrained : s.finished = s.submitted) :
    ∃ bs s', Machine.Run (Handoff.machine (producer n hn)) Elsewhere s bs s' ∧
      s'.finished = s.finished ∧ s'.stage = .idle := by
  cases hc : s.stage.composite with
  | none =>
    refine ⟨[], s, .nil s, rfl, ?_⟩
    cases hstage : s.stage with
    | idle => rfl
    | taken c | queued c | running c | finished c => exact nomatch hstage ▸ hc
  | some c =>
    obtain ⟨bs, s', hrun, hfinished, hidle, -⟩ := present_ends hn' hi hdrained hc
    exact ⟨bs, s', hrun, hfinished, hidle⟩

/-- The core's thread waits in `AcquireNextImage` for the slot of frame `f`. -/
def Blocked (n f : ℕ) (s : Handoff) : Prop :=
  s.submitted = f ∧ s.reported = f ∧ acquired n f s = false

/-- While the first composite of a frame executes, its slot holds that frame. -/
def Safe (n : ℕ) (s : Handoff) : Prop :=
  ∀ c, s.stage = .running c → c.submission.signal.isSome = true →
    ∃ f, c.index = imageIndex n f ∧ c.syncValue = signalValue f ∧ s.images c.index = .holds f

/-- Before frame `f` the core waits for the present of frame `f - 1`, which the ring has ready and
the host has not consumed: its composite lets the core through, and the host can get there without
the core's thread. -/
structure Live (n : ℕ) (hn : 0 < n) (f : ℕ) (s : Handoff) : Prop where
  latest : s.ring.latestReady = some (imageIndex n (f - 1), signalValue (f - 1))
  unconsumed : s.consume < signalValue (f - 1) + 1
  letThrough : ∀ bs s' c, Machine.Run (Handoff.machine (producer n hn)) Elsewhere s bs s' →
    s'.stage = .finished c → c.syncValue = signalValue (f - 1) → acquired n f s' = true
  canPresent : ∃ bs s', Machine.Run (Handoff.machine (producer n hn)) Elsewhere s bs s' ∧
    s'.consume = signalValue (f - 1) + 1 ∧ acquired n f s' = true

/-- In a run in which the presents succeed, first composites are safe. -/
theorem safe_of_run (hn : 2 ≤ n)
    (h : Machine.Run (Handoff.machine (producer n (by omega))) Successful
      (Handoff.init n width height generation swapchain) as s) : Safe n s := by
  intro c hc hfirst
  obtain ⟨hi, hs⟩ := run_settled hn h
  exact hi.firstComposite_holds (Handoff.run_kept (run_released hn h)) hc
    (hs.consume_le hi hc hfirst)

/-- A core that waits has been through at least `n` frames, and not the last of them has been
consumed. -/
theorem Blocked.spec (hn' : 2 ≤ n) {f : ℕ} (hb : Blocked n f s) :
    n ≤ f ∧ s.consume < signalValue (f - 1) + 1 := by
  obtain ⟨-, -, hnot⟩ := hb
  -- Were the wait satisfied, the core would have been let through.
  have hwait : ¬(n ≤ f → waitVal n f ≤ s.consume) := fun h => by
    rw [(acquired_iff hn').mpr h] at hnot
    exact nomatch hnot
  rw [Classical.not_imp, waitVal] at hwait
  rw [signalValue]
  omega

/-- A frame whose predecessor has been consumed has an image. -/
theorem acquired_of_consumed (hn' : 2 ≤ n) {f : ℕ} (hconsume : signalValue (f - 1) < s.consume) :
    acquired n f s = true := by
  rw [acquired_iff hn', waitVal]
  rw [signalValue] at hconsume
  omega

/-- The host lets a core through that waits. -/
theorem live_of_blocked (hn' : 2 ≤ n) (hi : Handoff.Inv (producer n hn) s)
    (hpaused : s.paused = false) {f : ℕ} (hb : Blocked n f s) : Live n hn f s := by
  obtain ⟨hle, hunconsumed⟩ := hb.spec hn'
  have hlatest : s.ring.latestReady = some (imageIndex n (f - 1), signalValue (f - 1)) := by
    rw [hi.latest, hb.2.1]
    cases f with
    | zero => omega
    | succ g => rfl
  refine ⟨hlatest, hunconsumed, ?_, ?_⟩
  · intro bs s' c hrun hstage hvalue
    have hi' := run_inv_elsewhere hn' hi hrun
    exact acquired_of_consumed hn' (hvalue ▸ (hi'.complete c hstage).2)
  · -- First the frames submitted, then the present the host is in, then a present of frame `f - 1`.
    obtain ⟨bs₁, s₁, hrun₁, hdrained⟩ := queue_drains hn' hi
    have hi₁ := run_inv_elsewhere hn' hi hrun₁
    obtain ⟨hsubmitted₁, -⟩ := run_elsewhere hrun₁
    obtain ⟨bs₂, s₂, hrun₂, hfinished, hidle⟩ := host_idle hn' hi₁ (hdrained.trans hsubmitted₁.symm)
    have hrun := hrun₁.append hrun₂
    have hi₂ := run_inv_elsewhere hn' hi hrun
    obtain ⟨hsubmitted, -, hring, hpaused'⟩ := run_elsewhere hrun
    have htarget : s₂.target = some (imageIndex n (f - 1), signalValue (f - 1)) := by
      rw [Handoff.target, if_neg (fun h => by cases hpaused.symm.trans (hpaused' h)),
        hring, hlatest]
    have htake := Handoff.take_of_idle (P := producer n hn) hidle htarget
    have hrun₃ : Machine.Run (Handoff.machine (producer n hn)) Elsewhere s₂ [.take] _ :=
      .cons (by simp [Elsewhere, Successful]) htake (.nil _)
    have hi₃ := run_inv_elsewhere hn' hi₂ hrun₃
    obtain ⟨bs₄, s₄, hrun₄, -, -, hconsumed⟩ := present_ends hn' hi₃
      (hfinished.trans (hdrained.trans hsubmitted.symm)) rfl
    have hi₄ := run_inv_elsewhere hn' hi₃ hrun₄
    have hall := (hrun.append hrun₃).append hrun₄
    refine ⟨_, s₄, hall, ?_, acquired_of_consumed hn' hconsumed⟩
    -- The host has taken no frame beyond the last one reported.
    obtain ⟨t, ht, hle⟩ := hi₄.consume_le (by omega)
    obtain ⟨g, hg, rfl⟩ := hi₄.taken t ht
    rw [(run_elsewhere hall).2.1, hb.2.1] at hg
    change s₄.consume ≤ signalValue g + 1 at hle
    change signalValue (f - 1) < s₄.consume at hconsumed
    rw [signalValue] at hle hconsumed ⊢
    omega

/-- In a run in which the presents succeed, first composites are safe and a core that waits is let
through by the host alone. -/
theorem handoff_safe_and_live (hn : 2 ≤ n)
    (h : Machine.Run (Handoff.machine (producer n (by omega))) Successful
      (Handoff.init n width height generation swapchain) as s) :
    Safe n s ∧ ∀ f, Blocked n f s → Live n (by omega) f s :=
  ⟨safe_of_run hn h, fun _ hb =>
    live_of_blocked hn (run_settled hn h).1 (run_settled hn h).2.paused hb⟩

/-! ### A run with two slots -/

/-- The core has presented frames 0 and 1 and waits for the slot of frame 2, while the host
composites frame 0. -/
def waiting : List Action :=
  [.submit, .report, .start, .finish, .take, .enqueue, .execute, .submit, .report, .start]

instance (n f : ℕ) (s : Handoff) : Decidable (Blocked n f s) :=
  inferInstanceAs (Decidable (_ ∧ _ ∧ _))

/-- With two images the core waits for the third one, and is let through. -/
theorem handoff_safe_and_live_waiting :
    ∃ s, Machine.Run (Handoff.machine (producer 2 (by decide))) Successful
        (Handoff.init 2 64 64 0 false) waiting s ∧
      s.images 0 = .holds 0 ∧ s.images 1 = .writing 1 ∧ Safe 2 s ∧ Live 2 (by decide) 2 s := by
  have hend : ∃ s, Machine.Run (Handoff.machine (producer 2 (by decide))) Successful
        (Handoff.init 2 64 64 0 false) waiting s ∧
      s.images 0 = .holds 0 ∧ s.images 1 = .writing 1 ∧ Blocked 2 2 s :=
    Machine.exists_run (by decide +kernel)
  obtain ⟨s, hrun, himage, himage', hblocked⟩ := hend
  obtain ⟨hsafe, hlive⟩ := handoff_safe_and_live (n := 2) (by decide) hrun
  exact ⟨s, hrun, himage, himage', hsafe, hlive 2 hblocked⟩

end ExternalSwapChain

end RetroPark.Vulkan
