import RetroPark.Render.Vulkan.Handoff
import Mathlib.Data.Nat.ModEq

/-!
# The reference Vulkan core

The render loop of `refcore_present_vk`. It counts its frames from 1 and makes the submit of frame
`f > N` wait for `2 * (f - N) + 1` on the timeline it imports, which is the produce timeline: the
host signals that value on the consume timeline.

* `mayStart_of_finished`: the core's own signals end the wait, whatever the host does;
* `exclusive_of_composited`: the loop is safe against the host's first composites in the runs in
  which a frame is started only once the host has composited the frame `N` before it or a later one.
-/

namespace RetroPark.Vulkan

namespace RefCoreVk

variable {N : ℕ} {s : Handoff}

/-- The slot of frame `f`. -/
def slotOf (N f : ℕ) : ℕ := f % N

/-- What the submit of frame `f` signals. -/
def signalVal (f : ℕ) : ℕ := 2 * f

/-- Whether the submit of frame `f` waits. -/
def doWait (N f : ℕ) : Bool := decide (N < f)

/-- What the submit of frame `f` waits for. -/
def waitVal (N f : ℕ) : ℕ := if N < f then 2 * (f - N) + 1 else 0

/-- The render loop. The handoff counts its frame `f` as `f - 1`. -/
def producer (N : ℕ) (hN : 0 < N) : Producer N where
  slot k := slotOf N (k + 1)
  value k := signalVal (k + 1)
  -- The fence of the slot, from the second frame in it on.
  maySubmit k s := decide (k < N) || decide (k - N < s.finished)
  -- The wait is on the timeline of `sync_handle`.
  mayStart k s := !doWait N (k + 1) || decide (waitVal N (k + 1) ≤ s.produce)
  slot_lt k := Nat.mod_lt _ hN
  value_pos k := Nat.succ_pos _
  value_strictMono := strictMono_nat_of_lt_succ fun k => by simp only [signalVal]; omega

/-- The wait of a submit is over as soon as the core's queue has finished the frame before. -/
theorem mayStart_of_finished (hN : 2 ≤ N) (hi : Handoff.Inv (producer N (Nat.zero_lt_of_lt hN)) s)
    (h : s.started = s.finished) :
    (producer N (Nat.zero_lt_of_lt hN)).mayStart s.started s = true := by
  show (!doWait N (s.started + 1) || decide (waitVal N (s.started + 1) ≤ s.produce)) = true
  rw [Bool.or_eq_true, decide_eq_true_eq]
  refine Or.inr ?_
  have hproduce : s.produce = 2 * s.finished := by
    rw [hi.produce]
    cases s.finished <;> rfl
  rw [hproduce, h, waitVal]
  split_ifs <;> omega

/-- The composite that a step of the host's queue finishes. -/
def composited (s : Handoff) (a : Action) : Option Composite :=
  match a, s.stage with
  | .complete, .running c => some c
  | _, _ => none

/-- A composite finishes in a `complete` of the one that executes. -/
theorem of_composited {a : Action} {c : Composite} (h : composited s a = some c) :
    a = .complete ∧ s.stage = .running c := by
  unfold composited at h
  split at h
  · next hstage => exact ⟨rfl, hstage.trans (congrArg _ (Option.some.inj h))⟩
  · exact nomatch h

/-- The machine of the core, with the host's finished composites. -/
def presented (N : ℕ) (hN : 0 < N) : Machine (Handoff × List Composite) Action :=
  (Handoff.machine (producer N hN)).observed composited

/-- The host keeps up with the core: the queue starts frame `f > N` only after a composite of frame
`f - N` or of a later one has finished. -/
def KeepsUp (N : ℕ) (p : Handoff × List Composite) (a : Action) : Prop :=
  a = .start → N < p.1.started + 1 → ∃ c ∈ p.2, signalVal (p.1.started + 1 - N) ≤ c.syncValue

instance (N : ℕ) (p : Handoff × List Composite) (a : Action) : Decidable (KeepsUp N p a) :=
  inferInstanceAs (Decidable (a = .start → N < p.1.started + 1 → _))

/-- The exclusive use of the slots: no frame is written to its slot while the host's first composite
of an earlier frame in that slot has been submitted and has not finished, and the wait value of
every frame that has been started was reached by the host. -/
structure Exclusive (N : ℕ) (s : Handoff) : Prop where
  exclusive : ∀ c f, s.stage = .queued c ∨ s.stage = .running c → s.consume ≤ c.syncValue →
    s.images (slotOf N (f + 1)) = .writing f → slotOf N (f + 1) = c.index →
    ¬c.syncValue < signalVal (f + 1)
  reached : ∀ f < s.started, N < f + 1 → waitVal N (f + 1) ≤ s.consume

/-! ### What the host's composites do to the consume timeline -/

/-- The host has consumed every frame it has composited. -/
structure Consumed (N : ℕ) (hN : 0 < N) (p : Handoff × List Composite) : Prop where
  inv : Handoff.Inv (producer N hN) p.1
  consumed : ∀ c ∈ p.2, c.syncValue < p.1.consume

/-- Only a step that finishes a composite adds to the history, and it consumes the frame. -/
theorem Consumed.step (hN : 2 ≤ N) {p p' : Handoff × List Composite} {a : Action}
    (h : Consumed N (Nat.zero_lt_of_lt hN) p)
    (hstep : (presented N (Nat.zero_lt_of_lt hN)).step p a = some p') :
    Consumed N (Nat.zero_lt_of_lt hN) p' := by
  obtain ⟨hstep, hseen⟩ := Machine.observed_step.mp hstep
  have hinv := h.inv.step hN hstep
  refine ⟨hinv, fun c hc => ?_⟩
  rw [hseen, List.mem_append, Option.mem_toList] at hc
  rcases hc with hc | hc
  · -- The composite finishes in this step.
    obtain ⟨rfl, hrunning⟩ := of_composited hc
    obtain ⟨c', hstage, hs'⟩ := Handoff.step_complete (P := producer N (Nat.zero_lt_of_lt hN)) hstep
    obtain rfl := Stage.running.inj (hrunning.symm.trans hstage)
    exact (hinv.complete c (congrArg Handoff.stage hs')).2
  · exact Nat.lt_of_lt_of_le (h.consumed c hc) (Handoff.step_frame hstep).consume

/-- When the host keeps up, it has reached the wait value of every frame that is started. -/
theorem KeepsUp.reached {hN : 0 < N} {p : Handoff × List Composite} (h : KeepsUp N p .start)
    (hconsumed : Consumed N hN p) (hwaits : N < p.1.started + 1) :
    waitVal N (p.1.started + 1) ≤ p.1.consume := by
  obtain ⟨c, hc, hle⟩ := h rfl hwaits
  have hlt := hconsumed.consumed c hc
  rw [waitVal, if_pos hwaits]
  rw [signalVal] at hle
  omega

/-- When the host keeps up, the core keeps the contract of `consume_sync_handle`. -/
theorem KeepsUp.released {hN : 0 < N} {p : Handoff × List Composite} {a : Action}
    (h : KeepsUp N p a) (hconsumed : Consumed N hN p) :
    Handoff.Released (producer N hN) p.1 a := by
  rintro rfl g hg hslot
  have hle : g + 1 + N ≤ p.1.started + 1 := Nat.ModEq.add_le_of_lt hslot (Nat.succ_lt_succ hg)
  have hwait := h.reached hconsumed (by omega)
  rw [waitVal, if_pos (by omega)] at hwait
  show signalVal (g + 1) < p.1.consume
  rw [signalVal]
  omega

section Run

variable {width height : UInt32} {generation : ℕ} {swapchain : Bool} {as : List Action}
  {p : Handoff × List Composite}

/-- At the start the host has composited nothing. -/
theorem init_consumed (hN : 2 ≤ N) :
    Consumed N (Nat.zero_lt_of_lt hN) (Handoff.init N width height generation swapchain, []) :=
  ⟨Handoff.init_inv hN width height generation swapchain, fun _ hc => nomatch hc⟩

/-- A run in which the host keeps up is one that keeps the contract of `consume_sync_handle`. -/
theorem run_released (hN : 2 ≤ N)
    (h : Machine.Run (presented N (Nat.zero_lt_of_lt hN)) (KeepsUp N)
      (Handoff.init N width height generation swapchain, []) as p) :
    Machine.Run (Handoff.machine (producer N (Nat.zero_lt_of_lt hN)))
      (Handoff.Released (producer N (Nat.zero_lt_of_lt hN)))
      (Handoff.init N width height generation swapchain) as p.1 := by
  refine Machine.Run.unobserved (p := (Handoff.init N width height generation swapchain, []))
    (h.strengthen (init_consumed hN) ?_ ?_)
  · exact fun _ _ _ hconsumed _ hstep => hconsumed.step hN hstep
  · exact fun _ _ _ hconsumed hkeeps _ => hkeeps.released hconsumed

/-- In a run in which the host keeps up, it has reached the wait value of every frame that has been
started. -/
theorem run_reached (hN : 2 ≤ N)
    (h : Machine.Run (presented N (Nat.zero_lt_of_lt hN)) (KeepsUp N)
      (Handoff.init N width height generation swapchain, []) as p) :
    ∀ f < p.1.started, N < f + 1 → waitVal N (f + 1) ≤ p.1.consume := by
  refine (h.invariant (I := fun p => Consumed N (Nat.zero_lt_of_lt hN) p ∧
    ∀ f < p.1.started, N < f + 1 → waitVal N (f + 1) ≤ p.1.consume)
    ⟨init_consumed hN, fun _ hf => nomatch hf⟩ ?_).2
  intro p a p' ⟨hconsumed, ih⟩ hkeeps hstep
  refine ⟨hconsumed.step hN hstep, fun f hf hNf => ?_⟩
  obtain ⟨hstep, -⟩ := Machine.observed_step.mp hstep
  have hframe := Handoff.step_frame hstep
  refine Nat.le_trans ?_ hframe.consume
  by_cases hstart : a = .start
  · subst hstart
    obtain ⟨-, -, -, hs'⟩ := Handoff.step_start hstep
    rw [hs'] at hf
    rcases Nat.lt_succ_iff_lt_or_eq.mp hf with hf | rfl
    · exact ih f hf hNf
    · exact hkeeps.reached hconsumed hNf
  · exact ih f (hframe.started hstart ▸ hf) hNf

/-- In a run in which the host keeps up the core uses its slots exclusively. -/
theorem exclusive_of_composited (hN : 2 ≤ N)
    (h : Machine.Run (presented N (Nat.zero_lt_of_lt hN)) (KeepsUp N)
      (Handoff.init N width height generation swapchain, []) as p) : Exclusive N p.1 where
  exclusive := by
    intro c f hstage hfirst hwriting hslot hlt
    have hi := Handoff.run_inv hN (run_released hN h)
    have hk := Handoff.run_kept (run_released hN h)
    have hc : p.1.stage.composite = some c := by
      rcases hstage with hstage | hstage <;> rw [hstage] <;> rfl
    exact absurd hlt (Nat.not_lt.mpr (hi.firstComposite_exclusive hk hc hfirst (hslot ▸ hwriting)))
  reached := run_reached hN h

end Run

/-! ### Runs with three slots -/

/-- The host keeps up, and its composite of frame 5 waits while that frame is written. -/
def keepsUp : List Action :=
  Handoff.renderFrame ++ Handoff.presentFrame ++ Handoff.renderFrame ++ Handoff.presentFrame ++
    Handoff.renderFrame ++ Handoff.renderFrame ++ Handoff.presentFrame ++
    [.submit, .report, .start, .take, .enqueue]

/-- The host is in the middle of its first composite of frame 1 when the core has rendered two more
frames and starts frame 4, in the same slot. -/
def lapped : List Action :=
  Handoff.renderFrame ++ [.take, .enqueue, .execute] ++ Handoff.renderFrame ++
    Handoff.renderFrame ++
    [.submit, .report, .start]

/-- With three slots and a host that keeps up. -/
theorem exclusive_of_composited_keepsUp :
    Exclusive 3 ((Machine.exec (presented 3 (by decide)) (KeepsUp 3)
      (Handoff.init 3 64 64 0 false, []) keepsUp).get (by decide +kernel)).1 :=
  exclusive_of_composited (by decide) (Machine.run_get (by decide +kernel))

/-- The first composite of frame 1. -/
def firstComposite : Composite :=
  { index := 1, syncValue := 2,
    submission := { wait := some (.produce, 2), signal := some (.consume, 3) } }

/-- Frame 4 is written to slot 1 while the first composite of frame 1 samples it. -/
theorem lapped_not_exclusive :
    ∃ s, Machine.Run (Handoff.machine (producer 3 (by decide))) Machine.always
        (Handoff.init 3 64 64 0 false) lapped s ∧
      s.images 1 = .writing 3 ∧ s.stage = .running firstComposite ∧ s.consume = 0 ∧
        ¬Exclusive 3 s := by
  have hend : ∃ s, Machine.Run (Handoff.machine (producer 3 (by decide))) Machine.always
        (Handoff.init 3 64 64 0 false) lapped s ∧
      s.images 1 = .writing 3 ∧ s.stage = .running firstComposite ∧ s.consume = 0 :=
    Machine.exists_run (by decide +kernel)
  obtain ⟨s, hrun, himage, hstage, hconsume⟩ := hend
  refine ⟨s, hrun, himage, hstage, hconsume, fun hexclusive => ?_⟩
  refine hexclusive.exclusive firstComposite 3 (Or.inr hstage) ?_ himage rfl (by decide)
  rw [hconsume]
  exact Nat.zero_le _

end RefCoreVk

end RetroPark.Vulkan
