import RetroPark.Runtime.Runtime
import RetroPark.Render.Vulkan.VulkanBackend
import RetroPark.Support.Machine
import Mathlib.Order.Monotone.Basic

/-!
# The slots and timelines shared by a presenting core and the Vulkan backend

A presenting core renders its frames into the slots of a surface set and reports each one to the
ring; the host composites the frame reported last, or the last one it took while paused. Two
timeline semaphores order the work of the two GPU queues: the core's queue signals `produce` when a
frame is complete, and the backend's queue waits for it and signals `consume`.

`handoff P` is the machine of a core `P`, its queue, the host thread and the host's queue between
two reallocations of the surfaces. The timelines are monotone counters, the submissions of a queue
execute one after another, and the steps of the four parties interleave. A present returns once its
composite has finished: the time limits of the waits are left out, and so is a present with nothing
to show, which touches neither timeline.

* `Inv` is what relates the counters, the ring, the backend and the images in every reachable state;
* `Released` says that a slot is rewritten only once its frames have been consumed, and
  `Inv.firstComposite_exclusive` and `Inv.firstComposite_holds` what follows for the first composite
  of a frame;
* `target_eq_renderTarget` and `PresentCall.refines` connect the steps of the host with `Runtime`
  and with `VulkanBackend`.
-/

namespace RetroPark.Vulkan

/-- What the image of a slot holds. -/
inductive Image
  | undefined
  /-- The GPU is writing the frame. -/
  | writing (f : ℕ)
  /-- The frame is complete. -/
  | holds (f : ℕ)
  deriving DecidableEq, Repr

/-- A call of `composite_and_present`, with what it submits to the timelines. -/
structure Composite where
  index : ℕ
  syncValue : ℕ
  submission : Submission
  deriving DecidableEq, Repr

/-- How far the host is with a present. -/
inductive Stage
  | idle
  /-- `render` has looked up the frame, and nothing has been submitted. -/
  | taken (c : Composite)
  /-- The composite has been submitted, and waits for its turn and its wait value. -/
  | queued (c : Composite)
  | running (c : Composite)
  /-- The composite has finished on the GPU. -/
  | finished (c : Composite)
  deriving DecidableEq, Repr

/-- The composite of a present, from the look-up to its return. -/
def Stage.composite : Stage → Option Composite
  | .idle => none
  | .taken c | .queued c | .running c | .finished c => some c

/-- The state shared by a core and the host. Frames are counted from 0 in the order in which the
core submits them. -/
structure Handoff where
  /-- The number of frames the core has submitted to its queue. -/
  submitted : ℕ := 0
  /-- The number of frames the core has reported to the ring. -/
  reported : ℕ := 0
  /-- The number of frames the core's queue has started to render. -/
  started : ℕ := 0
  /-- The number of frames the core's queue has finished. -/
  finished : ℕ := 0
  /-- The value of the produce timeline. -/
  produce : ℕ := 0
  /-- The value of the consume timeline. -/
  consume : ℕ := 0
  images : ℕ → Image := fun _ => .undefined
  ring : SurfaceRing
  backend : VulkanBackend
  paused : Bool := false
  /-- The slot and sync value the runtime keeps for presents while paused. -/
  lastReady : Option (ℕ × ℕ) := none
  stage : Stage := .idle

/-- A presenting core with `N` slots: where it renders each frame, the value its queue signals once
the frame is complete, and what it waits for. -/
structure Producer (N : ℕ) where
  slot : ℕ → ℕ
  value : ℕ → ℕ
  /-- Whether the waits of the core's thread before it submits a frame are over. -/
  maySubmit : ℕ → Handoff → Bool
  /-- Whether the wait of the submit of a frame is over. -/
  mayStart : ℕ → Handoff → Bool
  slot_lt : ∀ f, slot f < N
  value_pos : ∀ f, 0 < value f
  value_strictMono : StrictMono value

namespace Producer

variable {N : ℕ} (P : Producer N)

/-- The slot and sync value of a frame, as the ring records them. -/
def frame (f : ℕ) : ℕ × ℕ := (P.slot f, P.value f)

/-- What the ring has ready after the first `n` frames. -/
def latest : ℕ → Option (ℕ × ℕ)
  | 0 => none
  | f + 1 => some (P.frame f)

/-- The produce timeline after the first `n` frames. -/
def reached : ℕ → ℕ
  | 0 => 0
  | f + 1 => P.value f

variable {P}

/-- Frames differ in their values. -/
theorem frame_inj {f g : ℕ} (h : P.frame f = P.frame g) : f = g :=
  P.value_strictMono.injective (congrArg Prod.snd h)

/-- The frame with the smaller value is the earlier one. -/
theorem lt_of_value_lt {f g : ℕ} (h : P.value f < P.value g) : f < g :=
  P.value_strictMono.lt_iff_lt.mp h

/-- A later frame has a larger value. -/
theorem value_lt {f g : ℕ} (h : f < g) : P.value f < P.value g := P.value_strictMono h

/-- No later frame has a smaller value. -/
theorem value_le {f g : ℕ} (h : f ≤ g) : P.value f ≤ P.value g := P.value_strictMono.monotone h

/-- The value of a frame is not reached before the frames before it. -/
theorem reached_le (n : ℕ) : P.reached n ≤ P.value n := by
  cases n with
  | zero => exact Nat.zero_le _
  | succ f => exact Nat.le_of_lt (P.value_strictMono (Nat.lt_succ_self f))

/-- The produce timeline has reached the value of a frame exactly when the frame is complete. -/
theorem value_le_reached {f n : ℕ} : P.value f ≤ P.reached n ↔ f < n := by
  cases n with
  | zero => exact ⟨fun h => absurd (P.value_pos f) (Nat.not_lt.mpr h), fun h => nomatch h⟩
  | succ g => exact P.value_strictMono.le_iff_le.trans Nat.lt_succ_iff.symm

/-- What the ring has ready is the last frame reported. -/
theorem latest_eq_some {n : ℕ} {t : ℕ × ℕ} (h : P.latest n = some t) :
    ∃ f, f + 1 = n ∧ t = P.frame f := by
  cases n with
  | zero => exact nomatch h
  | succ f => exact ⟨f, rfl, (Option.some.inj h).symm⟩

end Producer

/-- Whether the value a submit waits for has been reached. -/
def Submission.isReached (s : Submission) (produce consume : ℕ) : Bool :=
  match s.wait with
  | some (.produce, v) => decide (v ≤ produce)
  | some (.consume, v) => decide (v ≤ consume)
  | none => true

/-- The value of a timeline after the signal of a submit. -/
def Submission.raise (s : Submission) (t : Timeline) (value : ℕ) : ℕ :=
  match s.signal with
  | some (t', v) => if t' = t then max value v else value
  | none => value

/-- A step of the core's thread, of the core's queue, of the host's thread or of the host's
queue. -/
inductive Action
  | submit
  | report
  | start
  | finish
  /-- The host looks up the frame to present. -/
  | take
  /-- The present fails before its submit. -/
  | refuse
  | enqueue
  | execute
  | complete
  /-- The present returns. -/
  | conclude (ok : Bool)
  | pause
  | resume
  deriving DecidableEq, Repr

namespace Handoff

variable {N : ℕ}

/-- The state after `allocate_surfaces` and the reallocation of a ring of the given generation. -/
def init (N : ℕ) (width height : UInt32) (generation : ℕ) (swapchain : Bool) : Handoff :=
  { ring := ({ SurfaceRing.new N with generation }).reallocate width height
    backend := { device := true, surfaces := N, consumeTimeline := true, swapchain } }

/-- The frame the next present shows: the last one taken while paused, and otherwise the last one
reported. -/
def target (s : Handoff) : Option (ℕ × ℕ) := if s.paused then s.lastReady else s.ring.latestReady

/-- The transition function. -/
def step (P : Producer N) (s : Handoff) : Action → Option Handoff
  | .submit =>
      if s.reported = s.submitted ∧ P.maySubmit s.submitted s then
        some { s with submitted := s.submitted + 1 }
      else none
  | .report =>
      -- The core echoes the generation of its surfaces, which is the ring's.
      if s.reported < s.submitted then
        some { s with
          reported := s.reported + 1
          ring := (s.ring.acceptSubmit (P.slot s.reported) s.ring.generation
            (P.value s.reported)).2 }
      else none
  | .start =>
      if s.started = s.finished ∧ s.started < s.submitted ∧ P.mayStart s.started s then
        some { s with
          started := s.started + 1
          images := Function.update s.images (P.slot s.started) (.writing s.started) }
      else none
  | .finish =>
      if s.finished < s.started then
        some { s with
          finished := s.finished + 1
          produce := P.value s.finished
          images := Function.update s.images (P.slot s.finished) (.holds s.finished) }
      else none
  | .take =>
      match s.stage, s.target with
      | .idle, some (index, syncValue) =>
          some { s with
            lastReady := some (index, syncValue)
            stage := .taken ⟨index, syncValue, s.backend.submission syncValue true⟩ }
      | _, _ => none
  | .refuse =>
      match s.stage with
      | .taken _ => some { s with stage := .idle }
      | _ => none
  | .enqueue =>
      match s.stage with
      | .taken c => some { s with stage := .queued c }
      | _ => none
  | .execute =>
      match s.stage with
      | .queued c =>
          if c.submission.isReached s.produce s.consume then some { s with stage := .running c }
          else none
      | _ => none
  | .complete =>
      match s.stage with
      | .running c =>
          some { s with
            produce := c.submission.raise .produce s.produce
            consume := c.submission.raise .consume s.consume
            stage := .finished c }
      | _ => none
  | .conclude ok =>
      match s.stage with
      | .finished c =>
          some { s with
            backend := if ok then s.backend.consumed c.syncValue true else s.backend
            stage := .idle }
      | _ => none
  | .pause => if s.stage = .idle then some { s with paused := true } else none
  | .resume => if s.stage = .idle then some { s with paused := false } else none

/-- The machine of a core and the host. -/
def machine (P : Producer N) : Machine Handoff Action := ⟨step P⟩

/-- The core renders and reports one frame. -/
def renderFrame : List Action := [.submit, .report, .start, .finish]

/-- The host presents one frame. -/
def presentFrame : List Action := [.take, .enqueue, .execute, .complete, .conclude true]

/-! ### What a step can do -/

variable {P : Producer N} {s s' : Handoff}

/-- What the core's thread does when it submits a frame. -/
theorem step_submit (h : step P s .submit = some s') :
    s.reported = s.submitted ∧ P.maySubmit s.submitted s = true ∧
      s' = { s with submitted := s.submitted + 1 } := by
  obtain ⟨⟨hreported, hmay⟩, h⟩ := Option.ite_none_right_eq_some.mp h
  exact ⟨hreported, hmay, (Option.some.inj h).symm⟩

/-- What the core's thread does when it reports a frame. -/
theorem step_report (h : step P s .report = some s') :
    s.reported < s.submitted ∧
      s' = { s with
        reported := s.reported + 1
        ring := (s.ring.acceptSubmit (P.slot s.reported) s.ring.generation
          (P.value s.reported)).2 } := by
  obtain ⟨hlt, h⟩ := Option.ite_none_right_eq_some.mp h
  exact ⟨hlt, (Option.some.inj h).symm⟩

/-- What the core's queue does when it starts a frame. -/
theorem step_start (h : step P s .start = some s') :
    s.started = s.finished ∧ s.started < s.submitted ∧ P.mayStart s.started s = true ∧
      s' = { s with
        started := s.started + 1
        images := Function.update s.images (P.slot s.started) (.writing s.started) } := by
  obtain ⟨⟨hstarted, hlt, hmay⟩, h⟩ := Option.ite_none_right_eq_some.mp h
  exact ⟨hstarted, hlt, hmay, (Option.some.inj h).symm⟩

/-- What the core's queue does when it finishes a frame. -/
theorem step_finish (h : step P s .finish = some s') :
    s.finished < s.started ∧
      s' = { s with
        finished := s.finished + 1
        produce := P.value s.finished
        images := Function.update s.images (P.slot s.finished) (.holds s.finished) } := by
  obtain ⟨hlt, h⟩ := Option.ite_none_right_eq_some.mp h
  exact ⟨hlt, (Option.some.inj h).symm⟩

/-- What the host does when it looks up the frame to present. -/
theorem step_take (h : step P s .take = some s') :
    s.stage = .idle ∧ ∃ t, s.target = some t ∧
      s' = { s with
        lastReady := some t
        stage := .taken ⟨t.1, t.2, s.backend.submission t.2 true⟩ } := by
  simp only [step] at h
  split at h
  · next index syncValue hstage htarget =>
    exact ⟨hstage, _, htarget, (Option.some.inj h).symm⟩
  · exact nomatch h

/-- A present that fails before its submit has only looked up its frame. -/
theorem step_refuse (h : step P s .refuse = some s') :
    ∃ c, s.stage = .taken c ∧ s' = { s with stage := .idle } := by
  simp only [step] at h
  split at h
  · next c hstage => exact ⟨c, hstage, (Option.some.inj h).symm⟩
  · exact nomatch h

/-- What the host does when it submits a composite. -/
theorem step_enqueue (h : step P s .enqueue = some s') :
    ∃ c, s.stage = .taken c ∧ s' = { s with stage := .queued c } := by
  simp only [step] at h
  split at h
  · next c hstage => exact ⟨c, hstage, (Option.some.inj h).symm⟩
  · exact nomatch h

/-- A composite is executed once its wait value has been reached. -/
theorem step_execute (h : step P s .execute = some s') :
    ∃ c, s.stage = .queued c ∧ c.submission.isReached s.produce s.consume = true ∧
      s' = { s with stage := .running c } := by
  simp only [step] at h
  split at h
  · next c hstage =>
    obtain ⟨hreached, h⟩ := Option.ite_none_right_eq_some.mp h
    exact ⟨c, hstage, hreached, (Option.some.inj h).symm⟩
  · exact nomatch h

/-- What the host's queue does when a composite has finished: it signals. -/
theorem step_complete (h : step P s .complete = some s') :
    ∃ c, s.stage = .running c ∧
      s' = { s with
        produce := c.submission.raise .produce s.produce
        consume := c.submission.raise .consume s.consume
        stage := .finished c } := by
  simp only [step] at h
  split at h
  · next c hstage => exact ⟨c, hstage, (Option.some.inj h).symm⟩
  · exact nomatch h

/-- What the host does when a present returns: it may remember the frame. -/
theorem step_conclude {ok : Bool} (h : step P s (.conclude ok) = some s') :
    ∃ c, s.stage = .finished c ∧
      s' = { s with
        backend := if ok then s.backend.consumed c.syncValue true else s.backend
        stage := .idle } := by
  simp only [step] at h
  split at h
  · next c hstage => exact ⟨c, hstage, (Option.some.inj h).symm⟩
  · exact nomatch h

/-- The host pauses between two presents. -/
theorem step_pause (h : step P s .pause = some s') :
    s.stage = .idle ∧ s' = { s with paused := true } := by
  obtain ⟨hstage, h⟩ := Option.ite_none_right_eq_some.mp h
  exact ⟨hstage, (Option.some.inj h).symm⟩

/-- The host resumes between two presents. -/
theorem step_resume (h : step P s .resume = some s') :
    s.stage = .idle ∧ s' = { s with paused := false } := by
  obtain ⟨hstage, h⟩ := Option.ite_none_right_eq_some.mp h
  exact ⟨hstage, (Option.some.inj h).symm⟩

/-! ### What the host's thread and its queue are ready to do -/

variable {c : Composite}

/-- An idle host takes the frame it finds. -/
theorem take_of_idle (hstage : s.stage = .idle) {t : ℕ × ℕ} (htarget : s.target = some t) :
    step P s .take =
      some { s with
        lastReady := some t
        stage := .taken ⟨t.1, t.2, s.backend.submission t.2 true⟩ } := by
  simp only [step, hstage, htarget]

/-- A present may fail as soon as it has its frame. -/
theorem refuse_of_taken (hstage : s.stage = .taken c) :
    step P s .refuse = some { s with stage := .idle } := by
  simp only [step, hstage]

/-- A present that has its frame may submit its composite. -/
theorem enqueue_of_taken (hstage : s.stage = .taken c) :
    step P s .enqueue = some { s with stage := .queued c } := by
  simp only [step, hstage]

/-- A submitted composite executes once its wait value has been reached. -/
theorem execute_of_queued (hstage : s.stage = .queued c)
    (hreached : c.submission.isReached s.produce s.consume = true) :
    step P s .execute = some { s with stage := .running c } := by
  simp only [step, hstage, hreached, if_true]

/-- A composite that executes may finish. -/
theorem complete_of_running (hstage : s.stage = .running c) :
    step P s .complete =
      some { s with
        produce := c.submission.raise .produce s.produce
        consume := c.submission.raise .consume s.consume
        stage := .finished c } := by
  simp only [step, hstage]

/-- A present whose composite has finished may return, whatever it answers. -/
theorem conclude_of_finished (hstage : s.stage = .finished c) (ok : Bool) :
    step P s (.conclude ok) =
      some { s with
        backend := if ok then s.backend.consumed c.syncValue true else s.backend
        stage := .idle } := by
  simp only [step, hstage]

/-! ### The submission of a composite -/

section Submission

variable {b : VulkanBackend} {v x produce consume : ℕ}

/-- With two slots or more, the backend signals the consume timeline. -/
theorem consumeSem_eq (hN : 2 ≤ N) (hsurfaces : b.surfaces = N)
    (hconsume : b.consumeTimeline = true) :
    b.consumeSem = .consume := by
  rw [VulkanBackend.consumeSem, hsurfaces, hconsume, decide_eq_true hN]
  rfl

/-- With two slots or more, a composite never moves the produce timeline. -/
theorem raise_produce (hsem : b.consumeSem = .consume) :
    (b.submission v true).raise .produce x = x := by
  unfold VulkanBackend.submission
  split_ifs
  · rw [hsem]
    rfl
  · rfl

/-- Only the composite of a frame that has not been presented moves the consume timeline. -/
theorem raise_consume (hsem : b.consumeSem = .consume) :
    (b.submission v true).raise .consume x =
      if b.lastPresentSync < v then max x (v + 1) else x := by
  unfold VulkanBackend.submission
  rw [hsem, VulkanBackend.newFrame, Bool.true_and]
  by_cases hlast : b.lastPresentSync < v
  · rw [if_pos (decide_eq_true hlast), if_pos hlast]
    rfl
  · rw [if_neg (mt of_decide_eq_true hlast), if_neg hlast]
    rfl

/-- Only the composite of a frame that has not been presented waits, and it waits for its frame. -/
theorem isReached_iff :
    (b.submission v true).isReached produce consume = true ↔
      (b.lastPresentSync < v → v ≤ produce) := by
  unfold VulkanBackend.submission
  rw [VulkanBackend.newFrame, Bool.true_and]
  by_cases hlast : b.lastPresentSync < v
  · rw [if_pos (decide_eq_true hlast)]
    exact decide_eq_true_iff.trans ⟨fun h _ => h, fun h => h hlast⟩
  · rw [if_neg (mt of_decide_eq_true hlast)]
    exact ⟨fun _ h => absurd h hlast, fun _ => rfl⟩

/-- Only the composite of a frame that has not been presented signals. -/
theorem signal_isSome_iff : (b.submission v true).signal.isSome = true ↔ b.lastPresentSync < v := by
  unfold VulkanBackend.submission
  rw [VulkanBackend.newFrame, Bool.true_and]
  by_cases hlast : b.lastPresentSync < v
  · rw [if_pos (decide_eq_true hlast)]
    exact ⟨fun _ => hlast, fun _ => rfl⟩
  · rw [if_neg (mt of_decide_eq_true hlast)]
    exact ⟨by rintro ⟨⟩, fun h => absurd h hlast⟩

end Submission

/-! ### The invariant -/

/-- No frame after `g` has been started in the slot of frame `g`. -/
def Intact (P : Producer N) (s : Handoff) (g : ℕ) : Prop :=
  ∀ f < s.started, g < f → P.slot f ≠ P.slot g

/-- What holds in every reachable state. -/
structure Inv (P : Producer N) (s : Handoff) : Prop where
  surfaces : s.backend.surfaces = N
  consumeTimeline : s.backend.consumeTimeline = true
  slotCount : s.ring.slotCount = N
  finished_le : s.finished ≤ s.started
  started_le : s.started ≤ s.finished + 1
  started_le_submitted : s.started ≤ s.submitted
  reported_le : s.reported ≤ s.submitted
  submitted_le : s.submitted ≤ s.reported + 1
  produce : s.produce = P.reached s.finished
  latest : s.ring.latestReady = P.latest s.reported
  /-- The host has taken reported frames only. -/
  taken : ∀ t, s.lastReady = some t → ∃ f < s.reported, t = P.frame f
  /-- The consume timeline is not beyond the frame taken last. -/
  consume_le : 0 < s.consume → ∃ t, s.lastReady = some t ∧ s.consume ≤ t.2 + 1
  lastPresentSync_le : s.backend.lastPresentSync ≤ s.produce
  lastPresentSync_lt : 0 < s.backend.lastPresentSync → s.backend.lastPresentSync < s.consume
  /-- A present is of the frame taken last, and submits what the backend decides now. -/
  composite : ∀ c, s.stage.composite = some c →
    s.lastReady = some (c.index, c.syncValue) ∧ c.submission = s.backend.submission c.syncValue true
  /-- The frame of a composite that is sampled, or has been, is complete. -/
  running : ∀ c, s.stage = .running c → c.syncValue ≤ s.produce
  complete : ∀ c, s.stage = .finished c → c.syncValue ≤ s.produce ∧ c.syncValue < s.consume
  /-- The frame started last in a slot is in it. -/
  image : ∀ g < s.started, Intact P s g →
    s.images (P.slot g) = if g < s.finished then .holds g else .writing g
  writing : ∀ i f, s.images i = .writing f → f < s.started ∧ s.finished ≤ f ∧ P.slot f = i

/-! ### The invariant holds in every reachable state -/

/-- The invariant holds when the surfaces have just been allocated. -/
theorem init_inv (hN : 2 ≤ N) (width height : UInt32) (generation : ℕ) (swapchain : Bool) :
    Inv P (init N width height generation swapchain) where
  surfaces := rfl
  consumeTimeline := rfl
  slotCount := if_neg (by omega)
  finished_le := Nat.le_refl _
  started_le := Nat.zero_le _
  started_le_submitted := Nat.le_refl _
  reported_le := Nat.le_refl _
  submitted_le := Nat.zero_le _
  produce := rfl
  latest := rfl
  taken := fun _ h => nomatch h
  consume_le := fun h => nomatch h
  lastPresentSync_le := Nat.le_refl _
  lastPresentSync_lt := fun h => nomatch h
  composite := fun _ h => nomatch h
  running := fun _ h => nomatch h
  complete := fun _ h => nomatch h
  image := fun _ h => nomatch h
  writing := fun _ _ h => nomatch h

namespace Inv

/-- In every reachable state the backend signals the consume timeline. -/
theorem consumeSem (hN : 2 ≤ N) (hi : Inv P s) : s.backend.consumeSem = .consume :=
  consumeSem_eq hN hi.surfaces hi.consumeTimeline

/-- The next present shows a reported frame, and none before the one taken last. -/
theorem target (hi : Inv P s) {t : ℕ × ℕ} (h : s.target = some t) :
    (∃ f < s.reported, t = P.frame f) ∧ ∀ t₀, s.lastReady = some t₀ → t₀.2 ≤ t.2 := by
  unfold Handoff.target at h
  split_ifs at h with hpaused
  · exact ⟨hi.taken t h,
      fun t₀ h₀ => Nat.le_of_eq (congrArg Prod.snd (Option.some.inj (h₀.symm.trans h)))⟩
  · obtain ⟨f, hf, rfl⟩ := Producer.latest_eq_some (hi.latest.symm.trans h)
    refine ⟨⟨f, by omega, rfl⟩, fun t₀ h₀ => ?_⟩
    obtain ⟨f₀, hf₀, rfl⟩ := hi.taken t₀ h₀
    exact Producer.value_le (by omega)

/-- The frame of a present. -/
theorem frame (hi : Inv P s) {c : Composite} (hc : s.stage.composite = some c) :
    ∃ g < s.reported, c.index = P.slot g ∧ c.syncValue = P.value g := by
  obtain ⟨g, hg, heq⟩ := hi.taken _ (hi.composite c hc).1
  exact ⟨g, hg, congrArg Prod.fst heq, congrArg Prod.snd heq⟩

/-- The sync value of a present is positive. -/
theorem syncValue_pos (hi : Inv P s) {c : Composite} (hc : s.stage.composite = some c) :
    0 < c.syncValue := by
  obtain ⟨g, -, -, hg⟩ := hi.frame hc
  exact hg ▸ P.value_pos g

/-! One lemma for each step. -/

/-- A submit of the core keeps the invariant. -/
theorem submit (hi : Inv P s) (h : step P s .submit = some s') : Inv P s' := by
  obtain ⟨hreported, -, rfl⟩ := step_submit h
  exact { hi with
    started_le_submitted := Nat.le_succ_of_le hi.started_le_submitted
    reported_le := Nat.le_succ_of_le hi.reported_le
    submitted_le := Nat.succ_le_succ (Nat.le_of_eq hreported.symm) }

/-- A report keeps the invariant: what it reports is ready afterwards. -/
theorem report (hi : Inv P s) (h : step P s .report = some s') : Inv P s' := by
  obtain ⟨hlt, rfl⟩ := step_report h
  have hslot : P.slot s.reported < s.ring.slotCount := by
    rw [hi.slotCount]
    exact P.slot_lt _
  exact { hi with
    slotCount := (SurfaceRing.acceptSubmit_slotCount _ _ _ _).trans hi.slotCount
    reported_le := hlt
    submitted_le := Nat.le_succ_of_le hi.submitted_le
    latest := SurfaceRing.latestReady_acceptSubmit hslot
    taken := fun t ht =>
      let ⟨f, hf, heq⟩ := hi.taken t ht
      ⟨f, Nat.lt_succ_of_lt hf, heq⟩ }

/-- The start of a frame keeps the invariant: its slot is being written. -/
theorem start (hi : Inv P s) (h : step P s .start = some s') : Inv P s' := by
  obtain ⟨hstarted, hlt, -, rfl⟩ := step_start h
  refine { hi with
    finished_le := Nat.le_succ_of_le hi.finished_le
    started_le := Nat.succ_le_succ (Nat.le_of_eq hstarted)
    started_le_submitted := hlt
    image := ?_
    writing := ?_ }
  · intro g hg hintact
    show Function.update s.images _ _ _ = if g < s.finished then _ else _
    rcases Nat.lt_succ_iff_lt_or_eq.mp hg with hg | rfl
    · -- An older frame that is still in its slot is not in the slot of the new one.
      have hne := hintact s.started (Nat.lt_succ_self _) hg
      rw [Function.update_of_ne hne.symm]
      exact hi.image g hg fun f hf => hintact f (Nat.lt_succ_of_lt hf)
    · rw [Function.update_self, if_neg (by omega)]
  · intro i f hf
    change Function.update s.images _ _ i = _ at hf
    by_cases hslot : i = P.slot s.started
    · subst hslot
      rw [Function.update_self] at hf
      obtain rfl := Image.writing.inj hf
      exact ⟨Nat.lt_succ_self _, hi.finished_le, rfl⟩
    · rw [Function.update_of_ne hslot] at hf
      obtain ⟨hlt', hle, heq⟩ := hi.writing i f hf
      exact ⟨Nat.lt_succ_of_lt hlt', hle, heq⟩

/-- The end of a frame keeps the invariant: its slot holds it. -/
theorem finish (hi : Inv P s) (h : step P s .finish = some s') : Inv P s' := by
  obtain ⟨hlt, rfl⟩ := step_finish h
  have hproduce : s.produce ≤ P.value s.finished := hi.produce ▸ P.reached_le _
  refine { hi with
    finished_le := hlt
    started_le := Nat.le_succ_of_le hi.started_le
    produce := rfl
    lastPresentSync_le := Nat.le_trans hi.lastPresentSync_le hproduce
    running := fun c hc => Nat.le_trans (hi.running c hc) hproduce
    complete := fun c hc => ⟨Nat.le_trans (hi.complete c hc).1 hproduce, (hi.complete c hc).2⟩
    image := ?_
    writing := ?_ }
  · intro g hg hintact
    show Function.update s.images _ _ _ = if g < s.finished + 1 then _ else _
    have hle : g ≤ s.finished := Nat.lt_succ_iff.mp (Nat.lt_of_lt_of_le hg hi.started_le)
    rw [if_pos (Nat.lt_succ_of_le hle)]
    rcases Nat.lt_or_eq_of_le hle with hfinished | rfl
    · rw [Function.update_of_ne (hintact s.finished hlt hfinished).symm, hi.image g hg hintact,
        if_pos hfinished]
    · exact Function.update_self ..
  · intro i f hf
    change Function.update s.images _ _ i = _ at hf
    by_cases hslot : i = P.slot s.finished
    · subst hslot
      rw [Function.update_self] at hf
      exact nomatch hf
    · -- Only the frame that has just been finished was being written.
      rw [Function.update_of_ne hslot] at hf
      obtain ⟨hlt', hle, rfl⟩ := hi.writing i f hf
      have := hi.started_le
      exact absurd (congrArg P.slot (show f = s.finished by omega)) hslot

/-- The look-up of a frame keeps the invariant: the frames that are taken get no older. -/
theorem take (hi : Inv P s) (h : step P s .take = some s') : Inv P s' := by
  obtain ⟨-, t, htarget, rfl⟩ := step_take h
  obtain ⟨hframe, hle⟩ := hi.target htarget
  refine { hi with
    taken := ?_
    consume_le := ?_
    composite := ?_
    running := fun _ hc => nomatch hc
    complete := fun _ hc => nomatch hc }
  · rintro _ ⟨⟩
    exact hframe
  · intro hconsume
    obtain ⟨t₀, ht₀, hconsume⟩ := hi.consume_le hconsume
    exact ⟨t, rfl, Nat.le_trans hconsume (Nat.succ_le_succ (hle t₀ ht₀))⟩
  · rintro _ ⟨⟩
    exact ⟨rfl, rfl⟩

/-- A present that fails keeps the invariant. -/
theorem refuse (hi : Inv P s) (h : step P s .refuse = some s') : Inv P s' := by
  obtain ⟨c, -, rfl⟩ := step_refuse h
  exact { hi with
    composite := fun _ hc => nomatch hc
    running := fun _ hc => nomatch hc
    complete := fun _ hc => nomatch hc }

/-- A submit of the host keeps the invariant. -/
theorem enqueue (hi : Inv P s) (h : step P s .enqueue = some s') : Inv P s' := by
  obtain ⟨c, hstage, rfl⟩ := step_enqueue h
  have hcomposite := hi.composite
  rw [hstage] at hcomposite
  exact { hi with
    composite := hcomposite
    running := fun _ hc => nomatch hc
    complete := fun _ hc => nomatch hc }

/-- The start of a composite keeps the invariant: its frame is complete. -/
theorem execute (hi : Inv P s) (h : step P s .execute = some s') : Inv P s' := by
  obtain ⟨c, hstage, hreached, rfl⟩ := step_execute h
  have hcomposite := hi.composite
  rw [hstage] at hcomposite
  refine { hi with
    composite := hcomposite
    running := ?_
    complete := fun _ hc => nomatch hc }
  rintro _ ⟨⟩
  -- A first composite has waited for its frame; a repeat follows one that did.
  rw [(hcomposite c rfl).2, isReached_iff] at hreached
  by_cases hlast : s.backend.lastPresentSync < c.syncValue
  · exact hreached hlast
  · exact Nat.le_trans (Nat.not_lt.mp hlast) hi.lastPresentSync_le

/-- The end of a composite keeps the invariant: the consume timeline is right behind its frame. -/
theorem completes (hN : 2 ≤ N) (hi : Inv P s) (h : step P s .complete = some s') : Inv P s' := by
  obtain ⟨c, hstage, rfl⟩ := step_complete h
  have hcomposite := hi.composite
  rw [hstage] at hcomposite
  obtain ⟨hlastReady, hsubmission⟩ := hcomposite c rfl
  have hrunning := hi.running c hstage
  have hpos : 0 < c.syncValue := hi.syncValue_pos (hstage ▸ rfl)
  have hproduce : c.submission.raise .produce s.produce = s.produce := by
    rw [hsubmission, raise_produce (hi.consumeSem hN)]
  -- The consume timeline was not beyond the frame, so it is right behind it now.
  have hle : s.consume ≤ c.syncValue + 1 := by
    by_contra hlt
    obtain ⟨t, ht, hle⟩ := hi.consume_le (by omega)
    obtain rfl := Option.some.inj (hlastReady.symm.trans ht)
    exact hlt hle
  have hlast := hi.lastPresentSync_lt
  obtain ⟨hmono, hupper, hlower⟩ : s.consume ≤ c.submission.raise .consume s.consume ∧
      c.submission.raise .consume s.consume ≤ c.syncValue + 1 ∧
        c.syncValue < c.submission.raise .consume s.consume := by
    rw [hsubmission, raise_consume (hi.consumeSem hN)]
    split_ifs <;> omega
  exact { hi with
    produce := hproduce.trans hi.produce
    lastPresentSync_le := Nat.le_trans hi.lastPresentSync_le (Nat.le_of_eq hproduce.symm)
    consume_le := fun _ => ⟨_, hlastReady, hupper⟩
    lastPresentSync_lt := fun hpos' => Nat.lt_of_lt_of_le (hlast hpos') hmono
    composite := hcomposite
    running := fun _ hc => nomatch hc
    complete := fun _ hc => Stage.finished.inj hc ▸
      ⟨Nat.le_trans hrunning (Nat.le_of_eq hproduce.symm), hlower⟩ }

/-- The return of a present keeps the invariant, whether or not the backend remembers its frame. -/
theorem conclude {ok : Bool} (hi : Inv P s) (h : step P s (.conclude ok) = some s') : Inv P s' := by
  obtain ⟨c, hstage, rfl⟩ := step_conclude h
  obtain ⟨hproduce, hconsume⟩ := hi.complete c hstage
  -- Both the backend as it was and the one that remembers the frame will do.
  have hback : ∀ b, b = (if ok then s.backend.consumed c.syncValue true else s.backend) →
      b.surfaces = N ∧ b.consumeTimeline = true ∧ b.lastPresentSync ≤ s.produce ∧
        (0 < b.lastPresentSync → b.lastPresentSync < s.consume) := by
    rintro _ rfl
    unfold VulkanBackend.consumed
    split_ifs
    · exact ⟨hi.surfaces, hi.consumeTimeline, hproduce, fun _ => hconsume⟩
    all_goals
      exact ⟨hi.surfaces, hi.consumeTimeline, hi.lastPresentSync_le, hi.lastPresentSync_lt⟩
  obtain ⟨hsurfaces, htimeline, hle, hlt⟩ := hback _ rfl
  exact { hi with
    surfaces := hsurfaces
    consumeTimeline := htimeline
    lastPresentSync_le := hle
    lastPresentSync_lt := hlt
    composite := fun _ hc => nomatch hc
    running := fun _ hc => nomatch hc
    complete := fun _ hc => nomatch hc }

/-- A pause keeps the invariant. -/
theorem pause (hi : Inv P s) (h : step P s .pause = some s') : Inv P s' := by
  obtain ⟨-, rfl⟩ := step_pause h
  exact { hi with }

/-- A resume keeps the invariant. -/
theorem resume (hi : Inv P s) (h : step P s .resume = some s') : Inv P s' := by
  obtain ⟨-, rfl⟩ := step_resume h
  exact { hi with }

/-- Every step keeps the invariant. -/
theorem step (hN : 2 ≤ N) (hi : Inv P s) {a : Action} (h : Handoff.step P s a = some s') :
    Inv P s' := by
  cases a with
  | submit => exact hi.submit h
  | report => exact hi.report h
  | start => exact hi.start h
  | finish => exact hi.finish h
  | take => exact hi.take h
  | refuse => exact hi.refuse h
  | enqueue => exact hi.enqueue h
  | execute => exact hi.execute h
  | complete => exact hi.completes hN h
  | conclude ok => exact hi.conclude h
  | pause => exact hi.pause h
  | resume => exact hi.resume h

end Inv

/-- The invariant holds in every state of a run. -/
theorem run_inv (hN : 2 ≤ N) {guard : Handoff → Action → Prop} {width height : UInt32}
    {generation : ℕ} {swapchain : Bool} {as : List Action}
    (h : Machine.Run (machine P) guard (init N width height generation swapchain) as s) : Inv P s :=
  h.invariant (init_inv hN width height generation swapchain) fun _ _ _ hi _ hstep =>
    hi.step hN hstep

/-! ### Slots that are rewritten only once their frames have been consumed -/

/-- A submission never takes a timeline back. -/
theorem le_raise (sub : Submission) (t : Timeline) (x : ℕ) : x ≤ sub.raise t x := by
  unfold Submission.raise
  split
  · split_ifs
    · exact Nat.le_max_left _ _
    · exact Nat.le_refl _
  · exact Nat.le_refl _

/-- What a step leaves alone. -/
structure Frame (a : Action) (s s' : Handoff) : Prop where
  /-- The consume timeline never goes back. -/
  consume : s.consume ≤ s'.consume
  started : a ≠ .start → s'.started = s.started
  submitted : a ≠ .submit → s'.submitted = s.submitted
  reported : a ≠ .report → s'.reported = s.reported ∧ s'.ring = s.ring
  paused : a ≠ .pause → s'.paused = true → s.paused = true

/-- What each step leaves alone. -/
theorem step_frame {a : Action} (h : step P s a = some s') : Frame a s s' := by
  cases a with
  | submit =>
    obtain ⟨-, -, rfl⟩ := step_submit h
    exact ⟨Nat.le_refl _, fun _ => rfl, fun hne => absurd rfl hne, fun _ => ⟨rfl, rfl⟩, fun _ => id⟩
  | report =>
    obtain ⟨-, rfl⟩ := step_report h
    exact ⟨Nat.le_refl _, fun _ => rfl, fun _ => rfl, fun hne => absurd rfl hne, fun _ => id⟩
  | start =>
    obtain ⟨-, -, -, rfl⟩ := step_start h
    exact ⟨Nat.le_refl _, fun hne => absurd rfl hne, fun _ => rfl, fun _ => ⟨rfl, rfl⟩, fun _ => id⟩
  | finish =>
    obtain ⟨-, rfl⟩ := step_finish h
    exact ⟨Nat.le_refl _, fun _ => rfl, fun _ => rfl, fun _ => ⟨rfl, rfl⟩, fun _ => id⟩
  | take =>
    obtain ⟨-, _, -, rfl⟩ := step_take h
    exact ⟨Nat.le_refl _, fun _ => rfl, fun _ => rfl, fun _ => ⟨rfl, rfl⟩, fun _ => id⟩
  | refuse =>
    obtain ⟨_, -, rfl⟩ := step_refuse h
    exact ⟨Nat.le_refl _, fun _ => rfl, fun _ => rfl, fun _ => ⟨rfl, rfl⟩, fun _ => id⟩
  | enqueue =>
    obtain ⟨_, -, rfl⟩ := step_enqueue h
    exact ⟨Nat.le_refl _, fun _ => rfl, fun _ => rfl, fun _ => ⟨rfl, rfl⟩, fun _ => id⟩
  | execute =>
    obtain ⟨_, -, -, rfl⟩ := step_execute h
    exact ⟨Nat.le_refl _, fun _ => rfl, fun _ => rfl, fun _ => ⟨rfl, rfl⟩, fun _ => id⟩
  | complete =>
    obtain ⟨_, -, rfl⟩ := step_complete h
    exact ⟨le_raise _ _ _, fun _ => rfl, fun _ => rfl, fun _ => ⟨rfl, rfl⟩, fun _ => id⟩
  | conclude ok =>
    obtain ⟨_, -, rfl⟩ := step_conclude h
    exact ⟨Nat.le_refl _, fun _ => rfl, fun _ => rfl, fun _ => ⟨rfl, rfl⟩, fun _ => id⟩
  | pause =>
    obtain ⟨-, rfl⟩ := step_pause h
    exact ⟨Nat.le_refl _, fun _ => rfl, fun _ => rfl, fun _ => ⟨rfl, rfl⟩,
      fun hne => absurd rfl hne⟩
  | resume =>
    obtain ⟨-, rfl⟩ := step_resume h
    exact ⟨Nat.le_refl _, fun _ => rfl, fun _ => rfl, fun _ => ⟨rfl, rfl⟩, fun _ h => nomatch h⟩

/-- The contract of `consume_sync_handle`: the core starts a frame in a slot only when the consume
timeline is beyond every earlier frame of that slot. -/
def Released (P : Producer N) (s : Handoff) (a : Action) : Prop :=
  a = .start → ∀ g < s.started, P.slot g = P.slot s.started → P.value g < s.consume

instance (P : Producer N) (s : Handoff) (a : Action) : Decidable (Released P s a) :=
  inferInstanceAs (Decidable (a = .start → ∀ g < s.started, _))

/-- A frame that has not been consumed is still in its slot. -/
def Kept (P : Producer N) (s : Handoff) : Prop := ∀ g, s.consume ≤ P.value g → Intact P s g

/-- At the start no frame has been lost. -/
theorem init_kept (width height : UInt32) (generation : ℕ) (swapchain : Bool) :
    Kept P (init N width height generation swapchain) := fun _ _ _ hf => nomatch hf

/-- A step that keeps the contract loses no frame that has not been consumed. -/
theorem Kept.step (hk : Kept P s) {a : Action} (hreleased : Released P s a)
    (h : Handoff.step P s a = some s') : Kept P s' := by
  intro g hg f hf hgf heq
  have hframe := step_frame h
  have hkept : Intact P s g := hk g (Nat.le_trans hframe.consume hg)
  by_cases hstart : a = .start
  · subst hstart
    obtain ⟨-, -, -, rfl⟩ := step_start h
    rcases Nat.lt_succ_iff_lt_or_eq.mp hf with hf | rfl
    · exact hkept f hf hgf heq
    · exact absurd (hreleased rfl g hgf heq.symm) (Nat.not_lt.mpr hg)
  · exact hkept f (hframe.started hstart ▸ hf) hgf heq

/-- In a run that keeps the contract no frame is lost before it has been consumed. -/
theorem run_kept {width height : UInt32} {generation : ℕ} {swapchain : Bool} {as : List Action}
    (h : Machine.Run (machine P) (Released P) (init N width height generation swapchain) as s) :
    Kept P s :=
  h.invariant (init_kept width height generation swapchain) fun _ _ _ hk hr hstep =>
    hk.step hr hstep

namespace Inv

/-- A composite of a frame that is still in its slot samples that frame. -/
theorem image_of_intact (hi : Inv P s) {c : Composite} (hc : s.stage = .running c) {g : ℕ}
    (hindex : c.index = P.slot g) (hvalue : c.syncValue = P.value g) (hintact : Intact P s g) :
    s.images c.index = .holds g := by
  have hfinished : g < s.finished :=
    Producer.value_le_reached.mp (hi.produce ▸ hvalue ▸ hi.running c hc)
  have hstarted : g < s.started := Nat.lt_of_lt_of_le hfinished hi.finished_le
  rw [hindex, hi.image g hstarted hintact, if_pos hfinished]

/-- The first composite of a frame samples that frame. -/
theorem firstComposite_holds (hi : Inv P s) (hk : Kept P s) {c : Composite}
    (hc : s.stage = .running c) (hfirst : s.consume ≤ c.syncValue) :
    ∃ g, c.index = P.slot g ∧ c.syncValue = P.value g ∧ s.images c.index = .holds g := by
  obtain ⟨g, -, hindex, hvalue⟩ := hi.frame (c := c) (hc ▸ rfl)
  exact ⟨g, hindex, hvalue, hi.image_of_intact hc hindex hvalue (hk g (hvalue ▸ hfirst))⟩

/-- No later frame is written to its slot until the first composite of a frame has finished. -/
theorem firstComposite_exclusive (hi : Inv P s) (hk : Kept P s) {c : Composite}
    (hc : s.stage.composite = some c) (hfirst : s.consume ≤ c.syncValue) {f : ℕ}
    (hwriting : s.images c.index = .writing f) : P.value f ≤ c.syncValue := by
  obtain ⟨g, -, hindex, hvalue⟩ := hi.frame hc
  obtain ⟨hstarted, -, hslot⟩ := hi.writing _ _ hwriting
  by_contra hlt
  have hgf : g < f := Producer.lt_of_value_lt (hvalue ▸ Nat.not_le.mp hlt)
  exact hk g (hvalue ▸ hfirst) f hstarted hgf (hslot.trans hindex)

end Inv

/-! ### The runtime and the backend behind the steps of the host -/

/-- The runtime is in the state the host's thread is in. -/
structure Describes (s : Handoff) (rt : Runtime) : Prop where
  paused : rt.paused = s.paused
  ring : rt.ring = s.ring
  lastReady :
    s.lastReady = if rt.haveLastReady then some (rt.lastReadyIdx, rt.lastReadySv) else none

/-- The frame the host would present is the one `render` would composite. -/
theorem target_eq_renderTarget {rt : Runtime} (h : Describes s rt) :
    s.target =
      if rt.renderTarget.2.2 then some (rt.renderTarget.1, rt.renderTarget.2.1) else none := by
  rw [target, ← h.paused, ← h.ring, h.lastReady]
  exact rt.renderTarget_eq

/-- `render` composites the frame that `take` looks up, and keeps it for presents while paused. -/
theorem renderRing_take {κ β : Type} (env : Env κ β) (wantPixels : Bool) {w : World κ β}
    (h : Describes s w.rt) (htake : step P s .take = some s') :
    ∃ t, s.target = some t ∧ Describes s' ((Runtime.renderRing env wantPixels).run w).2.rt ∧
      ((Runtime.renderRing env wantPixels).run w).2.log = .composite t.1 t.2 true :: w.log := by
  obtain ⟨-, t, htarget, rfl⟩ := step_take htake
  have hrender : w.rt.renderTarget = (t.1, t.2, true) := by
    have heq := (target_eq_renderTarget h).symm.trans htarget
    split_ifs at heq with hhave
    rw [← Option.some.inj heq, ← hhave]
  obtain ⟨hrt, hlog⟩ := Runtime.renderRing_run env wantPixels w hrender
  refine ⟨t, htarget, ?_, hlog⟩
  rw [hrt]
  split_ifs with hpaused
  · -- While paused the frame is the one already kept.
    refine ⟨h.paused, h.ring, ?_⟩
    rw [← h.lastReady]
    unfold target at htarget
    rw [if_pos (h.paused.symm.trans hpaused)] at htarget
    exact htarget.symm
  · exact ⟨h.paused, h.ring, rfl⟩

end Handoff

/-- A present that fails before its submit is `refuse`; any other submits once, the submission of
the composite, and returns as `conclude` does. -/
theorem PresentCall.refines {N : ℕ} {P : Producer N} {s : Handoff} (call : PresentCall)
    (hframe : call.hasFrame = true) :
    (VulkanBackend.submits call.answer (call.perform s.backend).1 = [] ∧
        ∀ c, s.stage = .taken c →
          ∃ s', Handoff.step P s .refuse = some s' ∧ s'.backend = call.after s.backend) ∨
      (VulkanBackend.submits call.answer (call.perform s.backend).1 =
          [s.backend.submission call.syncValue true] ∧
        ∃ ok, ∀ s₁ c, s₁.backend = s.backend → s₁.stage = .finished c →
          c.syncValue = call.syncValue →
          ∃ s', Handoff.step P s₁ (.conclude ok) = some s' ∧
            s'.backend = call.after s.backend) := by
  have houtcome : VulkanBackend.Outcome call.answer call.syncValue call.hasFrame s.backend
      (call.perform s.backend) := VulkanBackend.compositeAndPresent_outcome
  rw [hframe] at houtcome
  unfold PresentCall.after
  rcases houtcome with ⟨hnone, e, he⟩ | ⟨hsome, hok | ⟨e, he⟩⟩
  · refine Or.inl ⟨hnone, fun c hc => ⟨_, Handoff.refuse_of_taken hc, ?_⟩⟩
    rw [he]
  · refine Or.inr ⟨hsome, true, fun s₁ c hb hc hv => ⟨_, Handoff.conclude_of_finished hc true, ?_⟩⟩
    rw [hok, ← hb, ← hv]
    rfl
  · refine Or.inr ⟨hsome, false, fun s₁ c hb hc _ => ⟨_, Handoff.conclude_of_finished hc false, ?_⟩⟩
    rw [he, ← hb]
    rfl

end RetroPark.Vulkan
