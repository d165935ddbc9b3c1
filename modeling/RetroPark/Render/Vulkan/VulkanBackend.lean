import RetroPark.Abi
import RetroPark.Support.Program
import Mathlib.Algebra.Group.Nat.Defs
import Mathlib.Tactic.SplitIfs

/-!
# Presenting with the Vulkan backend

`VulkanBackend::composite_and_present` and `present_windowed`, as programs over the Vulkan calls
whose result the backend checks. A call is answered at most once in a present, so a function from
calls to answers stands for any outcome of it.

* `Submission` is what a composite waits for and signals on the timelines of the surface set;
* `compositeAndPresent_outcome` is everything a present can do: fail before its submit, or submit
  once, and then succeed or fail;
* `signals_increase_iff` is when a sequence of presents signals strictly increasing values.
-/

namespace RetroPark.Vulkan

/-- What a method returns and writes to `err` when it fails. -/
structure Failure where
  code : RpResult
  err : String
  deriving DecidableEq, Repr

/-- The results of a Vulkan function that the backend tells apart. -/
inductive VkResult
  | success
  | notReady
  | timeout
  | suboptimal
  | error
  deriving DecidableEq, Repr

/-- The timeline semaphores of a surface set. -/
inductive Timeline
  | produce
  | consume
  deriving DecidableEq, Repr

/-- What a submit does to the timelines: it waits for a value before it samples the shared image,
and signals one when it has finished. -/
structure Submission where
  wait : Option (Timeline × ℕ)
  signal : Option (Timeline × ℕ)
  deriving DecidableEq, Repr

/-- The Vulkan functions a present calls. -/
inductive VkFunction
  | acquireNextImage
  | resetFences
  | resetCommandBuffer
  | beginCommandBuffer
  | endCommandBuffer
  | queueSubmit (s : Submission)
  | queuePresent
  | waitForFences
  | mapMemory
  deriving DecidableEq, Repr

/-- The calls of a present. `render` records the composite of the slot it samples, if any. -/
inductive Call
  | vk (f : VkFunction)
  | ensureCompositeResources
  | render (source : Option ℕ)
  deriving DecidableEq, Repr

/-- The answer to a call. -/
abbrev Answer : Call → Type
  | .vk _ => VkResult
  | .ensureCompositeResources => Except Failure Unit
  | .render _ => Except Failure Unit

/-- A program over the calls of a present. -/
abbrev PresentProgram (α : Type) := Program Call Answer α

/-- `rp::VulkanBackend`, as far as a present reads or writes it. -/
structure VulkanBackend where
  /-- Whether there is a device. -/
  device : Bool
  /-- `surfaces_.size()`. -/
  surfaces : ℕ
  /-- Whether there is a consume timeline. -/
  consumeTimeline : Bool
  /-- Whether there is a swapchain. -/
  swapchain : Bool
  lastPresentSync : ℕ := 0
  deriving DecidableEq, Repr

namespace VulkanBackend

/-- `new_frame`: only the first composite of a frame acquires it and moves the timelines. -/
def newFrame (syncValue : ℕ) (hasFrame : Bool) (b : VulkanBackend) : Bool :=
  hasFrame && decide (b.lastPresentSync < syncValue)

/-- The timeline a present signals. -/
def consumeSem (b : VulkanBackend) : Timeline :=
  if 2 ≤ b.surfaces && b.consumeTimeline then .consume else .produce

/-- What a present submits to the timelines. -/
def submission (syncValue : ℕ) (hasFrame : Bool) (b : VulkanBackend) : Submission :=
  if b.newFrame syncValue hasFrame then
    { wait := some (.produce, syncValue), signal := some (b.consumeSem, syncValue + 1) }
  else { wait := none, signal := none }

/-- The end of a present that has succeeded. -/
def consumed (syncValue : ℕ) (hasFrame : Bool) (b : VulkanBackend) : VulkanBackend :=
  if b.newFrame syncValue hasFrame then { b with lastPresentSync := syncValue } else b

/-- The slot a composite samples. -/
def source (readyIndex : ℕ) (hasFrame : Bool) : Option ℕ :=
  if hasFrame then some readyIndex else none

def vk (f : VkFunction) : PresentProgram VkResult := Program.ask Answer (.vk f)

/-- `present_windowed`. -/
def presentWindowed (readyIndex syncValue : ℕ) (hasFrame : Bool) (b : VulkanBackend) :
    PresentProgram (Except Failure VulkanBackend) := do
  let acquired ← vk .acquireNextImage
  if acquired ≠ .success ∧ acquired ≠ .suboptimal then
    return .error ⟨if acquired = .timeout ∨ acquired = .notReady then .timeout else .device,
      "vkAcquireNextImageKHR failed"⟩
  if (← vk .resetFences) ≠ .success then return .error ⟨.device, "reset composite fence"⟩
  if (← vk .resetCommandBuffer) ≠ .success then return .error ⟨.device, "reset composite cmd"⟩
  if (← vk .beginCommandBuffer) ≠ .success then return .error ⟨.device, "begin composite cmd"⟩
  match ← Program.ask Answer (.render (source readyIndex hasFrame)) with
  | .error e =>
      let _ ← vk .endCommandBuffer
      return .error e
  | .ok () =>
      if (← vk .endCommandBuffer) ≠ .success then return .error ⟨.device, "end composite cmd"⟩
      if (← vk (.queueSubmit (b.submission syncValue hasFrame))) ≠ .success then
        return .error ⟨.device, "composite queue submit"⟩
      let presented ← vk .queuePresent
      if presented ≠ .success ∧ presented ≠ .suboptimal then
        return .error ⟨.device, "vkQueuePresentKHR failed"⟩
      if (← vk .waitForFences) ≠ .success then
        return .error ⟨.timeout, "composite fence wait timed out"⟩
      return .ok (b.consumed syncValue hasFrame)

/-- The part of `composite_and_present` that composites headlessly. -/
def compositeHeadless (readyIndex syncValue : ℕ) (hasFrame outRgba : Bool) (b : VulkanBackend) :
    PresentProgram (Except Failure VulkanBackend) := do
  if (← vk .resetFences) ≠ .success then return .error ⟨.device, "reset composite fence"⟩
  if (← vk .resetCommandBuffer) ≠ .success then return .error ⟨.device, "reset composite cmd"⟩
  if (← vk .beginCommandBuffer) ≠ .success then return .error ⟨.device, "begin composite cmd"⟩
  match ← Program.ask Answer (.render (source readyIndex hasFrame)) with
  | .error e =>
      let _ ← vk .endCommandBuffer
      return .error e
  | .ok () =>
      if (← vk .endCommandBuffer) ≠ .success then return .error ⟨.device, "end composite cmd"⟩
      if (← vk (.queueSubmit (b.submission syncValue hasFrame))) ≠ .success then
        return .error ⟨.device, "composite queue submit"⟩
      if (← vk .waitForFences) ≠ .success then
        return .error ⟨.timeout, "composite fence wait timed out"⟩
      if outRgba then
        if (← vk .mapMemory) ≠ .success then return .error ⟨.device, "map staging"⟩
        return .ok (b.consumed syncValue hasFrame)
      else return .ok (b.consumed syncValue hasFrame)

/-- `VulkanBackend::composite_and_present`. A call that fails leaves the backend as it is. -/
def compositeAndPresent (readyIndex syncValue : ℕ) (hasFrame outRgba : Bool) (b : VulkanBackend) :
    PresentProgram (Except Failure VulkanBackend) := do
  if !b.device then return .error ⟨.internal, "device not initialized"⟩
  if hasFrame && decide (b.surfaces ≤ readyIndex) then return .error ⟨.badArg, "bad ready_index"⟩
  if b.swapchain && outRgba then
    return .error ⟨.unsupported, "windowed readback (swapchain + out_rgba) is not supported"⟩
  match ← Program.ask Answer .ensureCompositeResources with
  | .error e => return .error e
  | .ok () =>
      if b.swapchain then presentWindowed readyIndex syncValue hasFrame b
      else compositeHeadless readyIndex syncValue hasFrame outRgba b

/-! ### What a present does -/

variable {answer : ∀ c, Answer c} {b : VulkanBackend} {readyIndex syncValue : ℕ}
  {hasFrame outRgba : Bool}

/-- The submits among the calls of a present that have gone through. -/
def submits (answer : ∀ c, Answer c) (calls : List Call) : List Submission :=
  calls.filterMap fun c =>
    match c with
    | .vk (.queueSubmit s) =>
        if (answer (.vk (.queueSubmit s)) : VkResult) = .success then some s else none
    | _ => none

/-- A present after its submit: it submits nothing more, and succeeds or fails. -/
def Concludes (answer : ∀ c, Answer c) (syncValue : ℕ) (hasFrame : Bool) (b : VulkanBackend)
    (r : List Call × Except Failure VulkanBackend) : Prop :=
  submits answer r.1 = [] ∧ (r.2 = .ok (b.consumed syncValue hasFrame) ∨ ∃ e, r.2 = .error e)

/-- What a present of the given frame can do: fail before its submit, or submit once, and then
succeed or fail. -/
def Outcome (answer : ∀ c, Answer c) (syncValue : ℕ) (hasFrame : Bool) (b : VulkanBackend)
    (r : List Call × Except Failure VulkanBackend) : Prop :=
  (submits answer r.1 = [] ∧ ∃ e, r.2 = .error e) ∨
    (submits answer r.1 = [b.submission syncValue hasFrame] ∧
      (r.2 = .ok (b.consumed syncValue hasFrame) ∨ ∃ e, r.2 = .error e))

variable {r : List Call × Except Failure VulkanBackend}

theorem submits_cons {c : Call} (hc : ∀ s, c ≠ .vk (.queueSubmit s)) (calls : List Call) :
    submits answer (c :: calls) = submits answer calls := by
  refine List.filterMap_cons_none ?_
  split
  · next s => exact absurd rfl (hc s)
  · rfl

theorem Outcome.failed (e : Failure) : Outcome answer syncValue hasFrame b ([], .error e) :=
  Or.inl ⟨rfl, e, rfl⟩

theorem Outcome.cons {c : Call} (hc : ∀ s, c ≠ .vk (.queueSubmit s))
    (h : Outcome answer syncValue hasFrame b r) :
    Outcome answer syncValue hasFrame b (c :: r.1, r.2) := by
  rw [Outcome, submits_cons hc]
  exact h

theorem Concludes.cons {c : Call} (hc : ∀ s, c ≠ .vk (.queueSubmit s))
    (h : Concludes answer syncValue hasFrame b r) :
    Concludes answer syncValue hasFrame b (c :: r.1, r.2) := by
  rw [Concludes, submits_cons hc]
  exact h

variable {f : VkFunction} {e : Failure} {rest : PresentProgram (Except Failure VulkanBackend)}

/-- A check before the submit. -/
theorem outcome_check (hf : ∀ s, f ≠ .queueSubmit s)
    (h : Outcome answer syncValue hasFrame b (rest.perform answer)) :
    Outcome answer syncValue hasFrame b
      ((vk f >>= fun r => if r ≠ .success then pure (.error e) else rest).perform answer) := by
  have hc : ∀ s, Call.vk f ≠ .vk (.queueSubmit s) := fun s heq => hf s (Call.vk.inj heq)
  rw [Program.perform_bind]
  show Outcome answer syncValue hasFrame b (Call.vk f :: _, _)
  split_ifs
  · exact (Outcome.failed e).cons hc
  · exact h.cons hc

/-- A check after the submit. -/
theorem concludes_check (hf : ∀ s, f ≠ .queueSubmit s)
    (h : Concludes answer syncValue hasFrame b (rest.perform answer)) :
    Concludes answer syncValue hasFrame b
      ((vk f >>= fun r => if r ≠ .success then pure (.error e) else rest).perform answer) := by
  have hc : ∀ s, Call.vk f ≠ .vk (.queueSubmit s) := fun s heq => hf s (Call.vk.inj heq)
  rw [Program.perform_bind]
  show Concludes answer syncValue hasFrame b (Call.vk f :: _, _)
  split_ifs
  · exact Concludes.cons (r := ([], .error e)) hc ⟨rfl, Or.inr ⟨e, rfl⟩⟩
  · exact h.cons hc

theorem submits_submit (s : Submission) (calls : List Call) :
    submits answer (.vk (.queueSubmit s) :: calls) =
      if answer (.vk (.queueSubmit s)) = .success then s :: submits answer calls
      else submits answer calls := by
  unfold submits
  rw [List.filterMap_cons]
  dsimp only
  by_cases h : answer (.vk (.queueSubmit s)) = .success
  · rw [if_pos h, if_pos h]
  · rw [if_neg h, if_neg h]

/-- The submit of a present. -/
theorem outcome_submit (h : Concludes answer syncValue hasFrame b (rest.perform answer)) :
    Outcome answer syncValue hasFrame b
      ((vk (.queueSubmit (b.submission syncValue hasFrame)) >>= fun r =>
        if r ≠ .success then pure (.error e) else rest).perform answer) := by
  rw [Program.perform_bind]
  show Outcome answer syncValue hasFrame b
    (Call.vk (.queueSubmit (b.submission syncValue hasFrame)) :: _, _)
  split_ifs with hanswer
  · exact Or.inl ⟨(submits_submit _ _).trans (if_neg hanswer), _, rfl⟩
  · refine Or.inr ⟨?_, h.2⟩
    have hgone : answer (.vk (.queueSubmit (b.submission syncValue hasFrame))) = .success :=
      Decidable.not_not.mp hanswer
    exact (submits_submit _ _).trans ((if_pos hgone).trans (congrArg _ h.1))

/-- A part of the present that may fail, before the submit. -/
theorem outcome_bind {c : Call} {k : Answer c → PresentProgram (Except Failure VulkanBackend)}
    (hc : ∀ s, c ≠ .vk (.queueSubmit s))
    (h : Outcome answer syncValue hasFrame b ((k (answer c)).perform answer)) :
    Outcome answer syncValue hasFrame b ((Program.ask Answer c >>= k).perform answer) :=
  Outcome.cons (r := (k (answer c)).perform answer) hc h

/-- A part of the present that may fail, after the submit. -/
theorem concludes_bind {c : Call} {k : Answer c → PresentProgram (Except Failure VulkanBackend)}
    (hc : ∀ s, c ≠ .vk (.queueSubmit s))
    (h : Concludes answer syncValue hasFrame b ((k (answer c)).perform answer)) :
    Concludes answer syncValue hasFrame b ((Program.ask Answer c >>= k).perform answer) :=
  Concludes.cons (r := (k (answer c)).perform answer) hc h

/-- The outcome of a headless composite. -/
theorem compositeHeadless_outcome : Outcome answer syncValue hasFrame b
    ((compositeHeadless readyIndex syncValue hasFrame outRgba b).perform answer) := by
  have hdone : Concludes answer syncValue hasFrame b
      ((pure (.ok (b.consumed syncValue hasFrame)) :
        PresentProgram (Except Failure VulkanBackend)).perform answer) := ⟨rfl, Or.inl rfl⟩
  unfold compositeHeadless
  refine outcome_check (by simp) (outcome_check (by simp) (outcome_check (by simp) ?_))
  refine outcome_bind (by simp) ?_
  cases answer (.render (source readyIndex hasFrame)) with
  | error e => exact (Outcome.failed e).cons (by simp)
  | ok u =>
    refine outcome_check (by simp) (outcome_submit ?_)
    refine concludes_check (by simp) ?_
    cases outRgba with
    | false => exact hdone
    | true => exact concludes_check (by simp) hdone

/-- The outcome of a windowed present. -/
theorem presentWindowed_outcome : Outcome answer syncValue hasFrame b
    ((presentWindowed readyIndex syncValue hasFrame b).perform answer) := by
  have hdone : Concludes answer syncValue hasFrame b
      ((pure (.ok (b.consumed syncValue hasFrame)) :
        PresentProgram (Except Failure VulkanBackend)).perform answer) := ⟨rfl, Or.inl rfl⟩
  unfold presentWindowed
  refine outcome_bind (by simp) ?_
  split
  · exact Outcome.failed _
  refine outcome_check (by simp) (outcome_check (by simp) (outcome_check (by simp) ?_))
  refine outcome_bind (by simp) ?_
  cases answer (.render (source readyIndex hasFrame)) with
  | error e => exact (Outcome.failed e).cons (by simp)
  | ok u =>
    refine outcome_check (by simp) (outcome_submit ?_)
    refine concludes_bind (c := .vk .queuePresent) (by simp) ?_
    split
    · exact ⟨rfl, Or.inr ⟨_, rfl⟩⟩
    · exact concludes_check (by simp) hdone

/-- What a present can do. A call that is refused at once submits nothing. -/
theorem compositeAndPresent_outcome : Outcome answer syncValue hasFrame b
    ((compositeAndPresent readyIndex syncValue hasFrame outRgba b).perform answer) := by
  have hrest : Outcome answer syncValue hasFrame b
      ((if b.swapchain then presentWindowed readyIndex syncValue hasFrame b
        else compositeHeadless readyIndex syncValue hasFrame outRgba b).perform answer) := by
    split_ifs
    · exact presentWindowed_outcome
    · exact compositeHeadless_outcome
  unfold compositeAndPresent
  split
  · exact Outcome.failed _
  split
  · exact Outcome.failed _
  split
  · exact Outcome.failed _
  refine outcome_bind (by simp) ?_
  cases answer .ensureCompositeResources with
  | error e => exact Outcome.failed e
  | ok u => exact hrest

end VulkanBackend

/-! ### A sequence of presents -/

open VulkanBackend

/-- A call of `composite_and_present`, with how Vulkan answers it. -/
structure PresentCall where
  readyIndex : ℕ
  syncValue : ℕ
  hasFrame : Bool
  outRgba : Bool
  answer : ∀ c, Answer c

namespace PresentCall

variable {b : VulkanBackend} {c : PresentCall} {cs : List PresentCall}

/-- The Vulkan calls of a present, and what it returns. -/
def perform (c : PresentCall) (b : VulkanBackend) : List Call × Except Failure VulkanBackend :=
  (compositeAndPresent c.readyIndex c.syncValue c.hasFrame c.outRgba b).perform c.answer

/-- Whether the present fails. -/
def fails (c : PresentCall) (b : VulkanBackend) : Bool :=
  match (c.perform b).2 with
  | .ok _ => false
  | .error _ => true

/-- Whether the present gets as far as its submit. -/
def submitted (c : PresentCall) (b : VulkanBackend) : Bool :=
  !(VulkanBackend.submits c.answer (c.perform b).1).isEmpty

/-- The backend after the present. -/
def after (c : PresentCall) (b : VulkanBackend) : VulkanBackend :=
  match (c.perform b).2 with
  | .ok b' => b'
  | .error _ => b

/-- The values the present signals, in 64 bits. -/
def signalled (c : PresentCall) (b : VulkanBackend) : List ℕ :=
  (VulkanBackend.submits c.answer (c.perform b).1).filterMap fun s =>
    s.signal.map fun x => x.2 % 2 ^ 64

/-- The three ways a present can go. -/
theorem cases (hfits : c.syncValue + 1 < 2 ^ 64) :
    (c.submitted b = false ∧ c.signalled b = [] ∧ c.after b = b) ∨
      c.submitted b = true ∧
        c.signalled b = (if b.newFrame c.syncValue c.hasFrame then [c.syncValue + 1] else []) ∧
        (c.fails b = false ∧ c.after b = b.consumed c.syncValue c.hasFrame ∨
          c.fails b = true ∧ c.after b = b) := by
  have houtcome : Outcome c.answer c.syncValue c.hasFrame b (c.perform b) :=
    compositeAndPresent_outcome
  unfold submitted signalled after fails
  rcases houtcome with ⟨hsubmits, e, he⟩ | ⟨hsubmits, hresult⟩
  · rw [hsubmits, he]
    exact Or.inl ⟨rfl, rfl, rfl⟩
  · have hsignal : ([b.submission c.syncValue c.hasFrame].filterMap fun s =>
          s.signal.map fun x => x.2 % 2 ^ 64) =
        if b.newFrame c.syncValue c.hasFrame then [c.syncValue + 1] else [] := by
      unfold submission
      split_ifs
      · exact congrArg (fun n => [n]) (Nat.mod_eq_of_lt hfits)
      · rfl
    rw [hsubmits, hsignal]
    refine Or.inr ⟨rfl, rfl, ?_⟩
    rcases hresult with hok | ⟨e, he⟩
    · rw [hok]
      exact Or.inl ⟨rfl, rfl⟩
    · rw [he]
      exact Or.inr ⟨rfl, rfl⟩

/-- The values a sequence of presents signals. -/
def signals : List PresentCall → VulkanBackend → List ℕ
  | [], _ => []
  | c :: cs, b => c.signalled b ++ signals cs (c.after b)

/-- The presents of a sequence, each with the backend it is called on. -/
def steps : List PresentCall → VulkanBackend → List (PresentCall × VulkanBackend)
  | [], _ => []
  | c :: cs, b => (c, b) :: steps cs (c.after b)

/-- A present that fails after it has signalled, and one that gets as far as its submit, are not of
the same sync value. -/
def NotRetried (x y : PresentCall × VulkanBackend) : Prop :=
  x.1.signalled x.2 ≠ [] → x.1.fails x.2 = true → y.1.submitted y.2 = true →
    y.1.hasFrame = true → y.1.syncValue ≠ x.1.syncValue

theorem mem_of_mem_steps {x : PresentCall × VulkanBackend} (hx : x ∈ steps cs b) : x.1 ∈ cs := by
  induction cs generalizing b with
  | nil => exact nomatch hx
  | cons c cs ih =>
    rcases List.mem_cons.mp hx with rfl | hx
    · exact List.mem_cons_self ..
    · exact List.mem_cons_of_mem _ (ih hx)

/-- The sync values of the presents that have a frame do not decrease. -/
def Ordered (cs : List PresentCall) : Prop :=
  cs.Pairwise fun c c' => c.hasFrame = true → c'.hasFrame = true → c.syncValue ≤ c'.syncValue

theorem newFrame_iff : b.newFrame c.syncValue c.hasFrame = true ↔
    c.hasFrame = true ∧ b.lastPresentSync < c.syncValue := by
  rw [newFrame, Bool.and_eq_true, decide_eq_true_eq]

/-- A signal is of a frame beyond the last one that has been presented. -/
theorem lt_of_mem_signals (hfits : ∀ c ∈ cs, c.syncValue + 1 < 2 ^ 64) {v : ℕ}
    (hv : v ∈ signals cs b) : b.lastPresentSync + 1 < v := by
  -- Induction on the presents; `lastPresentSync` never goes back.
  induction cs generalizing b with
  | nil => exact nomatch hv
  | cons c cs ih =>
    have ih' := fun b hv => ih (b := b) (fun c' hc' => hfits c' (List.mem_cons_of_mem _ hc')) hv
    rcases List.mem_append.mp hv with hhead | htail
    · rcases cases (hfits c (List.mem_cons_self ..)) with ⟨-, hnone, -⟩ | ⟨-, hsome, -⟩
      · exact nomatch hnone ▸ hhead
      · rw [hsome] at hhead
        split_ifs at hhead with hnew
        · obtain rfl := List.mem_singleton.mp hhead
          exact Nat.succ_lt_succ (newFrame_iff.mp hnew).2
        · exact nomatch hhead
    · have hlt := ih' _ htail
      rcases cases (hfits c (List.mem_cons_self ..)) with ⟨-, -, hafter⟩ | ⟨-, -,
        ⟨-, hafter⟩ | ⟨-, hafter⟩⟩
      · rwa [hafter] at hlt
      · rw [hafter, consumed] at hlt
        split_ifs at hlt with hnew
        · exact Nat.lt_trans (Nat.succ_lt_succ (newFrame_iff.mp hnew).2) hlt
        · exact hlt
      · rwa [hafter] at hlt

/-- A signal is of the frame of a present that got as far as its submit. -/
theorem exists_step_of_mem_signals (hfits : ∀ c ∈ cs, c.syncValue + 1 < 2 ^ 64) {v : ℕ}
    (hv : v ∈ signals cs b) :
    ∃ y ∈ steps cs b, y.1.submitted y.2 = true ∧ y.1.hasFrame = true ∧ v = y.1.syncValue + 1 := by
  -- Induction on the presents.
  induction cs generalizing b with
  | nil => exact nomatch hv
  | cons c cs ih =>
    rcases List.mem_append.mp hv with hhead | htail
    · rcases cases (hfits c (List.mem_cons_self ..)) with ⟨-, hnone, -⟩ | ⟨hsubmitted, hsome, -⟩
      · exact nomatch hnone ▸ hhead
      · rw [hsome] at hhead
        split_ifs at hhead with hnew
        · exact ⟨(c, b), List.mem_cons_self .., hsubmitted, (newFrame_iff.mp hnew).1,
            List.mem_singleton.mp hhead⟩
        · exact nomatch hhead
    · obtain ⟨y, hy, h⟩ := ih (fun c' hc' => hfits c' (List.mem_cons_of_mem _ hc')) htail
      exact ⟨y, List.mem_cons_of_mem _ hy, h⟩

/-- Presents that signal nothing up to `v + 1` do not submit frame `v`, when it has not been
presented before. -/
theorem syncValue_ne_of_signals (hfits : ∀ c ∈ cs, c.syncValue + 1 < 2 ^ 64) (hordered : Ordered cs)
    {v : ℕ} (hlast : b.lastPresentSync < v) (hsignals : ∀ x ∈ signals cs b, v + 1 < x) :
    ∀ y ∈ steps cs b, y.1.submitted y.2 = true → y.1.hasFrame = true → y.1.syncValue ≠ v := by
  induction cs generalizing b with
  | nil => exact fun y hy => nomatch hy
  | cons c cs ih =>
    obtain ⟨hhead, htail⟩ := List.pairwise_cons.mp hordered
    have ih' : ∀ b', b'.lastPresentSync < v → (∀ x ∈ signals cs b', v + 1 < x) →
        ∀ y ∈ steps cs b', y.1.submitted y.2 = true → y.1.hasFrame = true → y.1.syncValue ≠ v :=
      fun b' hb' => ih (fun c' hc' => hfits c' (List.mem_cons_of_mem _ hc')) htail hb'
    have hrest : ∀ x ∈ signals cs (c.after b), v + 1 < x := fun x hx =>
      hsignals x (List.mem_append_right _ hx)
    rcases cases (hfits c (List.mem_cons_self ..)) (b := b) with
      ⟨hnot, -, hafter⟩ | ⟨-, hsome, hresult⟩
    · intro y hy hsubmitted
      rcases List.mem_cons.mp hy with rfl | hy
      · exact nomatch hnot.symm.trans hsubmitted
      · exact ih' _ (hafter.symm ▸ hlast) hrest y hy hsubmitted
    · -- If the first present had frame `v`, it would signal `v + 1`.
      have hne : c.hasFrame = true → c.syncValue ≠ v := by
        rintro hframe rfl
        rw [if_pos (newFrame_iff.mpr ⟨hframe, hlast⟩)] at hsome
        have := hsignals (c.syncValue + 1)
          (List.mem_append_left _ (hsome ▸ List.mem_singleton_self _))
        omega
      intro y hy hsubmitted hframe
      rcases List.mem_cons.mp hy with rfl | hy
      · exact hne hframe
      · by_cases hlast' : (c.after b).lastPresentSync < v
        · exact ih' _ hlast' hrest y hy hsubmitted hframe
        · rcases hresult with ⟨-, hafter⟩ | ⟨-, hafter⟩ <;> rw [hafter] at hlast'
          · rw [consumed] at hlast'
            split_ifs at hlast' with hnew
            · -- The first present has moved on to a frame beyond `v`, and so have the later ones.
              have hframe' := (newFrame_iff.mp hnew).1
              have hle := hhead y.1 (mem_of_mem_steps hy) hframe' hframe
              have := hne hframe'
              dsimp only at hlast'
              omega
            · exact absurd hlast hlast'
          · exact absurd hlast hlast'

/-- What a present signals stays below what the later ones signal exactly when none of them retries
it. -/
theorem signalled_lt_iff (hfits : ∀ c' ∈ c :: cs, c'.syncValue + 1 < 2 ^ 64)
    (hordered : Ordered (c :: cs)) :
    (∀ v ∈ c.signalled b, ∀ x ∈ signals cs (c.after b), v < x) ↔
      ∀ y ∈ steps cs (c.after b), NotRetried (c, b) y := by
  obtain ⟨hhead, htail⟩ := List.pairwise_cons.mp hordered
  have hfits' : ∀ c' ∈ cs, c'.syncValue + 1 < 2 ^ 64 := fun c' hc' =>
    hfits c' (List.mem_cons_of_mem _ hc')
  have hsilent : c.signalled b = [] → ((∀ v ∈ c.signalled b, ∀ x ∈ signals cs (c.after b), v < x) ↔
      ∀ y ∈ steps cs (c.after b), NotRetried (c, b) y) := fun hnone =>
    ⟨fun _ _ _ hsome => absurd hnone hsome, fun _ v hv => nomatch hnone ▸ hv⟩
  rcases cases (hfits c (List.mem_cons_self ..)) (b := b) with ⟨-, hnone, -⟩ | ⟨-, hsome, hresult⟩
  · -- A present that signals nothing is neither retried nor overtaken.
    exact hsilent hnone
  by_cases hnew : b.newFrame c.syncValue c.hasFrame = true
  · rw [if_pos hnew] at hsome
    obtain ⟨hframe, hlast⟩ := newFrame_iff.mp hnew
    rcases hresult with ⟨hok, hafter⟩ | ⟨hfails, hafter⟩
    · -- The frame has been presented, and later signals are beyond it.
      have hlast' : (c.after b).lastPresentSync = c.syncValue := by
        rw [hafter, consumed, if_pos hnew]
      refine ⟨fun _ y _ _ hfails => (nomatch hok.symm.trans hfails), fun _ v hv x hx => ?_⟩
      obtain rfl := List.mem_singleton.mp (hsome ▸ hv)
      exact hlast' ▸ lt_of_mem_signals hfits' hx
    · -- The frame has been signalled, but the backend still waits for it: any later present of it
      -- is a retry.
      rw [hafter]
      constructor
      · intro hlt y hy _ _ hsubmitted hframe'
        refine syncValue_ne_of_signals hfits' htail hlast (fun x hx => ?_) y hy hsubmitted hframe'
        exact hlt _ (hsome ▸ List.mem_singleton_self _) x hx
      · intro hnot v hv x hx
        obtain rfl := List.mem_singleton.mp (hsome ▸ hv)
        obtain ⟨y, hy, hsubmitted, hframe', rfl⟩ := exists_step_of_mem_signals hfits' hx
        have hne := hnot y hy (by rw [hsome]; exact List.cons_ne_nil _ _) hfails hsubmitted hframe'
        have hle := hhead y.1 (mem_of_mem_steps hy) hframe hframe'
        exact Nat.succ_lt_succ (Nat.lt_of_le_of_ne hle hne.symm)
  · exact hsilent (by rw [hsome, if_neg hnew])

/-- The values signalled increase strictly exactly when no present gets as far as its submit after
one of the same sync value has failed after signalling. -/
theorem signals_increase_iff (hfits : ∀ c ∈ cs, c.syncValue + 1 < 2 ^ 64) (hordered : Ordered cs) :
    (signals cs b).Pairwise (· < ·) ↔ (steps cs b).Pairwise NotRetried := by
  induction cs generalizing b with
  | nil => exact ⟨fun _ => .nil, fun _ => .nil⟩
  | cons c cs ih =>
    have hrest := ih (b := c.after b) (fun c' hc' => hfits c' (List.mem_cons_of_mem _ hc'))
      (List.pairwise_cons.mp hordered).2
    -- One present signals one value at most.
    have hself : (c.signalled b).Pairwise (· < ·) := by
      rcases cases (hfits c (List.mem_cons_self ..)) (b := b) with ⟨-, hnone, -⟩ | ⟨-, hsome, -⟩
      · exact hnone ▸ .nil
      · rw [hsome]
        split_ifs
        · exact List.pairwise_singleton _ _
        · exact .nil
    rw [signals, steps, List.pairwise_cons, List.pairwise_append, hrest,
      signalled_lt_iff hfits hordered]
    exact ⟨fun h => ⟨h.2.2, h.2.1⟩, fun h => ⟨hself, h.2, h.1⟩⟩

/-! ### Presents of a headless backend -/

/-- Every call succeeds. -/
def smooth : ∀ c, Answer c
  | .vk _ => .success
  | .ensureCompositeResources => .ok ()
  | .render _ => .ok ()

/-- The wait for the fence times out after the submit. -/
def fenceTimesOut : ∀ c, Answer c
  | .vk .waitForFences => .timeout
  | .vk _ => .success
  | .ensureCompositeResources => .ok ()
  | .render _ => .ok ()

/-- A headless backend with three surfaces, none of which has been presented. -/
def headless : VulkanBackend :=
  { device := true, surfaces := 3, consumeTimeline := true, swapchain := false }

/-- A present of slot 0 without readback. -/
def presentOf (syncValue : ℕ) (answer : ∀ c, Answer c) : PresentCall :=
  { readyIndex := 0, syncValue, hasFrame := true, outRgba := false, answer }

/-- A frame whose fence wait times out is signalled twice. -/
theorem signals_increase_iff_repeated :
    (signals [presentOf 2 smooth, presentOf 2 fenceTimesOut, presentOf 4 smooth] headless).Pairwise
        (· < ·) ↔
      (steps [presentOf 2 smooth, presentOf 2 fenceTimesOut, presentOf 4 smooth] headless).Pairwise
        NotRetried :=
  signals_increase_iff (by decide) (by unfold Ordered; decide)

/-- A present whose fence wait times out is retried, and signals the same value again. -/
theorem signals_same_value_again :
    Ordered [presentOf 2 fenceTimesOut, presentOf 2 smooth] ∧
      signals [presentOf 2 fenceTimesOut, presentOf 2 smooth] headless = [3, 3] ∧
        ¬(signals [presentOf 2 fenceTimesOut, presentOf 2 smooth] headless).Pairwise (· < ·) := by
  have hsignals : signals [presentOf 2 fenceTimesOut, presentOf 2 smooth] headless = [3, 3] := by
    decide
  exact ⟨by unfold Ordered; decide, hsignals, by rw [hsignals]; decide⟩

end PresentCall

end RetroPark.Vulkan
