import Mathlib
import RetroPark.Runtime.Driven

/-!
# Specifications of the runtime's methods

Hoare triples for the state monad of the runtime's methods, used with `mvcgen`. A property of the
world gets its own specification of each loader call it depends on, and the triples of the
runtime's methods follow from those.

The first such property is `Runtime.footing`: what decides whether `advance` runs a frame. None of
the methods a netplay session calls changes it (`advance_footing` and the lemmas before it), for any
core and any device.
-/

namespace RetroPark

open Std.Do

set_option mvcgen.warning false

namespace CoreLoader

variable {κ : Type} (env : CoreEnv κ) (l : CoreLoader) (k : κ)

/-- Asking for the size of a savestate leaves the loader alone. -/
theorem serializeSize_loader : (l.serializeSize env k).loader = l := by
  unfold serializeSize
  split_ifs <;> rfl

/-- Taking a savestate leaves the loader alone. -/
theorem serialize_loader (size : ℕ) : (l.serialize env size k).loader = l := by
  unfold serialize
  split_ifs <;> rfl

/-- Restoring a savestate leaves the loader alone. -/
theorem unserialize_loader (data : Blob) : (l.unserialize env data k).loader = l := by
  unfold unserialize
  split_ifs <;> rfl

/-- Running a frame leaves the loader alone. -/
theorem runFrame_loader (port0 port1 : InputState) :
    (l.runFrame env port0 port1 k).loader = l := by
  unfold runFrame
  split_ifs <;> rfl

/-- The core can be asked for a frame: it has an instance and a `run_frame`. -/
def canRun : Bool := l.hasInstance && l.table.runFrame

/-- A frame is run exactly when the core can be asked for one. -/
theorem runFrame_ok_iff (port0 port1 : InputState) :
    (l.runFrame env port0 port1 k).value = .ok ↔ l.canRun = true := by
  unfold runFrame canRun
  split_ifs <;> simp_all [fail]

end CoreLoader

namespace Runtime

variable {κ β : Type} (env : Env κ β)

/-- What a triple says about a run. -/
theorem run_of_triple {α : Type} {prog : RuntimeM κ β α} {P : World κ β → Prop}
    {Q : α → World κ β → Prop} (h : ⦃fun w => ⌜P w⌝⦄ prog ⦃⇓ a w => ⌜Q a w⌝⦄) {w : World κ β}
    (hw : P w) : Q (prog.run w).1 (prog.run w).2 :=
  StateM.of_wp_run_eq rfl (fun x => Q x.1 x.2) (by simpa using h w hw)

/-- A statement about every run is a triple. -/
theorem triple_of_run {α : Type} {prog : RuntimeM κ β α} {P : World κ β → Prop}
    {Q : α → World κ β → Prop} (h : ∀ w, P w → Q (prog.run w).1 (prog.run w).2) :
    ⦃fun w => ⌜P w⌝⦄ prog ⦃⇓ a w => ⌜Q a w⌝⦄ := by
  intro w hw
  exact h w hw

/-- An update of the runtime changes nothing else. -/
@[spec]
theorem update_spec (f : Runtime → Runtime) {Q : PostCond Unit (.arg (World κ β) .pure)} :
    ⦃fun w => Q.1 () { w with rt := f w.rt }⦄ update f ⦃Q⦄ := by
  mvcgen [update]

/-! ### Whether a frame can be run -/

/-- What `advance` checks first: a driven core is loaded and has its content if it takes any. -/
def driving (rt : Runtime) : Bool :=
  rt.backend && rt.coreLoaded && decide (rt.coreType = .driven) &&
    (!rt.requiresContent || rt.contentLoaded)

/-- What decides whether `advance` runs a frame. -/
def footing (rt : Runtime) : Bool × Bool := (rt.driving, rt.loader.canRun)

/-- A loader method that leaves the loader as it is cannot change whether a frame can be run. -/
theorem callLoader_footing {α : Type} (f : CoreLoader → κ → LoaderOutcome κ α)
    (hl : ∀ l k, (f l k).loader = l) (w : World κ β) :
    ((callLoader env f).run w).1 = (f w.rt.loader w.core).value ∧
      ((callLoader env f).run w).2.rt.footing = w.rt.footing := by
  obtain ⟨w', hrun, -, hrt⟩ := callLoader_steady env f w (hl _ _)
  rw [hrun]
  exact ⟨rfl, (congrArg footing hrt :)⟩

section Footing

variable {b : Bool × Bool}

/-- Asking for the size of a savestate keeps the footing. -/
theorem callSerializeSize_footing :
    ⦃fun w => ⌜w.rt.footing = b⌝⦄ callLoader env (·.serializeSize env.core ·)
      ⦃⇓ _ w => ⌜w.rt.footing = b⌝⦄ :=
  triple_of_run fun w hw =>
    (callLoader_footing env _ (fun l k => l.serializeSize_loader env.core k) w).2.trans hw

/-- Taking a savestate keeps the footing. -/
theorem callSerialize_footing (size : ℕ) :
    ⦃fun w => ⌜w.rt.footing = b⌝⦄ callLoader env (·.serialize env.core size ·)
      ⦃⇓ _ w => ⌜w.rt.footing = b⌝⦄ :=
  triple_of_run fun w hw =>
    (callLoader_footing env _ (fun l k => l.serialize_loader env.core k size) w).2.trans hw

/-- Restoring a savestate keeps the footing. -/
theorem callUnserialize_footing (data : Blob) :
    ⦃fun w => ⌜w.rt.footing = b⌝⦄ callLoader env (·.unserialize env.core data ·)
      ⦃⇓ _ w => ⌜w.rt.footing = b⌝⦄ :=
  triple_of_run fun w hw =>
    (callLoader_footing env _ (fun l k => l.unserialize_loader env.core k data) w).2.trans hw

/-- Running a frame keeps the footing, and succeeds if the core can be asked for one. -/
theorem callRunFrame_footing (port0 port1 : InputState) :
    ⦃fun w => ⌜w.rt.footing = b⌝⦄ callLoader env (·.runFrame env.core port0 port1 ·)
      ⦃⇓ r w => ⌜w.rt.footing = b ∧ (r = .ok ↔ b.2 = true)⌝⦄ := by
  refine triple_of_run fun w hw => ?_
  obtain ⟨hvalue, hkeep⟩ :=
    callLoader_footing env _ (fun l k => l.runFrame_loader env.core k port0 port1) w
  refine ⟨hkeep.trans hw, ?_⟩
  rw [hvalue, CoreLoader.runFrame_ok_iff, ← hw]
  rfl

/-- `serialize_size` keeps the footing. -/
theorem serializeSize_footing :
    ⦃fun w => ⌜w.rt.footing = b⌝⦄ serializeSize env ⦃⇓ _ w => ⌜w.rt.footing = b⌝⦄ :=
  callSerializeSize_footing env

/-- `set_input` keeps the footing. -/
theorem setInput_footing (port : UInt32) (input : InputState) :
    ⦃fun w => ⌜w.rt.footing = b⌝⦄ (setInput port input : RuntimeM κ β Unit)
      ⦃⇓ _ w => ⌜w.rt.footing = b⌝⦄ := by
  refine triple_of_run fun w hw => ?_
  change (if port &&& 1 = 0 then _ else _ : Runtime).footing = b
  split_ifs <;> exact hw

/-- The capture of a rewind snapshot keeps the footing. -/
theorem captureRewind_footing :
    ⦃fun w => ⌜w.rt.footing = b⌝⦄ captureRewind env ⦃⇓ _ w => ⌜w.rt.footing = b⌝⦄ := by
  mvcgen [captureRewind, callSerializeSize_footing, callSerialize_footing]
  all_goals simp_all [footing, driving]

/-- `save_state` keeps the footing. -/
theorem saveState_footing (buf : Bool) (size : ℕ) :
    ⦃fun w => ⌜w.rt.footing = b⌝⦄ saveState env buf size ⦃⇓ _ w => ⌜w.rt.footing = b⌝⦄ := by
  mvcgen [saveState, callSerializeSize_footing, callSerialize_footing] <;> simp_all

/-- `load_state` keeps the footing. -/
theorem loadState_footing (data : Blob) :
    ⦃fun w => ⌜w.rt.footing = b⌝⦄ loadState env data ⦃⇓ _ w => ⌜w.rt.footing = b⌝⦄ := by
  mvcgen [loadState, callUnserialize_footing]

/-- `advance` succeeds exactly when a frame can be run. -/
theorem advance_footing (emit : Bool) :
    ⦃fun w => ⌜w.rt.footing = b⌝⦄ advance env emit
      ⦃⇓ r w => ⌜w.rt.footing = b ∧ (r = .ok ↔ b.1 = true ∧ b.2 = true)⌝⦄ := by
  mvcgen [advance, captureRewind_footing, callRunFrame_footing]
  all_goals grind [footing, driving]

/-- `render` keeps the footing. -/
theorem render_footing (wantPixels : Bool) :
    ⦃fun w => ⌜w.rt.footing = b⌝⦄ render env wantPixels ⦃⇓ _ w => ⌜w.rt.footing = b⌝⦄ := by
  mvcgen [render, renderDriven, renderRing]

end Footing

end Runtime

end RetroPark
