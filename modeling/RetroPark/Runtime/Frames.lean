import RetroPark.Runtime.Triples

/-!
# Core frames

How many frames a runtime has run its core for, read off the log of boundary crossings.

* `abiLog` is the log of ABI calls alone; a loader call adds its own trace to it and callbacks add
  nothing (`callLoader_abiLog`);
* `coreFrames` counts the `run_frame` calls among them;
* `present_gauge` says that `present` runs the core for one frame exactly when `runsFrame` holds
  before it, for any core and any device.
-/

namespace RetroPark

open Std.Do

set_option mvcgen.warning false

/-- The ABI call an event of the log is. -/
def Event.abiCall? : Event → Option AbiCall
  | .abi call => some call
  | _ => none

/-- Whether an ABI call runs the core for a frame. -/
def AbiCall.isRunFrame : AbiCall → Bool
  | .runFrame _ _ _ => true
  | _ => false

/-- The ABI calls of a world's log, newest first. -/
def World.abiLog {κ β : Type*} (w : World κ β) : List AbiCall := w.log.filterMap Event.abiCall?

/-- The number of frames the core has been run for. -/
def World.coreFrames {κ β : Type*} (w : World κ β) : ℕ := w.abiLog.countP AbiCall.isRunFrame

namespace Runtime

variable {κ β : Type} (env : Env κ β)

/-! ### The log of ABI calls -/

/-- A callback calls no function of the core. -/
theorem hostCall_abiLog (c : HostCall) (w : World κ β) :
    ((hostCall env c).run w).2.abiLog = w.abiLog := by
  cases c with
  | audioSample frames n =>
    obtain ⟨_, _, _, hrun, -⟩ := onAudioSample_run env frames n w
    rw [hostCall, hrun]
    rfl
  | _ => rfl

/-- Callbacks are no ABI calls. -/
theorem hostCalls_abiLog (cs : List HostCall) (w : World κ β) :
    ((hostCalls env cs).run w).2.abiLog = w.abiLog := by
  induction cs generalizing w with
  | nil => rfl
  | cons c cs ih => exact (ih _).trans (hostCall_abiLog env c w)

/-- The calls in a trace of calls are the trace. -/
theorem filterMap_abi (trace : List AbiCall) :
    (trace.map Event.abi).filterMap Event.abiCall? = trace := by
  induction trace with
  | nil => rfl
  | cons call trace ih =>
    rw [List.map_cons,
      List.filterMap_cons_some (show (Event.abi call).abiCall? = some call from rfl),
      ih]

/-- A loader call adds the calls it made to the log of ABI calls. -/
theorem callLoader_abiLog {α : Type} (f : CoreLoader → κ → LoaderOutcome κ α) (w : World κ β) :
    ((callLoader env f).run w).2.abiLog =
      (f w.rt.loader w.core).trace.reverse ++ w.abiLog := by
  refine (hostCalls_abiLog env _ _).trans ?_
  show (((f w.rt.loader w.core).trace.map Event.abi).reverse ++ w.log).filterMap _ = _
  rw [List.filterMap_append, List.filterMap_reverse, filterMap_abi]
  rfl

/-! ### Presenting runs one frame or none -/

/-- What decides whether `present` runs the core for a frame: a driven core is loaded with its
content, it has an instance and a `run_frame`, and the runtime is not paused. -/
def runsFrame (rt : Runtime) : Bool := rt.driving && rt.loader.canRun && !rt.paused

/-- What decides whether a frame is run, together with the number of frames run so far. -/
def gauge (w : World κ β) : (Bool × Bool) × Bool × ℕ :=
  (w.rt.footing, w.rt.paused, w.coreFrames)

/-- A loader method that leaves the loader as it is moves the gauge by the frames in its trace. -/
theorem callLoader_gauge {α : Type} (f : CoreLoader → κ → LoaderOutcome κ α)
    (hl : ∀ l k, (f l k).loader = l) (w : World κ β) :
    ((callLoader env f).run w).1 = (f w.rt.loader w.core).value ∧
      gauge ((callLoader env f).run w).2 = (w.rt.footing, w.rt.paused,
        w.coreFrames + (f w.rt.loader w.core).trace.countP AbiCall.isRunFrame) := by
  have hlog := callLoader_abiLog env f w
  obtain ⟨w', hrun, -, hrt⟩ := callLoader_steady env f w (hl _ _)
  rw [hrun] at hlog ⊢
  have hframes : w'.coreFrames =
      w.coreFrames + (f w.rt.loader w.core).trace.countP AbiCall.isRunFrame := by
    rw [World.coreFrames, hlog, List.countP_append, List.countP_reverse]
    exact Nat.add_comm _ _
  refine ⟨rfl, ?_⟩
  rw [gauge, hframes]
  exact congrArg₂ (fun b p => (b, p, _)) (congrArg footing hrt :) (congrArg paused hrt :)

section Gauge

variable {g : (Bool × Bool) × Bool × ℕ}

/-- Asking for the size of a savestate runs no frame. -/
theorem callSerializeSize_gauge :
    ⦃fun w => ⌜gauge w = g⌝⦄ callLoader env (·.serializeSize env.core ·)
      ⦃⇓ _ w => ⌜gauge w = g⌝⦄ := by
  refine triple_of_run fun w hw => ?_
  have htrace :
    (w.rt.loader.serializeSize env.core w.core).trace.countP AbiCall.isRunFrame = 0 := by
    unfold CoreLoader.serializeSize
    split_ifs <;> rfl
  rw [(callLoader_gauge env _ (fun l k => l.serializeSize_loader env.core k) w).2, htrace]
  exact hw

/-- Taking a savestate runs no frame. -/
theorem callSerialize_gauge (size : ℕ) :
    ⦃fun w => ⌜gauge w = g⌝⦄ callLoader env (·.serialize env.core size ·)
      ⦃⇓ _ w => ⌜gauge w = g⌝⦄ := by
  refine triple_of_run fun w hw => ?_
  have htrace :
    (w.rt.loader.serialize env.core size w.core).trace.countP AbiCall.isRunFrame = 0 := by
    unfold CoreLoader.serialize
    split_ifs <;> rfl
  rw [(callLoader_gauge env _ (fun l k => l.serialize_loader env.core k size) w).2, htrace]
  exact hw

/-- A core that can be asked for a frame runs one; another is not called. -/
theorem callRunFrame_gauge (port0 port1 : InputState) :
    ⦃fun w => ⌜gauge w = g⌝⦄ callLoader env (·.runFrame env.core port0 port1 ·)
      ⦃⇓ r w => ⌜gauge w = (g.1, g.2.1, g.2.2 + if g.1.2 then 1 else 0) ∧
        (r = .ok ↔ g.1.2 = true)⌝⦄ := by
  refine triple_of_run fun w hw => ?_
  have htrace : (w.rt.loader.runFrame env.core port0 port1 w.core).trace.countP
      AbiCall.isRunFrame = if w.rt.loader.canRun then 1 else 0 := by
    unfold CoreLoader.runFrame CoreLoader.canRun
    split_ifs <;> simp_all [AbiCall.isRunFrame, CoreLoader.fail]
  obtain ⟨hvalue, hgauge⟩ :=
    callLoader_gauge env _ (fun l k => l.runFrame_loader env.core k port0 port1) w
  obtain rfl := hw
  exact ⟨by rw [hgauge, htrace]; rfl, by rw [hvalue, CoreLoader.runFrame_ok_iff]; rfl⟩

/-- `set_input` runs no frame. -/
theorem setInput_gauge (port : UInt32) (input : InputState) :
    ⦃fun w => ⌜gauge w = g⌝⦄ (setInput port input : RuntimeM κ β Unit)
      ⦃⇓ _ w => ⌜gauge w = g⌝⦄ := by
  refine triple_of_run fun w hw => ?_
  obtain rfl := hw
  show gauge { w with rt := if port &&& 1 = 0 then _ else _ } = gauge w
  split_ifs <;> rfl

/-- `serialize_size` runs no frame. -/
theorem serializeSize_gauge :
    ⦃fun w => ⌜gauge w = g⌝⦄ serializeSize env ⦃⇓ _ w => ⌜gauge w = g⌝⦄ :=
  callSerializeSize_gauge env

/-- The capture of a rewind snapshot runs no frame. -/
theorem captureRewind_gauge :
    ⦃fun w => ⌜gauge w = g⌝⦄ captureRewind env ⦃⇓ _ w => ⌜gauge w = g⌝⦄ := by
  mvcgen [captureRewind, callSerializeSize_gauge, callSerialize_gauge]
  all_goals simp_all [gauge, footing, driving, World.coreFrames, World.abiLog]

/-- `save_state` runs no frame. -/
theorem saveState_gauge (buf : Bool) (size : ℕ) :
    ⦃fun w => ⌜gauge w = g⌝⦄ saveState env buf size ⦃⇓ _ w => ⌜gauge w = g⌝⦄ := by
  mvcgen [saveState, callSerializeSize_gauge, callSerialize_gauge] <;> simp_all

/-- `advance` runs the core for one frame if one can be run, and for none otherwise. -/
theorem advance_gauge (emit : Bool) :
    ⦃fun w => ⌜gauge w = g⌝⦄ advance env emit
      ⦃⇓ _ w => ⌜gauge w = (g.1, g.2.1, g.2.2 + if g.1.1 && g.1.2 then 1 else 0)⌝⦄ := by
  mvcgen [advance, captureRewind_gauge, callRunFrame_gauge]
  all_goals grind [gauge, footing, driving, World.coreFrames, World.abiLog]

/-- `render` runs no frame. -/
theorem render_gauge (wantPixels : Bool) :
    ⦃fun w => ⌜gauge w = g⌝⦄ render env wantPixels ⦃⇓ _ w => ⌜gauge w = g⌝⦄ := by
  mvcgen [render, renderDriven, renderRing]

/-- `present` runs the core for one frame exactly when `runsFrame` holds before it. -/
theorem present_gauge (wantPixels : Bool) :
    ⦃fun w => ⌜gauge w = g⌝⦄ present env wantPixels
      ⦃⇓ _ w => ⌜gauge w =
        (g.1, g.2.1, g.2.2 + if g.1.1 && g.1.2 && !g.2.1 then 1 else 0)⌝⦄ := by
  mvcgen [present, advance_gauge, render_gauge]
  all_goals grind [gauge, footing, driving]

end Gauge

end Runtime

end RetroPark
