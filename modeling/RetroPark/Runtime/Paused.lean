import RetroPark.Runtime.Frames

/-!
# What a paused runtime does

`pulse` is the pause flag with the number of frames the core has been run for. A paused runtime
keeps both under every method that does not end the pause, `advance` apart, which does not look at
the flag (`call_paused`).
-/

namespace RetroPark

open Std.Do

set_option mvcgen.warning false

namespace Runtime

variable {κ β : Type} (env : Env κ β)

/-! ### Savestates -/

section Gauge

variable {g : (Bool × Bool) × Bool × ℕ}

/-- Restoring a savestate runs no frame and leaves the pause flag alone. -/
theorem callUnserialize_gauge (data : Blob) :
    ⦃fun w => ⌜gauge w = g⌝⦄ callLoader env (·.unserialize env.core data ·)
      ⦃⇓ _ w => ⌜gauge w = g⌝⦄ := by
  refine triple_of_run fun w hw => ?_
  have htrace :
    (w.rt.loader.unserialize env.core data w.core).trace.countP AbiCall.isRunFrame = 0 := by
    unfold CoreLoader.unserialize
    split_ifs <;> rfl
  rw [(callLoader_gauge env _ (fun l k => l.unserialize_loader env.core k data) w).2, htrace]
  exact hw

/-- `load_state` runs no frame and leaves the pause flag alone. -/
theorem loadState_gauge (data : Blob) :
    ⦃fun w => ⌜gauge w = g⌝⦄ loadState env data ⦃⇓ _ w => ⌜gauge w = g⌝⦄ := by
  mvcgen [loadState, callUnserialize_gauge]

/-- `set_rewind` runs no frame and leaves the pause flag alone. -/
theorem setRewind_gauge (enabled : Bool) (maxSnapshots : ℕ) :
    ⦃fun w => ⌜gauge w = g⌝⦄ setRewind env enabled maxSnapshots ⦃⇓ _ w => ⌜gauge w = g⌝⦄ := by
  mvcgen [setRewind, callSerializeSize_gauge]
  all_goals simp_all [gauge, footing, driving, World.coreFrames, World.abiLog]

/-- `rewind` runs no frame and leaves the pause flag alone. -/
theorem rewind_gauge : ⦃fun w => ⌜gauge w = g⌝⦄ rewind env ⦃⇓ _ w => ⌜gauge w = g⌝⦄ := by
  mvcgen [rewind, callUnserialize_gauge]
  all_goals simp_all [gauge, footing, driving, World.coreFrames, World.abiLog]

end Gauge

/-! ### Calls that are no frames -/

/-- The pause flag and the number of frames run so far. -/
def pulse (w : World κ β) : Bool × ℕ := (w.rt.paused, w.coreFrames)

/-- Callbacks are no frames and do not end a pause. -/
theorem hostCalls_pulse (cs : List HostCall) (w : World κ β) :
    pulse ((hostCalls env cs).run w).2 = pulse w := by
  have hpaused : ((hostCalls env cs).run w).2.rt.paused = w.rt.paused :=
    (congrArg paused (hostCalls_steady env cs w).2 :)
  rw [pulse, World.coreFrames, hostCalls_abiLog, hpaused]
  rfl

/-- A loader method that runs no frame. -/
theorem callLoader_pulse {α : Type} (f : CoreLoader → κ → LoaderOutcome κ α)
    (htrace : ∀ l k, (f l k).trace.countP AbiCall.isRunFrame = 0) {b : Bool × ℕ} :
    ⦃fun w => ⌜pulse w = b⌝⦄ callLoader env f ⦃⇓ _ w => ⌜pulse w = b⌝⦄ := by
  refine triple_of_run fun w hw => ?_
  have hframes : ((callLoader env f).run w).2.coreFrames = w.coreFrames := by
    rw [World.coreFrames, callLoader_abiLog, List.countP_append, List.countP_reverse,
      htrace, zero_add]
    rfl
  have hpaused : ((callLoader env f).run w).2.rt.paused = w.rt.paused :=
    (congrArg paused (hostCalls_steady env _ _).2 :)
  rw [pulse, hframes, hpaused]
  exact hw

section Pulse

variable {b : Bool × ℕ}

/-- Stopping the core runs no frame. -/
theorem callStop_pulse :
    ⦃fun w => ⌜pulse w = b⌝⦄ callLoader env (·.stop env.core ·) ⦃⇓ _ w => ⌜pulse w = b⌝⦄ := by
  refine callLoader_pulse env _ fun l k => ?_
  unfold CoreLoader.stop
  split_ifs <;> rfl

/-- Starting the core runs no frame. -/
theorem callStart_pulse :
    ⦃fun w => ⌜pulse w = b⌝⦄ callLoader env (·.start env.core ·) ⦃⇓ _ w => ⌜pulse w = b⌝⦄ := by
  refine callLoader_pulse env _ fun l k => ?_
  unfold CoreLoader.start
  split_ifs <;> rfl

/-- Handing over surfaces runs no frame. -/
theorem callSetSurfaces_pulse (set : SurfaceSet) :
    ⦃fun w => ⌜pulse w = b⌝⦄ callLoader env (·.setSurfaces env.core set ·)
      ⦃⇓ _ w => ⌜pulse w = b⌝⦄ := by
  refine callLoader_pulse env _ fun l k => ?_
  unfold CoreLoader.setSurfaces
  split_ifs <;> rfl

/-- Asking for the geometry runs no frame. -/
theorem callGetAvInfo_pulse :
    ⦃fun w => ⌜pulse w = b⌝⦄ callLoader env (·.getAvInfo env.core ·) ⦃⇓ _ w => ⌜pulse w = b⌝⦄ := by
  refine callLoader_pulse env _ fun l k => ?_
  unfold CoreLoader.getAvInfo
  split_ifs <;> rfl

/-- Giving content to the core runs no frame. -/
theorem callLoadContent_pulse (path : String) :
    ⦃fun w => ⌜pulse w = b⌝⦄ callLoader env (·.loadContent env.core path ·)
      ⦃⇓ _ w => ⌜pulse w = b⌝⦄ := by
  refine callLoader_pulse env _ fun l k => ?_
  unfold CoreLoader.loadContent
  split_ifs <;> rfl

/-- Allocating surfaces runs no frame. -/
theorem allocateSurfaces_pulse :
    ⦃fun w => ⌜pulse w = b⌝⦄ allocateSurfaces env ⦃⇓ _ w => ⌜pulse w = b⌝⦄ :=
  triple_of_run fun _ hw => hw

/-- Opening the audio output runs no frame. -/
theorem openAudio_pulse (av : AvInfo) :
    ⦃fun w => ⌜pulse w = b⌝⦄ openAudio env av ⦃⇓ _ w => ⌜pulse w = b⌝⦄ := by
  mvcgen [openAudio]

/-- `rebuild_surfaces` runs no frame and leaves the pause flag alone. -/
theorem rebuildSurfaces_pulse :
    ⦃fun w => ⌜pulse w = b⌝⦄ rebuildSurfaces env ⦃⇓ _ w => ⌜pulse w = b⌝⦄ := by
  have hstop := callStop_pulse env (b := b)
  have hallocate := allocateSurfaces_pulse env (b := b)
  have hset := callSetSurfaces_pulse env (b := b)
  mvcgen [rebuildSurfaces, hstop, hallocate, hset]

/-- `resize` runs no frame and leaves the pause flag alone. -/
theorem resize_pulse (width height : UInt32) :
    ⦃fun w => ⌜pulse w = b⌝⦄ resize env width height ⦃⇓ _ w => ⌜pulse w = b⌝⦄ := by
  have hrebuild := rebuildSurfaces_pulse env (b := b)
  have hstart := callStart_pulse env (b := b)
  mvcgen [resize, hrebuild, hstart]

/-- `load_content` runs no frame and leaves the pause flag alone. -/
theorem loadContent_pulse (path : Option String) :
    ⦃fun w => ⌜pulse w = b⌝⦄ loadContent env path ⦃⇓ _ w => ⌜pulse w = b⌝⦄ := by
  have hload := callLoadContent_pulse env (b := b)
  have hstart := callStart_pulse env (b := b)
  have hask := callGetAvInfo_pulse env (b := b)
  have haudio := openAudio_pulse env (b := b)
  mvcgen [loadContent, hload, hstart, hask, haudio]

end Pulse

/-! ### The calls of a host program -/

/-- A call that ends a pause. -/
def ApiCall.endsPause : ApiCall → Bool
  | .resume | .reset | .unloadCore | .loadCore _ | .loadStaticCore _ => true
  | _ => false

/-- A call that runs the core for a frame although the runtime is paused. -/
def runsPaused (rt : Runtime) : ApiCall → Bool
  | .advance _ => rt.driving && rt.loader.canRun
  | _ => false

/-- `pause` sets the pause flag if a core is loaded, and runs no frame. -/
theorem pause_pulse (w : World κ β) :
    pulse ((pause : RuntimeM κ β RpResult).run w).2 =
      (w.rt.coreLoaded || w.rt.paused, w.coreFrames) := by
  change ((if w.rt.coreLoaded then { w.rt with paused := true } else w.rt : Runtime).paused, _) = _
  cases w.rt.coreLoaded <;> rfl

/-- What keeps the gauge keeps the pulse. -/
theorem pulse_of_gauge {α : Type} {prog : RuntimeM κ β α} {w : World κ β} {n : ℕ}
    (h : gauge (prog.run w).2 = (w.rt.footing, w.rt.paused, n)) :
      pulse (prog.run w).2 = (w.rt.paused, n) :=
  congrArg Prod.snd h

/-- While the runtime is paused no call runs a frame but `advance`, and none but those that end the
pause lets it go on. -/
theorem call_paused {a : ApiCall} (ha : a.endsPause = false) {w : World κ β}
    (hpaused : w.rt.paused = true) :
    pulse ((call env a).run w).2 =
      (w.rt.paused, w.coreFrames + if runsPaused w.rt a then 1 else 0) := by
  cases a with
  | loadContent path => exact run_of_triple (loadContent_pulse env path) rfl
  | resize width height => exact run_of_triple (resize_pulse env width height) rfl
  | setInput port input => exact pulse_of_gauge (run_of_triple (setInput_gauge port input) rfl)
  | present out =>
    have hgauge := run_of_triple (present_gauge env out) (w := w) rfl
    rw [show (gauge w).2.1 = true from hpaused, Bool.not_true, Bool.and_false] at hgauge
    exact pulse_of_gauge (hgauge.trans (by rw [hpaused]; rfl))
  | advance emit => exact pulse_of_gauge (run_of_triple (advance_gauge env emit) rfl)
  | render out => exact pulse_of_gauge (run_of_triple (render_gauge env out) rfl)
  | serializeSize => exact pulse_of_gauge (run_of_triple (serializeSize_gauge env) rfl)
  | saveState buf size => exact pulse_of_gauge (run_of_triple (saveState_gauge env buf size) rfl)
  | loadState data => exact pulse_of_gauge (run_of_triple (loadState_gauge env data) rfl)
  | setRewind on n => exact pulse_of_gauge (run_of_triple (setRewind_gauge env on n) rfl)
  | rewind => exact pulse_of_gauge (run_of_triple (rewind_gauge env) rfl)
  | pause =>
    exact (pause_pulse w).trans (by rw [hpaused, Bool.or_true]; rfl)
  | coreThread calls => exact hostCalls_pulse env calls w
  | _ => exact nomatch ha

end Runtime

end RetroPark
