import Mathlib.Data.Nat.Init
import RetroPark.Loader.CoreLoader
import RetroPark.Render.SurfaceRing

/-!
# The runtime and the world around it

`Runtime` holds the fields of `rp::Runtime`. Its methods run in the state monad `RuntimeM` over a
`World`: the runtime, the core side `κ` behind a `CoreEnv`, the device side `β` behind a `GpuEnv`
(graphics backend and audio output), and a log of every call that crosses one of these
boundaries, newest first. The log is what the statements about orders of calls are about; no
method reads it.

`callLoader` runs a loader method and then applies the callbacks the core made during it, and
`hostCall` is the effect of one callback (`Runtime::on_submit` and its siblings). A callback
touches fields the loader does not read, so applying it after the loader method is applying it
during the call.

The present rate (`tick_fps`) depends on real time and is left out.
-/

namespace RetroPark

/-- What `load_core` finds at `core.json`: no file, text that is not a manifest, or the manifest's
core type and graphics API. The JSON reader is a third-party library. -/
inductive ManifestFile
  | missing
  | malformed
  | manifest (type : CoreType) (graphicsApi : GraphicsApi) (entry : String)
  deriving DecidableEq

/-- The behaviour of the files, modules and static cores a runtime can load, over the same state
as the core. -/
structure ModuleEnv (κ : Type*) where
  /-- The manifest in a core directory. -/
  readManifest : κ → String → ManifestFile
  /-- `Win32CoreModule::open`: whether the module was loaded. -/
  openModule : κ → String → Bool × κ
  /-- `StaticCoreRegistry::get`: whether a static core of this id is registered. -/
  getStatic : κ → String → Bool
  /-- Destroying the module object, which frees a dynamic module. -/
  releaseModule : κ → κ

/-- The behaviour of the graphics backend and the audio output, over a state `β`. A composite is
given whether the caller asked for the pixels. -/
structure GpuEnv (β : Type*) where
  /-- Whether `make_backend` knows the graphics API. -/
  makeBackend : GraphicsApi → Bool
  initBackend : β → ℕ → UInt32 → UInt32 → RpResult × β
  /-- The result and the slots described to the core, whose generation the runtime fills in. -/
  allocateSurfaces : β → ℕ → UInt32 → UInt32 → (RpResult × List SurfaceDesc) × β
  compositeAndPresent : β → ℕ → ℕ → Bool → Bool → RpResult × β
  compositeDriven : β → Option Blob → UInt32 → UInt32 → UInt32 → Bool → Bool → RpResult × β
  compositeExternalGl : β → UInt32 → UInt32 → UInt32 → Bool → Bool → RpResult × β
  presentSyncHandle : β → ℕ
  presentConsumeSyncHandle : β → ℕ
  presentDeviceUuid : β → Blob
  audioOpen : β → UInt32 → RpResult × β
  audioSubmit : β → List Int16 → β
  audioClose : β → β

/-- Everything outside the runtime. -/
structure Env (κ β : Type*) where
  core : CoreEnv κ
  modules : ModuleEnv κ
  gpu : GpuEnv β

/-- `rp::Runtime`. -/
structure Runtime where
  /-- `native_window_`, `0` for a headless runtime. -/
  nativeWindow : ℕ
  api : GraphicsApi
  /-- Whether `backend_` is non-null. -/
  backend : Bool
  /-- Whether `module_` is non-null. -/
  module : Bool := false
  loader : CoreLoader := {}
  ring : SurfaceRing := .new 3
  /-- `input_[0]` and `input_[1]`. -/
  input0 : InputState := .neutral
  input1 : InputState := .neutral
  suppressAudio : Bool := false
  width : UInt32 := 64
  height : UInt32 := 64
  coreLoaded : Bool := false
  initOk : Bool := false
  coreType : CoreType := .presenting
  /-- The CPU frame of the last `video_refresh`. -/
  drData : Option Blob := none
  drW : UInt32 := 0
  drH : UInt32 := 0
  drPitch : UInt32 := 0
  drDupe : Bool := false
  drHave : Bool := false
  drMaxW : UInt32 := 0
  drMaxH : UInt32 := 0
  /-- The texture of the last `video_refresh_gl`. -/
  drGlTex : UInt32 := 0
  drGlW : UInt32 := 0
  drGlH : UInt32 := 0
  drGlBlo : Bool := false
  drIsGl : Bool := false
  glFrames : ℕ := 0
  requiresContent : Bool := false
  contentLoaded : Bool := false
  /-- Whether `audio_` holds an open output. -/
  audio : Bool := false
  audioFrames : ℕ := 0
  audioNonsilent : Bool := false
  inputPolls : ℕ := 0
  audioWantCalls : ℕ := 0
  rewindRing : List Blob := []
  rewindEnabled : Bool := false
  rewindReplay : Bool := false
  rewindMax : ℕ := 0
  paused : Bool := false
  contentPath : String := ""
  coreDir : String := ""
  coreId : String := ""
  lastReadyIdx : ℕ := 0
  lastReadySv : ℕ := 0
  haveLastReady : Bool := false

/-- An entry of the log of boundary crossings. -/
inductive Event
  /-- A call through the core's ABI table. -/
  | abi (call : AbiCall)
  | openModule
  | releaseModule
  /-- A frame submission and whether the ring accepted it. -/
  | submitFrame (index generation syncValue : ℕ) (accepted : Bool)
  | allocateSurfaces (r : RpResult)
  /-- A `composite_and_present` call. -/
  | composite (index syncValue : ℕ) (hasFrame : Bool)
  deriving DecidableEq

/-- The runtime, the core side, the device side, and the log of boundary crossings, newest
first. -/
structure World (κ β : Type*) where
  rt : Runtime
  core : κ
  gpu : β
  log : List Event := []

/-- The monad the runtime's methods run in. -/
abbrev RuntimeM (κ β : Type) := StateM (World κ β)

namespace Runtime

variable {κ β : Type} (env : Env κ β)

/-- Update the runtime's fields. -/
def update (f : Runtime → Runtime) : RuntimeM κ β Unit :=
  modify fun w => { w with rt := f w.rt }

/-- Append to the log. -/
def record (e : Event) : RuntimeM κ β Unit :=
  modify fun w => { w with log := e :: w.log }

/-! ### Callbacks from the core -/

/-- `Runtime::on_submit`. -/
def onSubmit (index generation syncValue : ℕ) : RuntimeM κ β Unit :=
  modify fun w =>
    let r := w.rt.ring.acceptSubmit index generation syncValue
    { w with
      rt := { w.rt with ring := r.2 }
      log := .submitFrame index generation syncValue r.1 :: w.log }

/-- `Runtime::on_video_refresh`. A repeat during a zero-copy run keeps the last texture. -/
def onVideoRefresh (rt : Runtime) (data : Option Blob) (w h pitch : UInt32) : Runtime :=
  if data.isNone && rt.drIsGl then { rt with drHave := true }
  else
    { rt with
      drHave := true
      drDupe := data.isNone
      drIsGl := false
      drData := data
      drW := w
      drH := h
      drPitch := pitch }

/-- `Runtime::on_video_refresh_gl`. -/
def onVideoRefreshGl (rt : Runtime) (tex w h : UInt32) (blo : Bool) : Runtime :=
  { rt with
    drHave := true
    drDupe := false
    drIsGl := true
    drGlTex := tex
    drGlW := w
    drGlH := h
    drGlBlo := blo
    glFrames := rt.glFrames + 1 }

/-- Whether a sample is loud enough to count as sound. -/
def isLoud (s : Int16) : Bool := 128 < s.toInt || s.toInt < -128

/-- `Runtime::on_audio_sample`. -/
def onAudioSample (frames : Option (List Int16)) (n : ℕ) : RuntimeM κ β Unit :=
  modify fun w =>
    if w.rt.suppressAudio || w.rt.paused then w
    else
      match frames with
      | none => w
      | some samples =>
          if n = 0 then w
          else
            { w with
              rt := { w.rt with
                audioFrames := w.rt.audioFrames + n
                audioNonsilent := w.rt.audioNonsilent || (samples.take (2 * n)).any isLoud }
              gpu := if w.rt.audio then env.gpu.audioSubmit w.gpu (samples.take (2 * n))
                else w.gpu }

/-- The effect of one callback on the host. -/
def hostCall : HostCall → RuntimeM κ β Unit
  | .submitFrame index generation syncValue => onSubmit index generation syncValue
  | .inputState _ => update fun rt => { rt with inputPolls := rt.inputPolls + 1 }
  | .videoRefresh data w h pitch => update fun rt => rt.onVideoRefresh data w h pitch
  | .audioSample frames n => onAudioSample env frames n
  | .audioWant => update fun rt => { rt with audioWantCalls := rt.audioWantCalls + 1 }
  | .videoRefreshGl tex w h blo => update fun rt => rt.onVideoRefreshGl tex w h blo

/-- The effects of a list of callbacks, in order. -/
def hostCalls : List HostCall → RuntimeM κ β Unit
  | [] => pure ()
  | c :: cs => do
      hostCall env c
      hostCalls cs

/-! ### What callbacks leave alone -/

/-- The runtime with every field a callback may write cleared. Callbacks write the frame of the
ring, the last driven frame and the counters, and nothing else. -/
def steady (rt : Runtime) : Runtime :=
  { rt with
    ring := { rt.ring with
      hasReady := false, readyIndex := 0, readyGeneration := 0, readySync := 0 }
    drData := none
    drW := 0
    drH := 0
    drPitch := 0
    drDupe := false
    drHave := false
    drGlTex := 0
    drGlW := 0
    drGlH := 0
    drGlBlo := false
    drIsGl := false
    glFrames := 0
    audioFrames := 0
    audioNonsilent := false
    inputPolls := 0
    audioWantCalls := 0 }

theorem steady_ring_acceptSubmit (rt : Runtime) (index generation syncValue : ℕ) :
    steady { rt with ring := (rt.ring.acceptSubmit index generation syncValue).2 } = steady rt := by
  unfold SurfaceRing.acceptSubmit
  split_ifs <;> rfl

/-- Samples move the audio counters and the audio output alone. -/
theorem onAudioSample_run (frames : Option (List Int16)) (n : ℕ) (w : World κ β) :
    ∃ audioFrames audioNonsilent gpu, (onAudioSample env frames n).run w =
        ((), { w with rt := { w.rt with audioFrames, audioNonsilent }, gpu }) ∧
      (gpu = w.gpu ∨ ∃ samples, gpu = env.gpu.audioSubmit w.gpu samples) := by
  cases frames with
  | none =>
    simp only [onAudioSample, StateT.run_modify]
    split_ifs <;> exact ⟨_, _, _, rfl, .inl rfl⟩
  | some samples =>
    simp only [onAudioSample, StateT.run_modify]
    split_ifs
    · exact ⟨_, _, _, rfl, .inl rfl⟩
    · exact ⟨_, _, _, rfl, .inl rfl⟩
    · exact ⟨_, _, _, rfl, .inr ⟨_, rfl⟩⟩
    · exact ⟨_, _, _, rfl, .inl rfl⟩

theorem hostCall_steady (c : HostCall) (w : World κ β) :
    ((hostCall env c).run w).2.core = w.core ∧
      steady ((hostCall env c).run w).2.rt = steady w.rt := by
  cases c with
  | submitFrame index generation syncValue =>
    exact ⟨rfl, steady_ring_acceptSubmit w.rt index generation syncValue⟩
  | inputState _ => exact ⟨rfl, rfl⟩
  | videoRefresh data w' h pitch =>
    refine ⟨rfl, ?_⟩
    change steady (w.rt.onVideoRefresh data w' h pitch) = steady w.rt
    unfold onVideoRefresh
    split_ifs <;> rfl
  | audioSample frames n =>
    obtain ⟨_, _, _, hrun, -⟩ := onAudioSample_run env frames n w
    rw [hostCall, hrun]
    exact ⟨rfl, rfl⟩
  | audioWant => exact ⟨rfl, rfl⟩
  | videoRefreshGl tex w' h blo => exact ⟨rfl, rfl⟩

/-- Callbacks change neither the core side nor the steady part of the runtime. -/
theorem hostCalls_steady (cs : List HostCall) (w : World κ β) :
    ((hostCalls env cs).run w).2.core = w.core ∧
      steady ((hostCalls env cs).run w).2.rt = steady w.rt := by
  induction cs generalizing w with
  | nil => exact ⟨rfl, rfl⟩
  | cons c cs ih =>
    have hhead := hostCall_steady env c w
    have htail := ih ((hostCall env c).run w).2
    exact ⟨htail.1.trans hhead.1, htail.2.trans hhead.2⟩

/-- Run a loader method, log its ABI calls and apply the callbacks made during them. -/
def callLoader {α : Type} (f : CoreLoader → κ → LoaderOutcome κ α) : RuntimeM κ β α := do
  let w ← get
  let out := f w.rt.loader w.core
  set { w with
    rt := { w.rt with loader := out.loader }
    core := out.core
    log := (out.trace.map Event.abi).reverse ++ w.log }
  hostCalls env out.calls
  return out.value

end Runtime

end RetroPark
