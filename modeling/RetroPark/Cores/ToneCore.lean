import RetroPark.Cores.RefCoreRollback
import RetroPark.Runtime.Sound

/-!
# A core that can be heard

`ToneCore.core` is the reference rollback core with a sound: each frame delivers one stereo sample
of the accumulator after it. `voice` shows that it sounds in its frames alone; `loaded` is a
headless runtime that has loaded it, over an audio output that keeps what it is given (`listener`).
-/

namespace RetroPark.ToneCore

/-- The sample of a frame. -/
def tone (acc : UInt32) : List Int16 := [.ofNat acc.toNat, .ofNat acc.toNat]

/-- The core behind its table. -/
def core : CoreEnv RefCoreRollback :=
  { RefCoreRollback.core with
    getAvInfo := fun k _ =>
      { value := { sampleRate := 48000, baseWidth := 64, baseHeight := 64, maxWidth := 64
                   maxHeight := 64, pixelFormat := 0 }
        core := k }
    runFrame := fun k c port0 port1 =>
      let r := RefCoreRollback.core.runFrame k c port0 port1
      { r with calls := r.calls ++ [.audioSample (some (tone r.core.acc)) 1] } }

/-- Its whole state is the accumulator. -/
def driven (c : CorePtr) : DrivenCore core c UInt32 :=
  { RefCoreRollback.driven c with
    runFrame_view := fun _ _ _ => rfl
    serializeSize_value := fun _ => rfl
    serializeSize_view := fun _ => rfl }

/-- A frame sounds like the accumulator after it. -/
def voice (c : CorePtr) : Voice (driven c) where
  sound acc ports := [tone (RefCoreRollback.stepAcc acc ports.1)]
  runFrame _ _ _ := rfl
  serializeSize _ := rfl
  serialize k n := by
    show sounds (if n < 4 then _ else _ : Reply _ _).calls = []
    split_ifs <;> rfl
  unserialize k data := by
    show sounds (if data.length < 4 then _ else _ : Reply _ _).calls = []
    split_ifs <;> rfl

/-- A headless device with an audio output that keeps what it is given. -/
def recordingGpu : GpuEnv (List (List Int16)) where
  makeBackend _ := true
  initBackend g _ _ _ := (.ok, g)
  allocateSurfaces g n w h :=
    ((.ok, (List.range n).map fun i => { index := i, width := w, height := h, generation := 0 }), g)
  compositeAndPresent g _ _ _ _ := (.ok, g)
  compositeDriven g _ _ _ _ _ _ := (.ok, g)
  compositeExternalGl g _ _ _ _ _ := (.ok, g)
  presentSyncHandle _ := 0
  presentConsumeSyncHandle _ := 0
  presentDeviceUuid _ := []
  audioOpen g _ := (.ok, g)
  audioSubmit g samples := g ++ [samples]
  audioClose g := g

/-- Everything submitted is heard. -/
def listener : Listener recordingGpu where
  heard g := g
  audioSubmit _ _ := rfl
  compositeAndPresent _ _ _ _ _ := rfl
  compositeDriven _ _ _ _ _ _ _ := rfl
  compositeExternalGl _ _ _ _ _ _ := rfl

/-- The core on that device. -/
def env : Env RefCoreRollback (List (List Int16)) :=
  { core, modules := RefCoreRollback.modules, gpu := recordingGpu }

/-- A headless runtime after `load_core`. -/
def loaded : World RefCoreRollback (List (List Int16)) :=
  ((Runtime.loadCore env "tones").run (Runtime.new env 0 0 { acc := 7 } [])).2

theorem loaded_live : Runtime.Live env (driven 1) loaded 0 := by
  refine ⟨⟨?_, ?_, ?_, ?_, ?_, ?_, ?_, ?_, ?_, ?_⟩, ?_⟩ <;> decide

end RetroPark.ToneCore
