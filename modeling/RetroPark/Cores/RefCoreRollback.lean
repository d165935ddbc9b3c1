import RetroPark.Runtime.Driven

/-!
# The reference rollback core

`refcore_rollback`, the driven core the rollback tests run: its whole state is a 32-bit
accumulator that grows by two on a frame in which port 0 holds the key `X` and by one otherwise.
`driven` shows that it is a deterministic core with faithful savestates, so that every
result about `DrivenCore` applies to it; `loaded` is a headless runtime that has loaded it.
-/

namespace RetroPark

/-- The state of the module: the accumulator of its one instance. -/
structure RefCoreRollback where
  acc : UInt32
  deriving DecidableEq

namespace RefCoreRollback

/-- The key `X`. -/
def keyX : Fin 256 := ⟨88, by decide⟩

/-- A pad with the key `X` down. -/
def pressX : InputState :=
  { InputState.neutral with keys := InputState.neutral.keys.set keyX 1 }

/-- The accumulator after a frame. -/
def stepAcc (acc : UInt32) (port0 : InputState) : UInt32 :=
  acc + if port0.keys.get keyX ≠ 0 then 2 else 1

/-- The frame buffer: every pixel's red channel is the accumulator's low byte. -/
def frameBuffer (acc : UInt32) : Blob := (List.replicate (64 * 64) [acc.toUInt8, 0, 0, 255]).flatten

/-- The accumulator as the four bytes a little-endian machine stores. -/
def bytes (acc : UInt32) : Blob :=
  [.ofNat acc.toNat, .ofNat (acc.toNat / 2 ^ 8), .ofNat (acc.toNat / 2 ^ 16),
    .ofNat (acc.toNat / 2 ^ 24)]

/-- The accumulator read back from its first four bytes. -/
def ofBytes : Blob → UInt32
  | a :: b :: c :: d :: _ =>
      .ofNat (a.toNat + 2 ^ 8 * b.toNat + 2 ^ 16 * c.toNat + 2 ^ 24 * d.toNat)
  | _ => 0

theorem ofBytes_bytes (acc : UInt32) : ofBytes (bytes acc) = acc := by
  have hlt := acc.toNat_lt
  apply UInt32.toNat_inj.mp
  simp only [ofBytes, bytes, UInt8.toNat_ofNat', UInt32.toNat_ofNat']
  omega

/-- The table: the entries of a driven core without content. -/
def abi : CoreAbi :=
  { abiVersion := RetroPark.abiVersion, getInfo := true, create := true, destroy := true
    setSurfaces := false, start := false, stop := false, getAvInfo := true, runFrame := true
    serializeSize := true, serialize := true, unserialize := true, loadContent := false }

/-- The core behind its table. The entries the table lacks are never called. -/
def core : CoreEnv RefCoreRollback where
  resolve k := { value := true, core := k }
  getCoreAbi k := { value := some abi, core := k }
  getInfo k := { value := { type := 1, graphicsApi := 2 }, core := k }
  create _ := { value := 1, core := { acc := 0 } }
  destroy k _ := { value := (), core := k }
  setSurfaces k _ _ := { value := .unsupported, core := k }
  start k _ := { value := .unsupported, core := k }
  stop k _ := { value := .unsupported, core := k }
  getAvInfo k _ :=
    { value := { sampleRate := 0, baseWidth := 64, baseHeight := 64, maxWidth := 64, maxHeight := 64
                 pixelFormat := 0 }
      core := k }
  runFrame k _ port0 _ :=
    { value := ()
      calls := [.inputState 0, .videoRefresh (some (frameBuffer (stepAcc k.acc port0))) 64 64 256]
      core := { acc := stepAcc k.acc port0 } }
  serializeSize k _ := { value := 4, core := k }
  serialize k _ size :=
    if size < 4 then { value := (.badArg, []), core := k }
    else { value := (.ok, bytes k.acc), core := k }
  unserialize k _ data :=
    if data.length < 4 then { value := .badArg, core := k }
    else { value := .ok, core := { acc := ofBytes data } }
  loadContent k _ _ := { value := .unsupported, core := k }

/-- Its whole state is the accumulator. -/
def driven (c : CorePtr) : DrivenCore core c UInt32 where
  view k := k.acc
  step acc ports := stepAcc acc ports.1
  enc := bytes
  enc_pos _ := Nat.succ_pos _
  runFrame_view _ _ _ := rfl
  serializeSize_value _ := rfl
  serializeSize_view _ := rfl
  serialize_ok _ := rfl
  serialize_blob _ := rfl
  serialize_view k n := by
    simp only [core]
    split_ifs <;> rfl
  unserialize_ok _ _ := rfl
  unserialize_view _ acc := ofBytes_bytes acc

/-- A headless device that accepts everything, under a runtime without audio. -/
def headlessGpu : GpuEnv Unit where
  makeBackend _ := true
  initBackend _ _ _ _ := (.ok, ())
  allocateSurfaces _ n w h :=
    ((.ok, (List.range n).map fun i => { index := i, width := w, height := h, generation := 0 }),
      ())
  compositeAndPresent _ _ _ _ _ := (.ok, ())
  compositeDriven _ _ _ _ _ _ _ := (.ok, ())
  compositeExternalGl _ _ _ _ _ _ := (.ok, ())
  presentSyncHandle _ := 0
  presentConsumeSyncHandle _ := 0
  presentDeviceUuid _ := []
  audioOpen _ _ := (.device, ())
  audioSubmit _ _ := ()
  audioClose _ := ()

/-- The core's directory, manifest and module, and no static cores. -/
def modules : ModuleEnv RefCoreRollback where
  readManifest _ _ := .manifest .driven 2 "refcore_rollback.dll"
  openModule k _ := (true, k)
  getStatic _ _ := false
  releaseModule k := k

/-- The core on a headless device. -/
def env : Env RefCoreRollback Unit := { core, modules, gpu := headlessGpu }

/-- A headless runtime after `load_core`. -/
def loaded : World RefCoreRollback Unit :=
  ((Runtime.loadCore env "refcore_rollback").run (Runtime.new env 0 0 { acc := 7 } ())).2

theorem loaded_live : Runtime.Live env (driven 1) loaded 0 := by
  refine ⟨⟨?_, ?_, ?_, ?_, ?_, ?_, ?_, ?_, ?_, ?_⟩, ?_⟩ <;> decide

end RefCoreRollback

end RetroPark
