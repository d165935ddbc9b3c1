import RetroPark.Cores.LibretroShim.HwRenderGL
import RetroPark.Cores.LibretroShim.Options
import RetroPark.Cores.LibretroShim.PixelConvert
import RetroPark.Cores.LibretroShim.ShimInput
import RetroPark.Loader.CoreLoader
import RetroPark.Support.Safety

/-!
# The libretro shim

`libretro_shim` is a driven core that loads an unmodified libretro core and plays it. A libretro
core is a `Library`: each of its entry points is a program that makes `Callback`s, which the shim
answers (`answer`). The functions named after the `sh_` functions of the source call the entry
points; `core` is the table they make up.

The shim keeps a log of the calls it makes into the libretro core and of the frames it is given.
-/

namespace RetroPark.LibretroShim

/-! ### The libretro core -/

/-- `RETRO_API_VERSION` -/
def retroApiVersion : UInt32 := 1

/-- The functions of a libretro core that the shim looks up. -/
inductive Symbol
  | apiVersion
  | init
  | deinit
  | getSystemInfo
  | getSystemAvInfo
  | setEnvironment
  | setVideoRefresh
  | setAudioSample
  | setAudioSampleBatch
  | setInputPoll
  | setInputState
  | loadGame
  | unloadGame
  | run
  | serializeSize
  | serialize
  | unserialize
  deriving DecidableEq, Repr

/-- `retro_hw_render_callback`, as far as the core fills it in. -/
structure HwRenderCallback where
  contextType : UInt32 := 0
  /-- Whether the core has a `context_reset` and a `context_destroy`. -/
  contextReset : Bool := false
  contextDestroy : Bool := false
  depth : Bool := false
  stencil : Bool := false
  bottomLeftOrigin : Bool := false
  versionMajor : UInt32 := 0
  versionMinor : UInt32 := 0
  deriving DecidableEq

/-- `RETRO_HW_CONTEXT_OPENGL` -/
def retroHwContextOpenGl : UInt32 := 1

/-- `RETRO_HW_CONTEXT_OPENGL_CORE` -/
def retroHwContextOpenGlCore : UInt32 := 3

/-- The commands of the environment callback. -/
inductive EnvCommand
  | setPixelFormat (fmt : UInt32)
  | getCanDupe
  | getOverscan
  /-- The system, save and core assets directories. -/
  | getDirectory
  | getVariable (key : Option Blob)
  | getVariableUpdate
  | getCoreOptionsVersion
  | getLanguage
  | getLogInterface
  | getInputBitmasks
  | getAudioVideoEnable
  | getFastforwarding
  | setOptions (n : Negotiation)
  /-- `SET_INPUT_DESCRIPTORS` to `SET_SYSTEM_AV_INFO`, which the shim accepts and ignores. -/
  | describe
  | setHwRender (cb : Option HwRenderCallback)
  | other (cmd : UInt32)

/-- What a command writes into its argument. -/
inductive EnvData
  | unchanged
  | flag (b : Bool)
  | number (n : UInt32)
  | text (str : Option Blob)
  deriving DecidableEq

/-- The result of a command. -/
structure EnvAnswer where
  accepted : Bool
  data : EnvData := .unchanged
  deriving DecidableEq

/-- The first argument of `video_refresh`. -/
inductive VideoData
  /-- A null pointer: the frame before is shown again. -/
  | dupe
  /-- `RETRO_HW_FRAME_BUFFER_VALID`: the frame is in the framebuffer. -/
  | hwFrameBuffer
  | pixels (data : Blob)
  deriving DecidableEq

/-- The calls of a libretro core. -/
inductive Callback
  | environment (c : EnvCommand)
  | videoRefresh (data : VideoData) (width height : UInt32) (pitch : ℕ)
  | audioSample (left right : Int16)
  | audioSampleBatch (data : Option (List Int16)) (frames : ℕ)
  | inputPoll
  | inputState (port device index id : UInt32)
  /-- `get_current_framebuffer` -/
  | currentFramebuffer
  /-- The core draws into the framebuffer, and leaves these texels. -/
  | draw (texels : Blob)

@[reducible]
def Callback.Answer : Callback → Type
  | .environment _ => EnvAnswer
  | .audioSampleBatch _ _ => ℕ
  | .inputState _ _ _ _ => Int16
  | .currentFramebuffer => UInt32
  | .videoRefresh _ _ _ _ | .audioSample _ _ | .inputPoll | .draw _ => Unit

/-- A function of a libretro core with state `Λ`. -/
abbrev Entry (Λ α : Type) := Λ → Program Callback Callback.Answer (Λ × α)

/-- `retro_game_info` -/
structure GameInfo where
  path : String
  data : Option Blob
  deriving DecidableEq

/-- `retro_system_av_info` -/
structure SystemAvInfo where
  sampleRate : ℚ
  baseWidth : UInt32
  baseHeight : UInt32
  maxWidth : UInt32
  maxHeight : UInt32
  deriving DecidableEq

/-- A libretro core. -/
structure Library (Λ : Type) where
  exports : Symbol → Bool
  apiVersion : UInt32
  needFullpath : Bool
  setEnvironment : Entry Λ Unit
  init : Entry Λ Unit
  deinit : Entry Λ Unit
  getSystemAvInfo : Entry Λ SystemAvInfo
  loadGame : GameInfo → Entry Λ Bool
  unloadGame : Entry Λ Unit
  run : Entry Λ Unit
  serializeSize : Entry Λ ℕ
  /-- Whether the state was written into a buffer of the given size, and what was written. -/
  serialize : ℕ → Entry Λ (Bool × Blob)
  unserialize : Blob → Entry Λ Bool
  contextReset : Entry Λ Unit
  contextDestroy : Entry Λ Unit

/-! ### The state of the shim -/

/-- A frame that was given to `video_refresh`, with the pixel format at that time. -/
structure VideoFrame where
  format : UInt32
  data : VideoData
  width : UInt32
  height : UInt32
  pitch : ℕ
  deriving DecidableEq

/-- What the log of the shim records: the calls into the libretro core as they return, and what they
depend on. -/
inductive RetroEvent
  /-- The host calls the shim. Its own OpenGL context may be current. -/
  | called
  | loadLibrary
  | freeLibrary
  /-- The function is not there, and is called all the same. -/
  | missing (s : Symbol)
  | apiVersion
  | setEnvironment
  /-- One of the other functions that take a callback. -/
  | setCallback (s : Symbol)
  | init
  | deinit
  | getSystemInfo
  | getSystemAvInfo
  | loadGame (loaded : Bool)
  | unloadGame
  | run
  | serializeSize
  | serialize
  | unserialize
  /-- `HwRenderGL::setup`, which leaves its context current. -/
  | setup (done : Bool)
  /-- `HwRenderGL::make_current`, whose result the shim drops. -/
  | makeCurrent (done : Bool)
  /-- The core, if it wants to know, is told that there is a context, and that it goes away. -/
  | contextReset
  | contextDestroy
  | video (f : VideoFrame)
  deriving DecidableEq

/-- What the shim finds around it. -/
structure Platform (Λ : Type) where
  library : Library Λ
  /-- The freshly loaded library, unless it cannot be loaded. -/
  fresh : Option Λ
  /-- The content files. -/
  files : String → Option Blob
  /-- `sys_dir` -/
  sysDir : Blob
  /-- Whether the host has an OpenGL context to share. -/
  gl : Bool
  /-- `GLContext::initialize`, with the host's context or without it. -/
  initContext : HwRenderCallback → UInt32 → UInt32 → (shared : Bool) → Bool
  /-- Whether it can be made current then, and the framebuffer in it is complete. -/
  complete : HwRenderCallback → UInt32 → UInt32 → Bool
  /-- `HwRenderGL::make_current` later on, after what is in the log. -/
  makeCurrent : List RetroEvent → Bool
  /-- The names of the framebuffer and of its texture. -/
  fboId : UInt32
  colorTexture : UInt32

/-- `hw`: the framebuffer, and whether its texture is handed to the host. -/
structure HwRender where
  frame : HwRenderGL
  zeroCopy : Bool

/-- An instance of the shim, whose options are the `Shim` it extends. -/
structure Instance (Λ : Type) extends Shim where
  library : Λ
  pixelFormat : UInt32 := pixelFormat0Rgb1555
  rom : Blob := []
  gameLoaded : Bool := false
  hwCb : HwRenderCallback := {}
  hwRequested : Bool := false
  hw : Option HwRender := none
  input0 : InputState := .neutral
  input1 : InputState := .neutral

/-- The module: the one instance it supports, which its callbacks know as `g`, and the log. -/
structure ShimModule (Λ : Type) where
  current : Option (Instance Λ) := none
  log : List RetroEvent := []

/-- The shim while the host calls one of its functions, with the calls it has made back into the
host. -/
structure Frontend (Λ : Type) where
  inst : Instance Λ
  log : List RetroEvent
  calls : List HostCall := []

abbrev FrontendM (Λ : Type) := StateM (Frontend Λ)

section

variable {Λ α : Type}

def edit (f : Instance Λ → Instance Λ) : FrontendM Λ Unit :=
  modify fun s => { s with inst := f s.inst }

def note (e : RetroEvent) : FrontendM Λ Unit := modify fun s => { s with log := e :: s.log }

def host (c : HostCall) : FrontendM Λ Unit := modify fun s => { s with calls := s.calls ++ [c] }

/-! ### The callbacks -/

/-- `SET_HW_RENDER`, which accepts desktop OpenGL. -/
def Instance.setHwRender (i : Instance Λ) (cb : Option HwRenderCallback) : EnvAnswer × Instance Λ :=
  match cb with
  | none => ({ accepted := false }, i)
  | some cb =>
      if cb.contextType ≠ retroHwContextOpenGl ∧ cb.contextType ≠ retroHwContextOpenGlCore then
        ({ accepted := false }, i)
      else ({ accepted := true }, { i with hwCb := cb, hwRequested := true })

/-- `env_cb` -/
def Instance.envCb (sysDir : Blob) (i : Instance Λ) : EnvCommand → EnvAnswer × Instance Λ
  | .setPixelFormat fmt => ({ accepted := true }, { i with pixelFormat := fmt })
  | .getCanDupe => ({ accepted := true, data := .flag true }, i)
  | .getOverscan => ({ accepted := true, data := .flag false }, i)
  | .getDirectory => ({ accepted := true, data := .text (some sysDir) }, i)
  | .getVariable key =>
      let r := i.toShim.getVariable key
      -- A null key leaves the value null, too.
      ({ accepted := r.1.2, data := .text r.1.1 }, { i with toShim := r.2 })
  | .getVariableUpdate =>
      let r := i.toShim.getVariableUpdate
      ({ accepted := true, data := .flag r.1 }, { i with toShim := r.2 })
  | .getCoreOptionsVersion => ({ accepted := true, data := .number 2 }, i)
  | .getLanguage => ({ accepted := true, data := .number 0 }, i)
  | .getLogInterface => ({ accepted := true }, i)
  | .getInputBitmasks => ({ accepted := false }, i)
  | .getAudioVideoEnable => ({ accepted := true, data := .number 3 }, i)
  | .getFastforwarding => ({ accepted := true, data := .flag false }, i)
  | .setOptions n => ({ accepted := true }, { i with toShim := i.toShim.negotiate n })
  | .describe => ({ accepted := true }, i)
  | .setHwRender cb => i.setHwRender cb
  | .other _ => ({ accepted := false }, i)

/-- The buffer of a frame of RGBA8 pixels. -/
def frameBuffer (w h : UInt32) : Blob := List.replicate (h.toNat * w.toNat * 4) 0

/-- What `video_cb` calls. -/
def videoCall (P : Platform Λ) (i : Instance Λ) (f : VideoFrame) : HostCall :=
  match f.data with
  | .hwFrameBuffer =>
      match i.hw with
      | none => .videoRefresh none f.width f.height 0
      | some hw =>
          if hw.zeroCopy then
            .videoRefreshGl P.colorTexture f.width f.height i.hwCb.bottomLeftOrigin
          else
            let r := hw.frame.readFrame f.width f.height
            .videoRefresh (some r.data) r.width r.height r.pitch
  | .dupe => .videoRefresh none f.width f.height 0
  | .pixels data =>
      if f.width = 0 ∨ f.height = 0 then .videoRefresh none f.width f.height 0
      else
        .videoRefresh
          (some (convertToRgba8 data f.width f.height (UInt32.ofNat f.pitch) f.format
            (frameBuffer f.width f.height)))
          f.width f.height (f.width * 4)

/-- `video_cb` -/
def videoCb (P : Platform Λ) (data : VideoData) (width height : UInt32) (pitch : ℕ) :
    FrontendM Λ Unit := do
  let i := (← get).inst
  let f : VideoFrame := { format := i.pixelFormat, data, width, height, pitch }
  note (.video f)
  host (videoCall P i f)

/-- `input_poll_cb`. The host answers while it runs a frame. -/
def inputPollCb (ports : Option (InputState × InputState)) : FrontendM Λ Unit := do
  host (.inputState 0)
  host (.inputState 1)
  match ports with
  | none => pure ()
  | some ports => edit fun i => { i with input0 := ports.1, input1 := ports.2 }

/-- `input_state_cb` -/
def Instance.inputStateCb (i : Instance Λ) (port device index id : UInt32) : Int16 :=
  if port ≠ 0 ∧ port ≠ 1 then 0
  else shimMapInput (if port = 0 then i.input0 else i.input1) device index id

/-- Texels of the right size replace those of the framebuffer. -/
def HwRender.draw (hw : HwRender) (texels : Blob) : HwRender :=
  if h : texels.length = hw.frame.maxH.toNat * (hw.frame.maxW.toNat * 4) then
    { hw with frame := { hw.frame with color := texels, color_length := h } }
  else hw

/-- How the shim answers the libretro core. -/
def answer (P : Platform Λ) (ports : Option (InputState × InputState)) :
    (c : Callback) → FrontendM Λ c.Answer
  | .environment c => modifyGet fun s =>
      ((s.inst.envCb P.sysDir c).1, { s with inst := (s.inst.envCb P.sysDir c).2 })
  | .videoRefresh data width height pitch => videoCb P data width height pitch
  | .audioSample left right => host (.audioSample (some [left, right]) 1)
  | .audioSampleBatch data frames => do
      if data.isSome ∧ frames ≠ 0 then host (.audioSample data frames)
      return frames
  | .inputPoll => inputPollCb ports
  | .inputState port device index id => do
      return (← get).inst.inputStateCb port device index id
  | .currentFramebuffer => do
      return if (← get).inst.hw.isSome then P.fboId else 0
  | .draw texels => edit fun i => { i with hw := i.hw.map (·.draw texels) }

/-- Run a function of the libretro core. -/
def runEntry (P : Platform Λ) (ports : Option (InputState × InputState)) (entry : Entry Λ α) :
    FrontendM Λ α := do
  let r ← Program.runIn (answer P ports) (entry (← get).inst.library)
  edit fun i => { i with library := r.1 }
  return r.2

/-- Run a function of the libretro core that is there, and note its return. -/
def runNoted (P : Platform Λ) (entry : Entry Λ Unit) (e : RetroEvent) : FrontendM Λ Unit := do
  runEntry P none entry
  note e

/-- `HwRenderGL::make_current` -/
def makeCurrent (P : Platform Λ) : FrontendM Λ Unit := do
  note (.makeCurrent (P.makeCurrent (← get).log))

/-- Pass a callback to a function the shim does not check for. -/
def setCallback (P : Platform Λ) (s : Symbol) : FrontendM Λ Unit :=
  note (if P.library.exports s then .setCallback s else .missing s)

/-! ### The functions of the table -/

/-- The functions that `sh_create` insists on. -/
def Library.isComplete (lib : Library Λ) : Bool :=
  lib.exports .apiVersion && lib.apiVersion = retroApiVersion && lib.exports .run &&
    lib.exports .loadGame && lib.exports .setEnvironment && lib.exports .setVideoRefresh &&
    lib.exports .init && lib.exports .getSystemInfo && lib.exports .getSystemAvInfo

/-- `sh_create` once the library is loaded: whether there is an instance. -/
def shCreate (P : Platform Λ) : FrontendM Λ Bool := do
  note .loadLibrary
  if P.library.exports .apiVersion then note .apiVersion
  if !P.library.isComplete then
    note .freeLibrary
    return false
  runNoted P P.library.setEnvironment .setEnvironment
  setCallback P .setVideoRefresh
  setCallback P .setInputPoll
  setCallback P .setInputState
  setCallback P .setAudioSample
  setCallback P .setAudioSampleBatch
  runNoted P P.library.init .init
  return true

/-- `sh_get_av_info` -/
def shGetAvInfo (P : Platform Λ) : FrontendM Λ AvInfo := do
  let av ← runEntry P none P.library.getSystemAvInfo
  note .getSystemAvInfo
  return {
    sampleRate := av.sampleRate
    baseWidth := av.baseWidth
    baseHeight := av.baseHeight
    maxWidth := av.maxWidth
    maxHeight := av.maxHeight
    pixelFormat := 0 }

/-- `HwRenderGL::setup`: with the host's context if that works, and without it otherwise. OpenGL has
no texture whose sides are not below `2 ^ 31`. -/
def Platform.setupHw (P : Platform Λ) (cb : HwRenderCallback) (maxW maxH : UInt32) :
    Option HwRender :=
  let shared := P.gl && P.initContext cb maxW maxH true
  if (shared || P.initContext cb maxW maxH false) && P.complete cb maxW maxH then
    if h : maxW.toNat < 2 ^ 31 ∧ maxH.toNat < 2 ^ 31 then
      some { frame := .setup cb.bottomLeftOrigin maxW maxH h.1 h.2, zeroCopy := shared }
    else none
  else none

/-- `sh_load_content` once the game is loaded and wants to draw with OpenGL. -/
def setupHw (P : Platform Λ) : FrontendM Λ RpResult := do
  let av ← shGetAvInfo P
  let maxW := if av.maxWidth > av.baseWidth then av.maxWidth else av.baseWidth
  let maxH := if av.maxHeight > av.baseHeight then av.maxHeight else av.baseHeight
  match P.setupHw (← get).inst.hwCb maxW maxH with
  | none =>
      note (.setup false)
      if P.library.exports .unloadGame then runNoted P P.library.unloadGame .unloadGame
      edit fun i => { i with hw := none, gameLoaded := false }
      return .device
  | some hw =>
      note (.setup true)
      edit fun i => { i with hw := some hw }
      makeCurrent P
      if (← get).inst.hwCb.contextReset then runEntry P none P.library.contextReset
      note .contextReset
      return .ok

/-- `sh_load_content` -/
def shLoadContent (P : Platform Λ) (path : String) : FrontendM Λ RpResult := do
  if path = "" then return .badArg
  match P.files path with
  | none => return .notFound
  | some rom =>
      edit fun i => { i with rom }
      note .getSystemInfo
      let game : GameInfo := { path, data := if P.library.needFullpath then none else some rom }
      let loaded ← runEntry P none (P.library.loadGame game)
      note (.loadGame loaded)
      if !loaded then return .unsupported
      edit fun i => { i with gameLoaded := true }
      if (← get).inst.hwRequested then setupHw P else return .ok

/-- `sh_run_frame` -/
def shRunFrame (P : Platform Λ) (port0 port1 : InputState) : FrontendM Λ Unit := do
  let i := (← get).inst
  if i.gameLoaded then
    if i.hw.isSome then makeCurrent P
    runEntry P (some (port0, port1)) P.library.run
    note .run

/-- `sh_serialize_size` -/
def shSerializeSize (P : Platform Λ) : FrontendM Λ ℕ := do
  if P.library.exports .serializeSize then
    let size ← runEntry P none P.library.serializeSize
    note .serializeSize
    return size
  else return 0

/-- `sh_serialize` -/
def shSerialize (P : Platform Λ) (size : ℕ) : FrontendM Λ (RpResult × Blob) := do
  if P.library.exports .serialize then
    let r ← runEntry P none (P.library.serialize size)
    note .serialize
    return (if r.1 then .ok else .unsupported, r.2)
  else return (.unsupported, [])

/-- `sh_unserialize` -/
def shUnserialize (P : Platform Λ) (data : Blob) : FrontendM Λ RpResult := do
  if P.library.exports .unserialize then
    let done ← runEntry P none (P.library.unserialize data)
    note .unserialize
    return if done then .ok else .unsupported
  else return .unsupported

/-- `sh_destroy` -/
def shDestroy (P : Platform Λ) : FrontendM Λ Unit := do
  let i := (← get).inst
  if i.hw.isSome then
    makeCurrent P
    if i.hwCb.contextDestroy then runEntry P none P.library.contextDestroy
    note .contextDestroy
  if i.gameLoaded && P.library.exports .unloadGame then
    runNoted P P.library.unloadGame .unloadGame
  if P.library.exports .deinit then runNoted P P.library.deinit .deinit
  note .freeLibrary

/-! ### The core -/

/-- `kAbi`, as far as the loader uses it. -/
def abi : CoreAbi :=
  { abiVersion := RetroPark.abiVersion, getInfo := true, create := true, destroy := true
    setSurfaces := false, start := false, stop := false, getAvInfo := true, runFrame := true
    serializeSize := true, serialize := true, unserialize := true, loadContent := true }

/-- A function of the table that is called on the instance. -/
def ShimModule.onInstance [Inhabited α] (m : ShimModule Λ) (f : FrontendM Λ α) :
    Reply (ShimModule Λ) α :=
  match m.current with
  | none => { value := default, core := m }
  | some inst =>
      let r := f.run { inst, log := .called :: m.log }
      { value := r.1, calls := r.2.calls, core := { current := some r.2.inst, log := r.2.log } }

/-- `sh_create`. The library is loaded anew. -/
def ShimModule.create (P : Platform Λ) (m : ShimModule Λ) : Reply (ShimModule Λ) CorePtr :=
  match P.fresh with
  | none => { value := 0, core := { current := none, log := .called :: m.log } }
  | some library =>
      let r := (shCreate P).run { inst := { library }, log := .called :: m.log }
      if r.1 then
        { value := 1, calls := r.2.calls, core := { current := some r.2.inst, log := r.2.log } }
      else { value := 0, calls := r.2.calls, core := { current := none, log := r.2.log } }

/-- `sh_destroy`, after which there is no instance. -/
def ShimModule.destroy (P : Platform Λ) (m : ShimModule Λ) : Reply (ShimModule Λ) Unit :=
  let r := m.onInstance (shDestroy P)
  { r with core := { r.core with current := none } }

/-- The shim behind its table. The functions the table lacks are never called. -/
def core (P : Platform Λ) : CoreEnv (ShimModule Λ) where
  resolve m := { value := true, core := m }
  getCoreAbi m := { value := some abi, core := m }
  getInfo m := { value := { type := 1, graphicsApi := 2 }, core := m }
  create m := m.create P
  destroy m _ := m.destroy P
  setSurfaces m _ _ := { value := .unsupported, core := m }
  start m _ := { value := .unsupported, core := m }
  stop m _ := { value := .unsupported, core := m }
  getAvInfo m _ := m.onInstance (shGetAvInfo P)
  runFrame m _ port0 port1 := m.onInstance (shRunFrame P port0 port1)
  serializeSize m _ := m.onInstance (shSerializeSize P)
  serialize m _ size := m.onInstance (shSerialize P size)
  unserialize m _ data := m.onInstance (shUnserialize P data)
  loadContent m _ path := m.onInstance (shLoadContent P path)

end

end RetroPark.LibretroShim
