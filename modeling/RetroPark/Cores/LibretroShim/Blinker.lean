import RetroPark.Cores.LibretroShim.LibretroShim
import RetroPark.Cores.RefCoreRollback
import RetroPark.Render.Gl.GLBackend

/-!
# A small libretro core

`Blinker.library` is a libretro core with a counter for a state, which grows by two in a frame in
which the first player holds the button `A` and by one otherwise. Its frames have two rows of two
pixels, in which the counter is the first one, and some padding. Behind the shim it is
`Blinker.core`; `Blinker.loaded` is a headless runtime on the OpenGL backend that has loaded it and
its game.

With `gl` it draws into the framebuffer of the shim.
-/

namespace RetroPark.LibretroShim.Blinker

/-- The counter as the four bytes of a savestate. -/
def bytes (acc : UInt32) : Blob := RefCoreRollback.bytes acc

/-- Two rows of two pixels of two bytes, six bytes apart. -/
def pixels (acc : UInt32) : Blob := (bytes acc).take 2 ++ List.replicate 10 0

/-- `RETRO_DEVICE_ID_JOYPAD_A` -/
def buttonA : UInt32 := 8

/-- The counter after a frame. -/
def count (acc : UInt32) (pressed : Int16) : UInt32 := acc + if pressed ≠ 0 then 2 else 1

def call (c : Callback) : Program Callback Callback.Answer c.Answer :=
  Program.ask Callback.Answer c

/-- `retro_run` -/
def run (gl : Bool) : Entry UInt32 Unit := fun acc => do
  call .inputPoll
  let pressed ← call (.inputState 0 retroDeviceJoypad 0 buttonA)
  if gl then
    call (.draw (List.replicate 16 (count acc pressed).toUInt8))
    call (.videoRefresh .hwFrameBuffer 2 2 0)
  else
    call (.videoRefresh (.pixels (pixels (count acc pressed))) 2 2 6)
  call (.audioSample 0 0)
  return (count acc pressed, ())

/-- The libretro core. -/
def library (gl : Bool) : Library UInt32 where
  exports _ := true
  apiVersion := retroApiVersion
  needFullpath := false
  setEnvironment acc := return (acc, ())
  init _ := return (0, ())
  deinit acc := return (acc, ())
  getSystemAvInfo acc := return (acc,
    { sampleRate := 48000, baseWidth := 2, baseHeight := 2, maxWidth := 2, maxHeight := 2 })
  loadGame _ acc := do
    let _ ← call (.environment (.setPixelFormat pixelFormatRgb565))
    if gl then
      let _ ← call (.environment (.setHwRender (some
        { contextType := retroHwContextOpenGl, contextReset := true, contextDestroy := true })))
    return (acc, true)
  unloadGame acc := return (acc, ())
  run := run gl
  serializeSize acc := return (acc, 4)
  serialize _ acc := return (acc, true, bytes acc)
  unserialize data _ := return (RefCoreRollback.ofBytes data, true)
  contextReset acc := return (acc, ())
  contextDestroy acc := return (acc, ())

/-- A platform that has the core, its game and OpenGL. -/
def platform (gl : Bool) : Platform UInt32 where
  library := library gl
  fresh := some 0
  files path := if path = "game" then some [1, 2, 3] else none
  sysDir := []
  gl := false
  initContext _ _ _ _ := true
  complete _ _ _ := true
  makeCurrent _ := true
  fboId := 1
  colorTexture := 1

/-- The shim's directory, manifest and module. -/
def modules : ModuleEnv (ShimModule UInt32) where
  readManifest _ _ := .manifest .driven 2 "libretro_shim.dll"
  openModule m _ := (true, m)
  getStatic _ _ := false
  releaseModule m := m

/-- No audio output. -/
def audio : Gl.AudioEnv Unit where
  audioOpen _ _ := (.device, ())
  audioSubmit _ _ := ()
  audioClose _ := ()

/-- The core on the OpenGL backend. -/
def env (gl : Bool) : Env (ShimModule UInt32) (Gl.GLBackend × Unit) :=
  Gl.onGl (core (platform gl)) modules audio

/-- A headless runtime after `load_core` and `load_content`. -/
def loaded (gl : Bool) : World (ShimModule UInt32) (Gl.GLBackend × Unit) :=
  ((do
    let _ ← Runtime.loadCore (env gl) "libretro"
    let _ ← Runtime.loadContent (env gl) (some "game")).run
      (Runtime.new (env gl) Gl.apiOpenGl 0 {} ({}, ()))).2

end RetroPark.LibretroShim.Blinker
