import Mathlib.Data.Rat.Init
import Mathlib.Data.Nat.Init

/-!
# The RetroPark ABI

The data types of `retropark_abi.h`: result codes, core types and graphics APIs, the controller
state, the surface set handed to a presenting core, the table of entry points a core exports,
and the callbacks a core makes into its host.

Pointers whose target the host never reads are natural numbers with `0` as the null pointer.
-/

namespace RetroPark

/-- `RETROPARK_ABI_VERSION`. -/
def abiVersion : UInt32 := 9

/-- `rp_result`. -/
inductive RpResult
  | ok
  | abiMismatch
  | badArg
  | device
  | internal
  | timeout
  | notFound
  | unsupported
  deriving DecidableEq, Repr, Inhabited

/-- `rp_core_type`. A static core reports its type as a plain integer, which the host casts to
the enumeration without a check, so values that name no enumerator reach the runtime. -/
inductive CoreType
  | presenting
  | driven
  | other (raw : UInt32)
  deriving DecidableEq, Repr, Inhabited

/-- The cast from the integer a core reports to `rp_core_type`. -/
def CoreType.ofRaw (raw : UInt32) : CoreType :=
  if raw = 0 then .presenting else if raw = 1 then .driven else .other raw

/-- `rp_graphics_api` as the integer it is stored in. -/
abbrev GraphicsApi := UInt32

/-- A serialized state, a content image or any other byte buffer. -/
abbrev Blob := List UInt8

/-- A buffer of `size` zero bytes after `bytes` were written at its front. -/
def fillBuffer (size : ℕ) (bytes : Blob) : Blob :=
  (bytes ++ List.replicate (size - bytes.length) 0).take size

@[simp]
theorem fillBuffer_length (bytes : Blob) : fillBuffer bytes.length bytes = bytes := by
  simp [fillBuffer]

/-- `rp_input_state`: key flags, stick and trigger axes, and the button mask of one port. The
layout has no padding, so comparing two states byte by byte is comparing their fields. -/
structure InputState where
  /-- Virtual-key down flags. -/
  keys : Vector UInt8 256
  /-- Stick and trigger axes. -/
  padAxes : Vector Int16 8
  /-- One bit for each pad button. -/
  padButtons : UInt16

/-- Two states are compared from the first key flag to the buttons. -/
instance : DecidableEq InputState := fun a b =>
  decidable_of_iff (a.keys.toList = b.keys.toList ∧ a.padAxes.toList = b.padAxes.toList ∧
    a.padButtons = b.padButtons) (by
      cases a; cases b
      simp [Vector.toList_inj])

/-- The zeroed input `rp_input_state{}`, which stands for a port nobody drives. -/
def InputState.neutral : InputState :=
  { keys := Vector.replicate 256 0, padAxes := Vector.replicate 8 0, padButtons := 0 }

instance : Inhabited InputState := ⟨.neutral⟩

/-- A core instance `rp_core*`, with `0` for the null pointer. -/
abbrev CorePtr := ℕ

/-- The fields of `rp_core_info` the host reads. -/
structure CoreInfo where
  /-- The core's type, as a plain integer. -/
  type : UInt32
  /-- The graphics API a presenting core renders with. -/
  graphicsApi : GraphicsApi
  deriving DecidableEq, Inhabited

/-- The fields of `rp_av_info` the host reads. -/
structure AvInfo where
  sampleRate : ℚ
  baseWidth : UInt32
  baseHeight : UInt32
  maxWidth : UInt32
  maxHeight : UInt32
  pixelFormat : UInt32
  deriving DecidableEq, Inhabited

/-- One slot of the surface ring as it is described to a core. -/
structure SurfaceDesc where
  index : ℕ
  width : UInt32
  height : UInt32
  /-- The ring generation the core echoes back with each frame it submits. -/
  generation : ℕ
  deriving DecidableEq, Inhabited

/-- `rp_surface_set`: the ring's slots and the two timeline handles, `0` for none. -/
structure SurfaceSet where
  surfaces : List SurfaceDesc
  syncHandle : ℕ
  deviceUuid : Blob
  consumeSyncHandle : ℕ
  deriving DecidableEq, Inhabited

/-- The table of entry points a core exports, `rp_core_abi`: its version and, for each entry,
whether the function pointer is non-null. -/
structure CoreAbi where
  abiVersion : UInt32
  getInfo : Bool
  create : Bool
  destroy : Bool
  setSurfaces : Bool
  start : Bool
  stop : Bool
  getAvInfo : Bool
  runFrame : Bool
  serializeSize : Bool
  serialize : Bool
  unserialize : Bool
  loadContent : Bool
  deriving DecidableEq

/-- A table with the right version and no entry points. -/
instance : Inhabited CoreAbi :=
  ⟨⟨RetroPark.abiVersion, false, false, false, false, false, false, false, false, false, false,
    false, false⟩⟩

/-- A callback a core makes through its `rp_host_iface`. A core may call back during any of its
own entry points and, if it has a thread, at any time in between. -/
inductive HostCall
  /-- `submit_frame`: slot `index` holds a frame, complete once the timeline reaches
  `syncValue`. -/
  | submitFrame (index generation syncValue : ℕ)
  /-- `input_state`: the core polls a port. -/
  | inputState (port : UInt32)
  /-- `video_refresh`: a CPU frame, or a repeat of the last one when `data` is null. -/
  | videoRefresh (data : Option Blob) (width height pitch : UInt32)
  /-- `audio_sample`: interleaved stereo samples, `none` for a null pointer. -/
  | audioSample (frames : Option (List Int16)) (numFrames : ℕ)
  /-- `audio_want`: a presenting core asks how many frames to pull. -/
  | audioWant
  /-- `video_refresh_gl`: a frame as a texture of the shared GL context. -/
  | videoRefreshGl (texture width height : UInt32) (bottomLeftOrigin : Bool)
  deriving DecidableEq

end RetroPark
