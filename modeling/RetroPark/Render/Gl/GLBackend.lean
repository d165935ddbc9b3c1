import RetroPark.Runtime.World

/-!
# The OpenGL backend

`GLBackend` composites the frames of driven cores: `composite_driven` uploads a CPU frame into its
frame texture and draws that texture, and `composite_external_gl` draws a texture of the core's.
Each of its methods first makes the context current, which can fail.

What is drawn is a `Picture`: the rows of a CPU frame, or the name of the core's texture with the
region and the orientation it is drawn with. `upload_frame` says when an uploaded frame is drawn as
the core delivered it.
-/

namespace RetroPark.Gl

/-- `RP_GFX_OPENGL`. -/
def apiOpenGl : GraphicsApi := 3

/-- What a composite draws over the cleared target. -/
inductive Picture
  | black
  /-- A CPU frame, one blob for each row. -/
  | frame (rows : List Blob)
  /-- The lower left `width` × `height` region of the core's texture. -/
  | texture (tex width height : UInt32) (bottomLeftOrigin : Bool)
  deriving DecidableEq, Repr

/-- The rows of a frame of `width` RGBA8 pixels, each starting `stride` bytes after the one
before. -/
def rows (data : Blob) (width height stride : ℕ) : List Blob :=
  (List.range height).map fun y => (data.drop (y * stride)).take (width * 4)

/-- The picture of a CPU frame with `pitch` bytes a row. -/
def Picture.ofFrame (data : Blob) (width height pitch : UInt32) : Picture :=
  .frame (rows data width.toNat height.toNat pitch.toNat)

/-- `rp::GLBackend`. -/
structure GLBackend where
  width : UInt32 := 0
  height : UInt32 := 0
  headless : Bool := true
  ready : Bool := false
  /-- The rows of the frame texture, whose size is `texW` × `texH`. -/
  frameTex : List Blob := []
  texW : UInt32 := 0
  texH : UInt32 := 0
  /-- What the last composite has drawn. -/
  target : Picture := .black
  /-- Whether each of the driver's calls that can fail succeeds; those beyond the end of the list
  do. -/
  driver : List Bool := []
  deriving DecidableEq

namespace GLBackend

/-- A call of the driver. -/
def driverCall : StateM GLBackend Bool := do
  let b ← get
  match b.driver with
  | [] => return true
  | ok :: rest =>
      set { b with driver := rest }
      return ok

/-- `GLBackend::ensure_target`: a headless target is made anew, a window has one. -/
def ensureTarget : StateM GLBackend Bool := do
  if !(← get).headless then return true
  driverCall

/-- `GLBackend::initialize`, whose new context has no texture yet. -/
def initBackend (nativeWindow : ℕ) (width height : UInt32) : StateM GLBackend RpResult := do
  modify fun b => { b with
    width, height, headless := nativeWindow = 0, ready := false, frameTex := [] }
  -- The context, `make_current` and the compositor's programs.
  if !(← driverCall) then return .device
  if !(← driverCall) then return .device
  if !(← driverCall) then return .device
  modify fun b => { b with texW := 0, texH := 0 }
  if !(← ensureTarget) then return .device
  modify fun b => { b with ready := true }
  return .ok

/-- `GLBackend::allocate_surfaces`: slots without surfaces, for driven cores use none. -/
def allocateSurfaces (count : ℕ) (width height : UInt32) :
    StateM GLBackend (RpResult × List SurfaceDesc) := do
  modify fun b => { b with width, height }
  if ← driverCall then
    let _ ← ensureTarget
  return (.ok, (List.range count).map fun index => { index, width, height, generation := 0 })

/-- The upload of a CPU frame. The rows of the buffer are taken to be `pitch / 4` pixels apart, or
as many as the frame is wide if that is zero. -/
def upload (data : Blob) (width height pitch : UInt32) (b : GLBackend) : GLBackend :=
  let rowLength := if pitch / 4 = 0 then width.toNat else (pitch / 4).toNat
  let frameTex := rows data width.toNat height.toNat (rowLength * 4)
  if width ≠ b.texW ∨ height ≠ b.texH then { b with frameTex, texW := width, texH := height }
  else { b with frameTex }

/-- What drawing the frame texture shows. -/
def retained (b : GLBackend) : Picture := if b.texW ≠ 0 then .frame b.frameTex else .black

/-- `GLBackend::composite_driven`. -/
def compositeDriven (data : Option Blob) (width height pitch : UInt32) (dupe : Bool) :
    StateM GLBackend RpResult := do
  if !(← get).ready then return .device
  if !(← driverCall) then return .device
  if !dupe then
    match data with
    | some bytes => modify (upload bytes width height pitch)
    | none => pure ()
  modify fun b => { b with target := b.retained }
  return .ok

/-- `GLBackend::composite_external_gl`. -/
def compositeExternalGl (tex width height : UInt32) (bottomLeftOrigin : Bool) :
    StateM GLBackend RpResult := do
  if !(← get).ready then return .device
  if !(← driverCall) then return .device
  modify fun b => { b with target := .texture tex width height bottomLeftOrigin }
  return .ok

end GLBackend

/-- The behaviour of an audio output over a state `α`. -/
structure AudioEnv (α : Type*) where
  audioOpen : α → UInt32 → RpResult × α
  audioSubmit : α → List Int16 → α
  audioClose : α → α

/-- A device side with the OpenGL backend. -/
def gpu {α : Type} (audio : AudioEnv α) : GpuEnv (GLBackend × α) where
  makeBackend api := api = apiOpenGl
  initBackend b nativeWindow width height :=
    let r := (GLBackend.initBackend nativeWindow width height).run b.1
    (r.1, r.2, b.2)
  allocateSurfaces b count width height :=
    let r := (GLBackend.allocateSurfaces count width height).run b.1
    (r.1, r.2, b.2)
  compositeAndPresent b _ _ _ _ := (.unsupported, b)
  compositeDriven b data width height pitch dupe _ :=
    let r := (GLBackend.compositeDriven data width height pitch dupe).run b.1
    (r.1, r.2, b.2)
  compositeExternalGl b tex width height bottomLeftOrigin _ :=
    let r := (GLBackend.compositeExternalGl tex width height bottomLeftOrigin).run b.1
    (r.1, r.2, b.2)
  presentSyncHandle _ := 0
  presentConsumeSyncHandle _ := 0
  presentDeviceUuid _ := List.replicate 16 0
  audioOpen b rate :=
    let r := audio.audioOpen b.2 rate
    (r.1, b.1, r.2)
  audioSubmit b samples := (b.1, audio.audioSubmit b.2 samples)
  audioClose b := (b.1, audio.audioClose b.2)

/-- The environment of a runtime on the OpenGL backend. -/
def onGl {κ α : Type} (core : CoreEnv κ) (modules : ModuleEnv κ) (audio : AudioEnv α) :
    Env κ (GLBackend × α) :=
  { core, modules, gpu := gpu audio }

namespace GLBackend

variable {data : Blob} {width height pitch tex : UInt32} {blo : Bool} {b b' : GLBackend}

/-- A frame is drawn as the core delivered it if its rows are a whole number of pixels apart. -/
theorem upload_frame (hwidth : width ≠ 0) (hpitch : pitch % 4 = 0) (hpos : pitch ≠ 0) :
    (upload data width height pitch b).retained = .ofFrame data width height pitch := by
  have hmod : pitch.toNat % 4 = 0 := by simpa using congrArg UInt32.toNat hpitch
  have hdiv : (pitch / 4).toNat = pitch.toNat / 4 := by simp
  have hne : pitch.toNat ≠ 0 := fun h => hpos (UInt32.toNat_inj.mp h)
  have hrow : pitch / 4 ≠ 0 := by
    intro h
    have hzero := congrArg UInt32.toNat h
    rw [hdiv] at hzero
    simp only [UInt32.toNat_zero] at hzero
    omega
  have hstride : pitch.toNat / 4 * 4 = pitch.toNat := by omega
  by_cases hsize : width ≠ b.texW ∨ height ≠ b.texH
  · simp [upload, retained, hrow, hstride, if_pos hsize, hwidth, Picture.ofFrame]
  · -- The texture has the size of the frame already.
    obtain ⟨hw, hh⟩ := not_or.mp hsize
    have htex : b.texW ≠ 0 := Decidable.not_not.mp hw ▸ hwidth
    simp [upload, retained, hrow, hstride, if_neg hsize, htex, Picture.ofFrame]

end GLBackend

end RetroPark.Gl
