import RetroPark.Runtime.World
import Mathlib.Data.Rat.Floor

/-!
# The runtime's methods

The public methods of `rp::Runtime`, in the order of `Runtime.cpp`, and `ApiCall`, which names
them so that a run of a host program is a list.
-/

namespace RetroPark

namespace Runtime

variable {κ β : Type} (env : Env κ β)

/-! ### Set-up -/

/-- The constructor: make a backend and initialize it. -/
def new (api : GraphicsApi) (nativeWindow : ℕ) (core : κ) (gpu : β) : World κ β :=
  let rt : Runtime := { nativeWindow, api, backend := env.gpu.makeBackend api }
  if !rt.backend then { rt, core, gpu }
  else
    let r := env.gpu.initBackend gpu nativeWindow rt.width rt.height
    { rt := { rt with initOk := r.1 = RpResult.ok }, core, gpu := r.2 }

/-- `Runtime::set_input`; only the lowest bit of the port counts. -/
def setInput (port : UInt32) (input : InputState) : RuntimeM κ β Unit :=
  update fun rt =>
    if port &&& 1 = 0 then { rt with input0 := input } else { rt with input1 := input }

/-- `Runtime::open_audio`, best effort: on failure the game runs silent. -/
def openAudio (av : AvInfo) : RuntimeM κ β Unit := do
  update fun rt => { rt with audioFrames := 0, audioNonsilent := false }
  if av.sampleRate ≤ 0 then return
  let w ← get
  let r := env.gpu.audioOpen w.gpu (UInt32.ofNat ⌊av.sampleRate⌋₊)
  set { w with gpu := r.2, rt := { w.rt with audio := w.rt.audio || r.1 = RpResult.ok } }

/-- The backend's `allocate_surfaces`, at the runtime's current size. -/
def allocateSurfaces : RuntimeM κ β (RpResult × List SurfaceDesc) := do
  let w ← get
  let r := env.gpu.allocateSurfaces w.gpu w.rt.ring.slotCount w.rt.width w.rt.height
  set { w with gpu := r.2, log := .allocateSurfaces r.1.1 :: w.log }
  return r.1

/-- `Runtime::rebuild_surfaces`: stop a started core, reallocate the surfaces, start a new ring
generation and hand the new surfaces to a presenting core. -/
def rebuildSurfaces : RuntimeM κ β RpResult := do
  if (← get).rt.loader.state = .started then
    let _ ← callLoader env (·.stop env.core ·)
  let (r, descs) ← allocateSurfaces env
  if r ≠ .ok then return r
  update fun rt => { rt with ring := rt.ring.reallocate rt.width rt.height, haveLastReady := false }
  let w ← get
  if w.rt.coreType = .presenting ∧ w.rt.loader.state = .created then
    callLoader env (·.setSurfaces env.core
      { surfaces := descs.map fun d => { d with generation := w.rt.ring.generation }
        syncHandle := env.gpu.presentSyncHandle w.gpu
        deviceUuid := env.gpu.presentDeviceUuid w.gpu
        consumeSyncHandle := env.gpu.presentConsumeSyncHandle w.gpu } ·)
  else
    return .ok

/-- `Runtime::resize`. -/
def resize (width height : UInt32) : RuntimeM κ β RpResult := do
  if !(← get).rt.backend then return .device
  update fun rt => { rt with width, height }
  if !(← get).rt.coreLoaded then
    let w ← get
    let r := env.gpu.initBackend w.gpu w.rt.nativeWindow width height
    set { w with gpu := r.2, rt := { w.rt with initOk := r.1 = RpResult.ok } }
    return r.1
  if !(← get).rt.initOk then return .device
  let r ← rebuildSurfaces env
  if r ≠ .ok then return r
  let w ← get
  if w.rt.coreType = .presenting ∧ w.rt.loader.state = .created then
    callLoader env (·.start env.core ·)
  else
    return .ok

/-! ### Loading and unloading -/

/-- Drop the module (`module_.reset()`), which frees it if there was one. -/
def resetModule : RuntimeM κ β Unit := do
  let w ← get
  if w.rt.module then
    set { w with
      rt := { w.rt with module := false }
      core := env.modules.releaseModule w.core
      log := .releaseModule :: w.log }

/-- The fields `unload_core` clears once the core and its module are gone. -/
def clearCore (rt : Runtime) : Runtime :=
  { rt with
    coreLoaded := false
    coreType := .presenting
    drData := none
    drW := 0
    drH := 0
    drPitch := 0
    drDupe := false
    drHave := false
    drIsGl := false
    drGlTex := 0
    drMaxW := 0
    drMaxH := 0
    requiresContent := false
    contentLoaded := false
    audio := false
    audioFrames := 0
    audioNonsilent := false
    rewindRing := []
    rewindEnabled := false
    rewindReplay := false
    rewindMax := 0
    paused := false
    haveLastReady := false
    lastReadyIdx := 0
    lastReadySv := 0
    contentPath := "" }

/-- `Runtime::unload_core`. -/
def unloadCore : RuntimeM κ β RpResult := do
  update fun rt => { rt with inputPolls := 0 }
  let w ← get
  if w.rt.coreLoaded = false ∧ w.rt.loader.state = .unloaded then return .ok
  callLoader env (·.destroy env.core ·)
  resetModule env
  modify fun w => if w.rt.audio then { w with gpu := env.gpu.audioClose w.gpu } else w
  update clearCore
  return .ok

/-- The geometry limits a driven core's frames are checked against. -/
def setMaxGeometry (rt : Runtime) (av : AvInfo) : Runtime :=
  { rt with drMaxW := max av.maxWidth av.baseWidth, drMaxH := max av.maxHeight av.baseHeight }

/-- Unload the core and report `r`. -/
def unloadWith (r : RpResult) : RuntimeM κ β RpResult := do
  let _ ← unloadCore env
  return r

/-- `Runtime::finish_load_core`: what follows the creation of an instance. A content-free core is
made ready to run, a core that takes content waits for `load_content`. -/
def finishLoadCore (type : CoreType) : RuntimeM κ β RpResult := do
  update fun rt => { rt with
    coreLoaded := true
    coreType := type
    requiresContent := rt.loader.hasLoadContent
    contentLoaded := false }
  if type = .driven then
    if (← get).rt.requiresContent then return .ok
    let (r, av) ← callLoader env (·.getAvInfo env.core ·)
    if r ≠ .ok then unloadWith env r
    else if ¬(0 < av.baseWidth ∧ 0 < av.baseHeight) then unloadWith env .unsupported
    else if av.pixelFormat ≠ 0 then unloadWith env .unsupported
    else
      update (setMaxGeometry · av)
      openAudio env av
      return .ok
  else
    let r ← rebuildSurfaces env
    if r ≠ .ok then unloadWith env r
    else if (← get).rt.requiresContent then return .ok
    else
      let r ← callLoader env (·.start env.core ·)
      if r ≠ .ok then unloadWith env r else return .ok

/-- Give up a load after `CoreLoader::load` succeeded: destroy what the loader holds, drop the
module and report `r`. -/
def abandonLoad (r : RpResult) : RuntimeM κ β RpResult := do
  callLoader env (·.destroy env.core ·)
  resetModule env
  return r

/-- `Runtime::load_core`. -/
def loadCore (coreDir : String) : RuntimeM κ β RpResult := do
  let w ← get
  if !w.rt.initOk then return .device
  if w.rt.coreLoaded ∨ w.rt.loader.state ≠ .unloaded then
    let _ ← unloadCore env
  match env.modules.readManifest (← get).core coreDir with
  | .missing => return .notFound
  | .malformed => return .badArg
  | .manifest type graphicsApi entry =>
      if type = .presenting ∧ graphicsApi ≠ (← get).rt.api then return .unsupported
      let w ← get
      let opened := env.modules.openModule w.core (coreDir ++ "/" ++ entry)
      set { w with core := opened.2 }
      if !opened.1 then return .notFound
      resetModule env
      update fun rt => { rt with module := true }
      record .openModule
      let r ← callLoader env (·.load env.core true ·)
      if r ≠ .ok then
        resetModule env
        return .abiMismatch
      let r ← callLoader env (·.create env.core ·)
      if r ≠ .ok then
        abandonLoad env .internal
      else
        let r ← finishLoadCore env type
        if r = .ok then
          update fun rt => { rt with coreDir := coreDir, coreId := "" }
        return r

/-- `get_info` of a static core, called on the table alone before any instance exists. -/
def callGetInfo : RuntimeM κ β CoreInfo := do
  let w ← get
  let r := env.core.getInfo w.core
  set { w with core := r.core, log := .abi .getInfo :: w.log }
  hostCalls env r.calls
  return r.value

/-- `Runtime::load_static_core`. -/
def loadStaticCore (coreId : String) : RuntimeM κ β RpResult := do
  let w ← get
  if !w.rt.initOk then return .device
  if w.rt.coreLoaded ∨ w.rt.loader.state ≠ .unloaded then
    let _ ← unloadCore env
  if !env.modules.getStatic (← get).core coreId then return .notFound
  resetModule env
  update fun rt => { rt with module := true }
  record .openModule
  let r ← callLoader env (·.load env.core true ·)
  if r ≠ .ok then
    resetModule env
    return .abiMismatch
  if !((← get).rt.loader.abi.isSome && (← get).rt.loader.table.getInfo) then
    abandonLoad env .internal
  else
    let info ← callGetInfo env
    if CoreType.ofRaw info.type = .presenting ∧ info.graphicsApi ≠ (← get).rt.api then
      abandonLoad env .unsupported
    else
      let r ← callLoader env (·.create env.core ·)
      if r ≠ .ok then
        abandonLoad env .internal
      else
        let r ← finishLoadCore env (CoreType.ofRaw info.type)
        if r = .ok then
          update fun rt => { rt with coreId := coreId, coreDir := "" }
        return r

/-- `Runtime::load_content`. A presenting core is started once it has its content. -/
def loadContent (path : Option String) : RuntimeM κ β RpResult := do
  if !(← get).rt.coreLoaded then return .internal
  update fun rt => { rt with contentPath := path.getD "" }
  if (← get).rt.coreType = .presenting then
    if !(← get).rt.requiresContent then return .internal
    let r ← callLoader env (·.loadContent env.core (path.getD "") ·)
    if r ≠ .ok then return r
    update fun rt => { rt with contentLoaded := true }
    if (← get).rt.loader.state ≠ .started then
      let r ← callLoader env (·.start env.core ·)
      if r ≠ .ok then return r
    let (r, av) ← callLoader env (·.getAvInfo env.core ·)
    if r = .ok ∧ 0 < av.sampleRate then openAudio env av
    return .ok
  else if (← get).rt.coreType ≠ .driven then return .internal
  else
    let r ← callLoader env (·.loadContent env.core (path.getD "") ·)
    if r ≠ .ok then return r
    let (r, av) ← callLoader env (·.getAvInfo env.core ·)
    if r ≠ .ok then return .internal
    if av.baseWidth = 0 ∨ av.baseHeight = 0 then return .unsupported
    if av.pixelFormat ≠ 0 then return .unsupported
    update (setMaxGeometry · av)
    update fun rt => { rt with contentLoaded := true }
    openAudio env av
    return .ok

/-! ### Running frames -/

/-- `rewind_ring_push`: append a snapshot and drop the oldest until at most `max` are left. -/
def rewindRingPush (ring : List Blob) (snap : Blob) (max : ℕ) : List Blob :=
  let ring := ring ++ [snap]
  ring.drop (ring.length - max)

/-- The rewind capture at the start of `advance`: none on a replayed frame or while rewind is
off, and none when the core fails to serialize. -/
def captureRewind : RuntimeM κ β Unit := do
  if (← get).rt.rewindReplay then
    update fun rt => { rt with rewindReplay := false }
  else if (← get).rt.rewindEnabled then
    let size ← callLoader env (·.serializeSize env.core ·)
    if 0 < size then
      let (r, snap) ← callLoader env (·.serialize env.core size ·)
      if r = .ok then
        update fun rt => { rt with
          rewindRing := rewindRingPush rt.rewindRing (fillBuffer size snap) rt.rewindMax }

/-- `Runtime::advance`: run the driven core for one frame. -/
def advance (emitAudio : Bool) : RuntimeM κ β RpResult := do
  let w ← get
  if !w.rt.backend then return .device
  if ¬(w.rt.coreLoaded ∧ w.rt.coreType = .driven) then return .unsupported
  if w.rt.requiresContent ∧ !w.rt.contentLoaded then return .internal
  captureRewind env
  update fun rt => { rt with drHave := false, suppressAudio := !emitAudio }
  let w ← get
  let r ← callLoader env (·.runFrame env.core w.rt.input0 w.rt.input1 ·)
  update fun rt => { rt with suppressAudio := false }
  return r

/-- `driven_frame_valid`: the frame is non-empty, within the core's declared geometry, and its
rows fit the pitch, in 32-bit arithmetic. -/
def drivenFrameValid (w h pitch maxW maxH : UInt32) : Bool :=
  if w = 0 || h = 0 then false
  else if w > maxW || h > maxH then false
  else decide (w * 4 ≤ pitch)

/-- The slot, timeline value and flag `render` passes to `composite_and_present`. While paused
this is the last frame acquired before the pause. -/
def renderTarget (rt : Runtime) : ℕ × ℕ × Bool :=
  if rt.paused then (rt.lastReadyIdx, rt.lastReadySv, rt.haveLastReady)
  else
    match rt.ring.latestReady with
    | some (idx, sv) => (idx, sv, true)
    | none => (0, 0, false)

/-- The ring path of `Runtime::render`. -/
def renderRing (wantPixels : Bool) : RuntimeM κ β RpResult := do
  let w ← get
  let (idx, sv, has) := w.rt.renderTarget
  if !w.rt.paused && has then
    update fun rt => { rt with lastReadyIdx := idx, lastReadySv := sv, haveLastReady := true }
  let w ← get
  let r := env.gpu.compositeAndPresent w.gpu idx sv has wantPixels
  set { w with gpu := r.2, log := .composite idx sv has :: w.log }
  return r.1

/-- A present shows the frame kept from the last one while paused, and the latest ready one
otherwise. -/
theorem renderTarget_eq (rt : Runtime) :
    (if rt.paused then
        if rt.haveLastReady then some (rt.lastReadyIdx, rt.lastReadySv) else none
      else rt.ring.latestReady) =
      if rt.renderTarget.2.2 then some (rt.renderTarget.1, rt.renderTarget.2.1) else none := by
  unfold renderTarget
  cases rt.paused with
  | true => rfl
  | false =>
    cases rt.ring.latestReady with
    | none => rfl
    | some t => rfl

/-- What the ring path of `render` does to the runtime and passes to the backend. -/
theorem renderRing_run (wantPixels : Bool) (w : World κ β) {index syncValue : ℕ}
    (h : w.rt.renderTarget = (index, syncValue, true)) :
    ((renderRing env wantPixels).run w).2.rt =
        (if w.rt.paused then w.rt
          else { w.rt with
            lastReadyIdx := index, lastReadySv := syncValue, haveLastReady := true }) ∧
      ((renderRing env wantPixels).run w).2.log =
        .composite index syncValue true :: w.log := by
  cases hpaused : w.rt.paused with
  | true => constructor <;> simp [renderRing, h, hpaused] <;> rfl
  | false => constructor <;> simp [renderRing, update, h, hpaused] <;> rfl

/-- The driven path of `Runtime::render`: a texture is composited as it is, a CPU frame only if
it is valid, and anything else repeats the last frame. -/
def renderDriven (wantPixels : Bool) : RuntimeM κ β RpResult := do
  let w ← get
  let rt := w.rt
  if rt.drIsGl && rt.drHave then
    let r := env.gpu.compositeExternalGl w.gpu rt.drGlTex rt.drGlW rt.drGlH rt.drGlBlo wantPixels
    set { w with gpu := r.2 }
    return r.1
  else
    let valid := rt.drHave && !rt.drDupe &&
      drivenFrameValid rt.drW rt.drH rt.drPitch rt.drMaxW rt.drMaxH
    let r := env.gpu.compositeDriven w.gpu (if valid then rt.drData else none) rt.drW rt.drH
      rt.drPitch (!valid) wantPixels
    set { w with gpu := r.2 }
    return r.1

/-- `Runtime::render`. -/
def render (wantPixels : Bool) : RuntimeM κ β RpResult := do
  let w ← get
  if !w.rt.backend then return .device
  if w.rt.coreLoaded ∧ w.rt.coreType = .driven then renderDriven env wantPixels
  else renderRing env wantPixels

/-- `Runtime::present`: advance a driven core unless paused, then render. -/
def present (wantPixels : Bool) : RuntimeM κ β RpResult := do
  let w ← get
  if w.rt.coreLoaded ∧ w.rt.coreType = .driven ∧ !w.rt.paused then
    let r ← advance env true
    if r ≠ .ok then return r
    render env wantPixels
  else render env wantPixels

/-! ### Savestates and rewind -/

/-- `Runtime::serialize_size`. -/
def serializeSize : RuntimeM κ β ℕ := callLoader env (·.serializeSize env.core ·)

/-- `Runtime::save_state` into a buffer of `size` bytes, where `buf` says whether the buffer
pointer is non-null: the result and the bytes written. -/
def saveState (buf : Bool) (size : ℕ) : RuntimeM κ β (RpResult × Blob) := do
  if !buf then return (.badArg, [])
  let sz ← callLoader env (·.serializeSize env.core ·)
  if sz = 0 then return (.unsupported, [])
  if size < sz then return (.badArg, [])
  callLoader env (·.serialize env.core sz ·)

/-- `Runtime::load_state`; an empty buffer is refused. -/
def loadState (data : Blob) : RuntimeM κ β RpResult := do
  if data.length = 0 then return .badArg
  callLoader env (·.unserialize env.core data ·)

/-- `Runtime::set_rewind`. -/
def setRewind (enabled : Bool) (maxSnapshots : ℕ) : RuntimeM κ β RpResult := do
  let size ← callLoader env (·.serializeSize env.core ·)
  if size = 0 then return .unsupported
  update fun rt => { rt with
    rewindEnabled := enabled
    rewindMax := if maxSnapshots = 0 then 600 else maxSnapshots
    rewindRing := []
    rewindReplay := false }
  return .ok

/-- `Runtime::rewind`: drop the newest snapshot and restore the one before it. -/
def rewind : RuntimeM κ β RpResult := do
  let w ← get
  if !w.rt.rewindEnabled then return .internal
  if w.rt.rewindRing.length < 2 then return .notFound
  update fun rt => { rt with rewindRing := rt.rewindRing.dropLast }
  let snap := (← get).rt.rewindRing.getLastD []
  let r ← callLoader env (·.unserialize env.core snap ·)
  update fun rt => { rt with rewindReplay := true }
  return r

/-! ### Runtime control -/

/-- `Runtime::pause`. -/
def pause : RuntimeM κ β RpResult := do
  update fun rt => if rt.coreLoaded then { rt with paused := true } else rt
  return .ok

/-- `Runtime::resume`. -/
def resume : RuntimeM κ β RpResult := do
  update fun rt => { rt with paused := false }
  return .ok

/-- `Runtime::reset`: destroy the instance, create a new one from the same module, and reload the
content if there was any. -/
def reset : RuntimeM κ β RpResult := do
  if !(← get).rt.coreLoaded then
    update fun rt => { rt with paused := false }
    return .ok
  update fun rt => { rt with
    paused := false
    haveLastReady := false
    lastReadyIdx := 0
    lastReadySv := 0
    drHave := false
    drData := none
    drDupe := false
    drIsGl := false
    drGlTex := 0
    rewindRing := []
    rewindReplay := false }
  let w ← get
  let hadContent := w.rt.contentLoaded
  let path := w.rt.contentPath
  let type := w.rt.coreType
  update fun rt => { rt with contentLoaded := false }
  callLoader env (·.destroy env.core ·)
  let r ← callLoader env (·.load env.core w.rt.module ·)
  if r ≠ .ok then unloadWith env .internal
  else
    let r ← callLoader env (·.create env.core ·)
    if r ≠ .ok then unloadWith env .internal
    else
      let r ← finishLoadCore env type
      if r ≠ .ok then return r
      else if hadContent then
        update fun rt => { rt with contentPath := path }
        loadContent env (some path)
      else return .ok

/-! ### The public methods as data -/

/-- A call of a public method, and the callbacks a core's own thread makes between two calls. -/
inductive ApiCall
  | loadCore (coreDir : String)
  | loadStaticCore (coreId : String)
  | unloadCore
  | loadContent (path : Option String)
  | resize (width height : UInt32)
  | setInput (port : UInt32) (input : InputState)
  | present (wantPixels : Bool)
  | advance (emitAudio : Bool)
  | render (wantPixels : Bool)
  | serializeSize
  | saveState (buf : Bool) (size : ℕ)
  | loadState (data : Blob)
  | setRewind (enabled : Bool) (maxSnapshots : ℕ)
  | rewind
  | pause
  | resume
  | reset
  | coreThread (calls : List HostCall)

/-- The effect of a call, with its result discarded. -/
def call : ApiCall → RuntimeM κ β Unit
  | .loadCore dir => do let _ ← loadCore env dir
  | .loadStaticCore id => do let _ ← loadStaticCore env id
  | .unloadCore => do let _ ← unloadCore env
  | .loadContent path => do let _ ← loadContent env path
  | .resize w h => do let _ ← resize env w h
  | .setInput port input => setInput port input
  | .present out => do let _ ← present env out
  | .advance emit => do let _ ← advance env emit
  | .render out => do let _ ← render env out
  | .serializeSize => do let _ ← serializeSize env
  | .saveState buf size => do let _ ← saveState env buf size
  | .loadState data => do let _ ← loadState env data
  | .setRewind on n => do let _ ← setRewind env on n
  | .rewind => do let _ ← rewind env
  | .pause => do let _ ← pause
  | .resume => do let _ ← resume
  | .reset => do let _ ← reset env
  | .coreThread calls => hostCalls env calls

end Runtime

end RetroPark
