import RetroPark.Runtime.Runtime
import RetroPark.Support.Safety

/-!
# The methods that load, start and unload a core, call by call

A statement about the moment at which the runtime calls into a core is about a state in the middle
of a method. `Script` writes the methods that manage the core's life as programs of `Op`s, the calls
and the updates they consist of, and `runIn_call` shows that they are the methods of `Runtime`.
-/

namespace RetroPark

namespace Runtime

/-- The fields that decide what these methods do. -/
structure View where
  backend : Bool
  api : GraphicsApi
  initOk : Bool
  coreLoaded : Bool
  coreType : CoreType
  requiresContent : Bool
  contentLoaded : Bool
  contentPath : String
  module : Bool
  loader : CoreLoader
  deriving DecidableEq

/-- The fields of a runtime. -/
def view (rt : Runtime) : View where
  backend := rt.backend
  api := rt.api
  initOk := rt.initOk
  coreLoaded := rt.coreLoaded
  coreType := rt.coreType
  requiresContent := rt.requiresContent
  contentLoaded := rt.contentLoaded
  contentPath := rt.contentPath
  module := rt.module
  loader := rt.loader

/-- An update of the runtime's fields, with its effect on those of `View`. It leaves the loader and
the module alone. -/
structure Edit where
  write : Runtime → Runtime
  effect : View → View
  view_write : ∀ rt, (write rt).view = effect rt.view
  effect_loader : ∀ v, (effect v).loader = v.loader
  effect_module : ∀ v, (effect v).module = v.module

namespace Edit

/-- An update of other fields. -/
def other (write : Runtime → Runtime) (h : ∀ rt, (write rt).view = rt.view) : Edit :=
  { write, effect := id, view_write := h, effect_loader := fun _ => rfl,
    effect_module := fun _ => rfl }

/-- `content_loaded_ = loaded`. -/
def contentLoaded (loaded : Bool) : Edit where
  write rt := { rt with contentLoaded := loaded }
  effect v := { v with contentLoaded := loaded }
  view_write _ := rfl
  effect_loader _ := rfl
  effect_module _ := rfl

/-- `content_path_ = path`. -/
def contentPath (path : String) : Edit where
  write rt := { rt with contentPath := path }
  effect v := { v with contentPath := path }
  view_write _ := rfl
  effect_loader _ := rfl
  effect_module _ := rfl

/-- The new size of the surfaces. -/
def size (width height : UInt32) : Edit := other (fun rt => { rt with width, height }) fun _ => rfl

/-- A new generation of the surface ring. -/
def reallocate : Edit :=
  other (fun rt =>
    { rt with ring := rt.ring.reallocate rt.width rt.height, haveLastReady := false })
    fun _ => rfl

/-- The poll counter starts over. -/
def clearPolls : Edit := other (fun rt => { rt with inputPolls := 0 }) fun _ => rfl

/-- The geometry limits of a driven core. -/
def geometry (av : AvInfo) : Edit := other (setMaxGeometry · av) fun _ => rfl

/-- Where the loaded core came from. -/
def source (coreDir coreId : String) : Edit :=
  other (fun rt => { rt with coreDir, coreId }) fun _ => rfl

/-- What `reset` sets first. -/
def reboot : Edit :=
  other
    (fun rt => { rt with
      paused := false
      haveLastReady := false
      lastReadyIdx := 0
      lastReadySv := 0
      drHave := false
      drData := none
      drDupe := false
      drIsGl := false
      drGlTex := 0
      rewindRing := []
      rewindReplay := false })
    fun _ => rfl

/-- `paused_ = false`. -/
def resume : Edit := other (fun rt => { rt with paused := false }) fun _ => rfl

/-- What `unload_core` clears. -/
def clear : Edit where
  write := clearCore
  effect v :=
    { v with
      coreLoaded := false
      coreType := .presenting
      requiresContent := false
      contentLoaded := false
      contentPath := "" }
  view_write _ := rfl
  effect_loader _ := rfl
  effect_module _ := rfl

/-- What `finish_load_core` sets first. -/
def enter (type : CoreType) : Edit where
  write rt := { rt with
    coreLoaded := true
    coreType := type
    requiresContent := rt.loader.hasLoadContent
    contentLoaded := false }
  effect v := { v with
    coreLoaded := true
    coreType := type
    requiresContent := v.loader.hasLoadContent
    contentLoaded := false }
  view_write _ := rfl
  effect_loader _ := rfl
  effect_module _ := rfl

end Edit

/-- The calls and updates the methods consist of. -/
inductive Op
  | view
  | edit (e : Edit)
  | readManifest (dir : String)
  | getStatic (id : String)
  | openModule (path : String)
  | holdModule
  | resetModule
  | load (module : Bool)
  | getInfo
  | create
  /-- Hand the surfaces to a presenting core. -/
  | handSurfaces (descs : List SurfaceDesc)
  | start
  | stop
  | destroy
  | getAvInfo
  | loadContent (path : String)
  | initBackend (width height : UInt32)
  | allocateSurfaces
  | openAudio (av : AvInfo)
  | closeAudio
  /-- A method that leaves the core's life alone. -/
  | quiet (a : ApiCall)

/-- What they answer. -/
@[reducible]
def Op.Answer : Op → Type
  | .view => View
  | .readManifest _ => ManifestFile
  | .getStatic _ | .openModule _ => Bool
  | .getInfo => CoreInfo
  | .load _ | .create | .handSurfaces _ | .start | .stop | .loadContent _
  | .initBackend _ _ => RpResult
  | .getAvInfo => RpResult × AvInfo
  | .allocateSurfaces => RpResult × List SurfaceDesc
  | .edit _ | .holdModule | .resetModule | .destroy | .openAudio _ | .closeAudio | .quiet _ => Unit

/-- Whether a call is `CoreLoader::start`. -/
def Op.isStart : Op → Bool
  | .start => true
  | _ => false

/-- There is one call that starts an instance. -/
theorem Op.eq_start {i : Op} (h : i.isStart = true) : i = .start := by
  cases i <;> first | rfl | exact nomatch h

/-- A program of such calls. -/
abbrev Script := Program Op Op.Answer

section Exec

variable {κ β : Type} (env : Env κ β)

/-- The effect of a call. -/
def Op.exec : (i : Op) → RuntimeM κ β i.Answer
  | .view => do return (← get).rt.view
  | .edit e => update e.write
  | .readManifest dir => do return env.modules.readManifest (← get).core dir
  | .getStatic id => do return env.modules.getStatic (← get).core id
  | .openModule path => do
      let w ← get
      let opened := env.modules.openModule w.core path
      set { w with core := opened.2 }
      return opened.1
  | .holdModule => do
      update fun rt => { rt with module := true }
      record .openModule
  | .resetModule => Runtime.resetModule env
  | .load module => callLoader env (·.load env.core module ·)
  | .getInfo => callGetInfo env
  | .create => callLoader env (·.create env.core ·)
  | .handSurfaces descs => do
      let w ← get
      if w.rt.coreType = .presenting ∧ w.rt.loader.state = .created then
        callLoader env (·.setSurfaces env.core
          { surfaces := descs.map fun d => { d with generation := w.rt.ring.generation }
            syncHandle := env.gpu.presentSyncHandle w.gpu
            deviceUuid := env.gpu.presentDeviceUuid w.gpu
            consumeSyncHandle := env.gpu.presentConsumeSyncHandle w.gpu } ·)
      else
        return .ok
  | .start => callLoader env (·.start env.core ·)
  | .stop => callLoader env (·.stop env.core ·)
  | .destroy => callLoader env (·.destroy env.core ·)
  | .getAvInfo => callLoader env (·.getAvInfo env.core ·)
  | .loadContent path => callLoader env (·.loadContent env.core path ·)
  | .initBackend width height => do
      let w ← get
      let r := env.gpu.initBackend w.gpu w.rt.nativeWindow width height
      set { w with gpu := r.2, rt := { w.rt with initOk := r.1 = RpResult.ok } }
      return r.1
  | .allocateSurfaces => Runtime.allocateSurfaces env
  | .openAudio av => Runtime.openAudio env av
  | .closeAudio => modify fun w =>
      if w.rt.audio then { w with gpu := env.gpu.audioClose w.gpu } else w
  | .quiet a => call env a

end Exec

namespace Script

/-- A single call. -/
abbrev op (i : Op) : Script i.Answer := Program.ask Op.Answer i

/-- `Runtime::rebuild_surfaces` once the core is not started. -/
def newSurfaces : Script RpResult := do
  let (r, descs) ← op .allocateSurfaces
  if r ≠ .ok then return r
  op (.edit .reallocate)
  op (.handSurfaces descs)

/-- `Runtime::rebuild_surfaces`. -/
def rebuildSurfaces : Script RpResult := do
  if (← op .view).loader.state = .started then
    let _ ← op .stop
  newSurfaces

/-- `Runtime::resize`. -/
def resize (width height : UInt32) : Script RpResult := do
  if !(← op .view).backend then return .device
  op (.edit (.size width height))
  if !(← op .view).coreLoaded then return (← op (.initBackend width height))
  if !(← op .view).initOk then return .device
  let r ← rebuildSurfaces
  if r ≠ .ok then return r
  let v ← op .view
  if v.coreType = .presenting ∧ v.loader.state = .created then op .start
  else return .ok

/-- `Runtime::unload_core`. -/
def unloadCore : Script RpResult := do
  op (.edit .clearPolls)
  let v ← op .view
  if v.coreLoaded = false ∧ v.loader.state = .unloaded then return .ok
  op .destroy
  op .resetModule
  op .closeAudio
  op (.edit .clear)
  return .ok

/-- Unload the core and report `r`. -/
def unloadWith (r : RpResult) : Script RpResult := do
  let _ ← unloadCore
  return r

/-- `Runtime::finish_load_core`. -/
def finishLoadCore (type : CoreType) : Script RpResult := do
  op (.edit (.enter type))
  if type = .driven then
    if (← op .view).requiresContent then return .ok
    let (r, av) ← op .getAvInfo
    if r ≠ .ok then unloadWith r
    else if ¬(0 < av.baseWidth ∧ 0 < av.baseHeight) then unloadWith .unsupported
    else if av.pixelFormat ≠ 0 then unloadWith .unsupported
    else
      op (.edit (.geometry av))
      op (.openAudio av)
      return .ok
  else
    let r ← rebuildSurfaces
    if r ≠ .ok then unloadWith r
    else if (← op .view).requiresContent then return .ok
    else
      let r ← op .start
      if r ≠ .ok then unloadWith r else return .ok

/-- Give up a load after the table was loaded. -/
def abandonLoad (r : RpResult) : Script RpResult := do
  op .destroy
  op .resetModule
  return r

/-- `Runtime::load_core` once it has looked for the manifest. -/
def loadManifest (coreDir : String) : ManifestFile → Script RpResult
  | .missing => return .notFound
  | .malformed => return .badArg
  | .manifest type graphicsApi entry => do
      if type = .presenting ∧ graphicsApi ≠ (← op .view).api then return .unsupported
      if !(← op (.openModule (coreDir ++ "/" ++ entry))) then return .notFound
      op .resetModule
      op .holdModule
      let r ← op (.load true)
      if r ≠ .ok then
        op .resetModule
        return .abiMismatch
      let r ← op .create
      if r ≠ .ok then
        abandonLoad .internal
      else
        let r ← finishLoadCore type
        if r = .ok then
          op (.edit (.source coreDir ""))
        return r

/-- `Runtime::load_core`. -/
def loadCore (coreDir : String) : Script RpResult := do
  let v ← op .view
  if !v.initOk then return .device
  if v.coreLoaded ∨ v.loader.state ≠ .unloaded then
    let _ ← unloadCore
  loadManifest coreDir (← op (.readManifest coreDir))

/-- `Runtime::load_static_core` once no core is loaded. -/
def loadRegistered (coreId : String) : Script RpResult := do
  if !(← op (.getStatic coreId)) then return .notFound
  op .resetModule
  op .holdModule
  let r ← op (.load true)
  if r ≠ .ok then
    op .resetModule
    return .abiMismatch
  let v ← op .view
  if !(v.loader.abi.isSome && v.loader.table.getInfo) then
    abandonLoad .internal
  else
    let info ← op .getInfo
    if CoreType.ofRaw info.type = .presenting ∧ info.graphicsApi ≠ (← op .view).api then
      abandonLoad .unsupported
    else
      let r ← op .create
      if r ≠ .ok then
        abandonLoad .internal
      else
        let r ← finishLoadCore (CoreType.ofRaw info.type)
        if r = .ok then
          op (.edit (.source "" coreId))
        return r

/-- `Runtime::load_static_core`. -/
def loadStaticCore (coreId : String) : Script RpResult := do
  let v ← op .view
  if !v.initOk then return .device
  if v.coreLoaded ∨ v.loader.state ≠ .unloaded then
    let _ ← unloadCore
  loadRegistered coreId

/-- The audio of a presenting core with content, best effort. -/
def contentAudio : Script RpResult := do
  let (r, av) ← op .getAvInfo
  if r = .ok ∧ 0 < av.sampleRate then op (.openAudio av)
  return .ok

/-- `Runtime::load_content` for a presenting core. -/
def loadPresenting (path : String) : Script RpResult := do
  if !(← op .view).requiresContent then return .internal
  let r ← op (.loadContent path)
  if r ≠ .ok then return r
  op (.edit (.contentLoaded true))
  if (← op .view).loader.state ≠ .started then
    let r ← op .start
    if r ≠ .ok then return r
  contentAudio

/-- `Runtime::load_content` for a driven core. -/
def loadDriven (path : String) : Script RpResult := do
  let r ← op (.loadContent path)
  if r ≠ .ok then return r
  let (r, av) ← op .getAvInfo
  if r ≠ .ok then return .internal
  if av.baseWidth = 0 ∨ av.baseHeight = 0 then return .unsupported
  if av.pixelFormat ≠ 0 then return .unsupported
  op (.edit (.geometry av))
  op (.edit (.contentLoaded true))
  op (.openAudio av)
  return .ok

/-- `Runtime::load_content` of a path, empty for a null pointer. -/
def loadPath (path : String) : Script RpResult := do
  if !(← op .view).coreLoaded then return .internal
  op (.edit (.contentPath path))
  if (← op .view).coreType = .presenting then loadPresenting path
  else if (← op .view).coreType ≠ .driven then return .internal
  else loadDriven path

/-- `Runtime::load_content`. -/
def loadContent (path : Option String) : Script RpResult := loadPath (path.getD "")

/-- `Runtime::reset`. -/
def reset : Script RpResult := do
  if !(← op .view).coreLoaded then
    op (.edit .resume)
    return .ok
  op (.edit .reboot)
  let v ← op .view
  op (.edit (.contentLoaded false))
  op .destroy
  let r ← op (.load v.module)
  if r ≠ .ok then unloadWith .internal
  else
    let r ← op .create
    if r ≠ .ok then unloadWith .internal
    else
      let r ← finishLoadCore v.coreType
      if r ≠ .ok then return r
      else if v.contentLoaded then
        op (.edit (.contentPath v.contentPath))
        loadContent (some v.contentPath)
      else return .ok

end Script

variable {κ β : Type} (env : Env κ β)

/-- The script of `rebuild_surfaces` is the method. -/
theorem runIn_rebuildSurfaces :
    Script.rebuildSurfaces.runIn (Op.exec env) = Runtime.rebuildSurfaces env := by
  unfold Script.rebuildSurfaces Script.newSurfaces Runtime.rebuildSurfaces
  simp only [Program.runIn_bind, Program.runIn_ask, Program.runIn_ite, Program.runIn_pure, Op.exec,
    bind_assoc, pure_bind]
  rfl

/-- The script of `unload_core` is the method. -/
theorem runIn_unloadCore :
    Script.unloadCore.runIn (Op.exec env) = Runtime.unloadCore env := by
  unfold Script.unloadCore Runtime.unloadCore
  simp only [Program.runIn_bind, Program.runIn_ask, Program.runIn_ite, Program.runIn_pure, Op.exec,
    bind_assoc, pure_bind]
  rfl

/-- The script of unloading with a result is the method. -/
theorem runIn_unloadWith (r : RpResult) :
    (Script.unloadWith r).runIn (Op.exec env) = Runtime.unloadWith env r := by
  unfold Script.unloadWith Runtime.unloadWith
  rw [Program.runIn_bind, runIn_unloadCore]
  rfl

/-- The script of `resize` is the method. -/
theorem runIn_resize (width height : UInt32) :
    (Script.resize width height).runIn (Op.exec env) = Runtime.resize env width height := by
  unfold Script.resize Runtime.resize
  simp only [Program.runIn_bind, Program.runIn_ask, Program.runIn_ite, Program.runIn_pure, Op.exec,
    bind_assoc, pure_bind, runIn_rebuildSurfaces]
  rfl

/-- The script of `finish_load_core` is the method. -/
theorem runIn_finishLoadCore (type : CoreType) :
    (Script.finishLoadCore type).runIn (Op.exec env) = Runtime.finishLoadCore env type := by
  unfold Script.finishLoadCore Runtime.finishLoadCore
  simp only [Program.runIn_bind, Program.runIn_ask, Program.runIn_ite, Program.runIn_pure, Op.exec,
    bind_assoc, pure_bind, runIn_rebuildSurfaces, runIn_unloadWith]
  rfl

/-- The script of giving up a load is the method. -/
theorem runIn_abandonLoad (r : RpResult) :
    (Script.abandonLoad r).runIn (Op.exec env) = Runtime.abandonLoad env r := by
  unfold Script.abandonLoad Runtime.abandonLoad
  simp only [Program.runIn_bind, Program.runIn_ask, Program.runIn_pure, Op.exec]

/-- The script of `load_content` is the method. -/
theorem runIn_loadContent (path : Option String) :
    (Script.loadContent path).runIn (Op.exec env) = Runtime.loadContent env path := by
  unfold Script.loadContent Script.loadPath Script.loadPresenting Script.contentAudio
    Script.loadDriven
    Runtime.loadContent
  simp only [Program.runIn_bind, Program.runIn_ask, Program.runIn_ite, Program.runIn_pure, Op.exec,
    bind_assoc, pure_bind]
  rfl

/-- The script of `reset` is the method. -/
theorem runIn_reset : Script.reset.runIn (Op.exec env) = Runtime.reset env := by
  unfold Script.reset Runtime.reset
  simp only [Program.runIn_bind, Program.runIn_ask, Program.runIn_ite, Program.runIn_pure, Op.exec,
    bind_assoc, pure_bind, runIn_unloadWith, runIn_finishLoadCore, runIn_loadContent]
  rfl

/-- The script of `load_static_core` is the method. -/
theorem runIn_loadStaticCore (coreId : String) :
    (Script.loadStaticCore coreId).runIn (Op.exec env) = Runtime.loadStaticCore env coreId := by
  unfold Script.loadStaticCore Script.loadRegistered Runtime.loadStaticCore
  simp only [Program.runIn_bind, Program.runIn_ask, Program.runIn_ite, Program.runIn_pure, Op.exec,
    bind_assoc, pure_bind, runIn_unloadCore, runIn_abandonLoad, runIn_finishLoadCore]
  rfl

/-- The script of `load_core` is the method. -/
theorem runIn_loadCore (coreDir : String) :
    (Script.loadCore coreDir).runIn (Op.exec env) = Runtime.loadCore env coreDir := by
  -- The part that follows the manifest, for each manifest there can be.
  have hmanifest : ∀ m, (Script.loadManifest coreDir m).runIn (Op.exec env) =
      match m with
      | .missing => pure .notFound
      | .malformed => pure .badArg
      | .manifest type graphicsApi entry => do
          let w ← get
          if type = .presenting ∧ graphicsApi ≠ w.rt.api then return .unsupported
          let w ← get
          let opened := env.modules.openModule w.core (coreDir ++ "/" ++ entry)
          set { w with core := opened.2 }
          if !opened.1 then return .notFound
          Runtime.resetModule env
          update fun rt => { rt with module := true }
          record .openModule
          let r ← callLoader env (·.load env.core true ·)
          if r ≠ .ok then
            Runtime.resetModule env
            return .abiMismatch
          let r ← callLoader env (·.create env.core ·)
          if r ≠ .ok then
            Runtime.abandonLoad env .internal
          else
            let r ← Runtime.finishLoadCore env type
            if r = .ok then
              update fun rt => { rt with coreDir := coreDir, coreId := "" }
            return r := by
    intro m
    cases m with
    | missing => rfl
    | malformed => rfl
    | manifest type graphicsApi entry =>
      unfold Script.loadManifest
      simp only [Program.runIn_bind, Program.runIn_ask, Program.runIn_ite,
        Program.runIn_pure, Op.exec,
        bind_assoc, pure_bind, runIn_abandonLoad, runIn_finishLoadCore]
      rfl
  unfold Script.loadCore Runtime.loadCore
  simp only [Program.runIn_bind, Program.runIn_ask, Program.runIn_ite, Program.runIn_pure, Op.exec,
    bind_assoc, pure_bind, hmanifest, runIn_unloadCore]
  rfl

/-- The method a host calls, as a script. -/
def Script.call : ApiCall → Script Unit
  | .loadCore dir => do let _ ← loadCore dir
  | .loadStaticCore id => do let _ ← loadStaticCore id
  | .unloadCore => do let _ ← unloadCore
  | .loadContent path => do let _ ← loadContent path
  | .resize width height => do let _ ← resize width height
  | .reset => do let _ ← reset
  | a => op (.quiet a)

/-- The scripts are the methods. -/
theorem runIn_call (a : ApiCall) : (Script.call a).runIn (Op.exec env) = Runtime.call env a := by
  cases a with
  | loadCore dir => rw [Script.call, Program.runIn_bind, runIn_loadCore]; rfl
  | loadStaticCore id => rw [Script.call, Program.runIn_bind, runIn_loadStaticCore]; rfl
  | unloadCore => rw [Script.call, Program.runIn_bind, runIn_unloadCore]; rfl
  | loadContent path => rw [Script.call, Program.runIn_bind, runIn_loadContent]; rfl
  | resize width height => rw [Script.call, Program.runIn_bind, runIn_resize]; rfl
  | reset => rw [Script.call, Program.runIn_bind, runIn_reset]; rfl
  | _ => exact Program.runIn_ask _ _

end Runtime

end RetroPark
