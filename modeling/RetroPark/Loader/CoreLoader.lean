import RetroPark.Abi

/-!
# The core loader

`CoreLoader` walks one core through its life: `Unloaded`, `Loaded` (the ABI table is known),
`Created` (an instance exists) and `Started`. Every method checks the state first and then makes
at most a few calls through the ABI table.

The core itself, and the module it lives in, are code from elsewhere. `CoreEnv κ` lists what the
loader and the runtime may ask of them over an arbitrary state `κ`, so that a statement about
every `CoreEnv` is a statement about every behaviour of every core. Each answer comes with the
callbacks the core made into its host during the call.

A method returns its result together with the error text it sets, the new loader and core
states, the callbacks, and the ABI calls it made, oldest first.
-/

namespace RetroPark

/-- A core's answer to one call: the result, the callbacks made into the host during the call,
and the state the core is left in. -/
structure Reply (κ α : Type*) where
  value : α
  calls : List HostCall := []
  core : κ

/-- The behaviour of a core module and of the core instances it creates, over a state `κ` that
they carry from call to call. -/
structure CoreEnv (κ : Type*) where
  /-- Whether the module exports `rp_get_core_abi`. -/
  resolve : κ → Reply κ Bool
  /-- Calling the exported function; `none` is a null table. -/
  getCoreAbi : κ → Reply κ (Option CoreAbi)
  getInfo : κ → Reply κ CoreInfo
  /-- A new instance, `0` if the core could not create one. -/
  create : κ → Reply κ CorePtr
  destroy : κ → CorePtr → Reply κ Unit
  setSurfaces : κ → CorePtr → SurfaceSet → Reply κ RpResult
  start : κ → CorePtr → Reply κ RpResult
  stop : κ → CorePtr → Reply κ RpResult
  getAvInfo : κ → CorePtr → Reply κ AvInfo
  /-- Run one frame; the two inputs are what `input_state` answers for port 0 and port 1 while
  the frame runs. -/
  runFrame : κ → CorePtr → InputState → InputState → Reply κ Unit
  serializeSize : κ → CorePtr → Reply κ ℕ
  /-- Serialize into a buffer of the given size. -/
  serialize : κ → CorePtr → ℕ → Reply κ (RpResult × Blob)
  unserialize : κ → CorePtr → Blob → Reply κ RpResult
  loadContent : κ → CorePtr → String → Reply κ RpResult

/-- A call made through the ABI, as an observer at the boundary sees it: the entry point, the
instance it is called on, and the result where a later step depends on it. -/
inductive AbiCall
  | resolve
  | getCoreAbi
  | getInfo
  | create (core : CorePtr)
  | destroy (core : CorePtr)
  | setSurfaces (core : CorePtr) (r : RpResult)
  | start (core : CorePtr) (r : RpResult)
  | stop (core : CorePtr) (r : RpResult)
  | getAvInfo (core : CorePtr)
  | runFrame (core : CorePtr) (port0 port1 : InputState)
  | serializeSize (core : CorePtr)
  | serialize (core : CorePtr) (r : RpResult)
  | unserialize (core : CorePtr) (r : RpResult)
  | loadContent (core : CorePtr) (r : RpResult)
  deriving DecidableEq

/-- `rp::LoaderState`. -/
inductive LoaderState
  | unloaded
  | loaded
  | created
  | started
  deriving DecidableEq, Repr, Inhabited

/-- `rp::CoreLoader`: its state, whether it holds a module, the ABI table and the instance. -/
structure CoreLoader where
  state : LoaderState := .unloaded
  module : Bool := false
  abi : Option CoreAbi := none
  core : CorePtr := 0
  deriving DecidableEq

/-- What a loader method returns and leaves behind. -/
structure LoaderOutcome (κ α : Type*) where
  value : α
  /-- The text assigned to the `error` out-parameter, if any. -/
  error : Option String := none
  loader : CoreLoader
  core : κ
  calls : List HostCall := []
  trace : List AbiCall := []

namespace CoreLoader

variable {κ : Type*} (env : CoreEnv κ)

/-- The table behind `abi_`. Reading an entry point of a null table does not happen in a state
that has an instance; the model then reads a table without entry points. -/
def table (l : CoreLoader) : CoreAbi := l.abi.getD default

/-- `state_` is `Created` or `Started`: an instance exists. -/
def hasInstance (l : CoreLoader) : Bool := l.state = .created || l.state = .started

theorem hasInstance_iff {l : CoreLoader} :
    l.hasInstance = true ↔ l.state = .created ∨ l.state = .started := by
  simp [hasInstance]

/-- An early return with an error text and no ABI call. -/
def fail (l : CoreLoader) (k : κ) (r : RpResult) (error : String) : LoaderOutcome κ RpResult :=
  { value := r, error := some error, loader := l, core := k }

/-- `CoreLoader::load`. -/
def load (l : CoreLoader) (module : Bool) (k : κ) : LoaderOutcome κ RpResult :=
  if l.state ≠ .unloaded then l.fail k .internal "already loaded"
  else if !module then l.fail k .badArg "null module"
  else
    let fn := env.resolve k
    if !fn.value then
      { value := .notFound, error := some "core does not export rp_get_core_abi", loader := l,
        core := fn.core, calls := fn.calls, trace := [.resolve] }
    else
      let table := env.getCoreAbi fn.core
      match table.value with
      | none =>
          { value := .internal, error := some "core returned null abi", loader := l,
            core := table.core, calls := fn.calls ++ table.calls,
            trace := [.resolve, .getCoreAbi] }
      | some abi =>
          if abi.abiVersion ≠ RetroPark.abiVersion then
            { value := .abiMismatch, error := some "abi version mismatch", loader := l,
              core := table.core, calls := fn.calls ++ table.calls,
              trace := [.resolve, .getCoreAbi] }
          else
            { value := .ok, loader := { l with module := true, abi := some abi, state := .loaded },
              core := table.core, calls := fn.calls ++ table.calls,
              trace := [.resolve, .getCoreAbi] }

/-- `CoreLoader::create`. -/
def create (l : CoreLoader) (k : κ) : LoaderOutcome κ RpResult :=
  if l.state ≠ .loaded then l.fail k .internal "create requires Loaded"
  else if !l.table.create then l.fail k .internal "core missing create"
  else
    let r := env.create k
    if r.value = 0 then
      { value := .internal, error := some "core create returned null",
        loader := { l with core := r.value }, core := r.core, calls := r.calls,
        trace := [.create r.value] }
    else
      { value := .ok, loader := { l with core := r.value, state := .created }, core := r.core,
        calls := r.calls, trace := [.create r.value] }

/-- `CoreLoader::set_surfaces`. -/
def setSurfaces (l : CoreLoader) (set : SurfaceSet) (k : κ) : LoaderOutcome κ RpResult :=
  if l.state ≠ .created then l.fail k .internal "set_surfaces requires Created"
  else if !l.table.setSurfaces then l.fail k .unsupported "core missing set_surfaces"
  else
    let r := env.setSurfaces k l.core set
    { value := r.value, loader := l, core := r.core, calls := r.calls,
      trace := [.setSurfaces l.core r.value] }

/-- `CoreLoader::start`. A core without `start` is refused without an error text. -/
def start (l : CoreLoader) (k : κ) : LoaderOutcome κ RpResult :=
  if l.state ≠ .created then l.fail k .internal "start requires Created"
  else if !l.table.start then { value := .unsupported, loader := l, core := k }
  else
    let r := env.start k l.core
    { value := r.value
      loader := if r.value = .ok then { l with state := .started } else l
      core := r.core, calls := r.calls, trace := [.start l.core r.value] }

/-- `CoreLoader::stop`. The state goes back to `Created` whatever the core answers, and a core
without `stop` counts as stopped. -/
def stop (l : CoreLoader) (k : κ) : LoaderOutcome κ RpResult :=
  if l.state ≠ .started then l.fail k .internal "stop requires Started"
  else if !l.table.stop then { value := .ok, loader := { l with state := .created }, core := k }
  else
    let r := env.stop k l.core
    { value := r.value, loader := { l with state := .created }, core := r.core, calls := r.calls,
      trace := [.stop l.core r.value] }

/-- `CoreLoader::run_frame`. -/
def runFrame (l : CoreLoader) (port0 port1 : InputState) (k : κ) : LoaderOutcome κ RpResult :=
  if !l.hasInstance then l.fail k .internal "run_frame needs Created"
  else if !l.table.runFrame then l.fail k .unsupported "core has no run_frame"
  else
    let r := env.runFrame k l.core port0 port1
    { value := .ok, loader := l, core := r.core, calls := r.calls,
      trace := [.runFrame l.core port0 port1] }

/-- `CoreLoader::get_av_info`: the result and the record the core filled in, which stays zeroed
when the core is not asked. -/
def getAvInfo (l : CoreLoader) (k : κ) : LoaderOutcome κ (RpResult × AvInfo) :=
  if !l.hasInstance then
    { value := (.internal, default), error := some "get_av_info needs Created", loader := l,
      core := k }
  else if !l.table.getAvInfo then
    { value := (.unsupported, default), error := some "core has no get_av_info", loader := l,
      core := k }
  else
    let r := env.getAvInfo k l.core
    { value := (.ok, r.value), loader := l, core := r.core, calls := r.calls,
      trace := [.getAvInfo l.core] }

/-- `CoreLoader::serialize_size`, `0` when there is nothing to ask. -/
def serializeSize (l : CoreLoader) (k : κ) : LoaderOutcome κ ℕ :=
  if !l.hasInstance || l.abi.isNone || !l.table.serializeSize then
    { value := 0, loader := l, core := k }
  else
    let r := env.serializeSize k l.core
    { value := r.value, loader := l, core := r.core, calls := r.calls,
      trace := [.serializeSize l.core] }

/-- `CoreLoader::serialize` into a buffer of `size` bytes: the result and the buffer. -/
def serialize (l : CoreLoader) (size : ℕ) (k : κ) : LoaderOutcome κ (RpResult × Blob) :=
  if !l.hasInstance then
    { value := (.internal, []), error := some "serialize needs Created", loader := l, core := k }
  else if !l.table.serialize then
    { value := (.unsupported, []), error := some "core has no serialize", loader := l, core := k }
  else
    let r := env.serialize k l.core size
    { value := r.value, loader := l, core := r.core, calls := r.calls,
      trace := [.serialize l.core r.value.1] }

/-- `CoreLoader::unserialize`. -/
def unserialize (l : CoreLoader) (data : Blob) (k : κ) : LoaderOutcome κ RpResult :=
  if !l.hasInstance then l.fail k .internal "unserialize needs Created"
  else if !l.table.unserialize then l.fail k .unsupported "core has no unserialize"
  else
    let r := env.unserialize k l.core data
    { value := r.value, loader := l, core := r.core, calls := r.calls,
      trace := [.unserialize l.core r.value] }

/-- `CoreLoader::load_content`. -/
def loadContent (l : CoreLoader) (path : String) (k : κ) : LoaderOutcome κ RpResult :=
  if !l.hasInstance then l.fail k .internal "load_content needs Created"
  else if !l.table.loadContent then l.fail k .unsupported "core has no load_content"
  else
    let r := env.loadContent k l.core path
    { value := r.value, loader := l, core := r.core, calls := r.calls,
      trace := [.loadContent l.core r.value] }

/-- `CoreLoader::has_load_content`. -/
def hasLoadContent (l : CoreLoader) : Bool := l.abi.isSome && l.table.loadContent

theorem hasLoadContent_eq (l : CoreLoader) : l.hasLoadContent = l.table.loadContent := by
  unfold hasLoadContent table
  cases l.abi <;> rfl

/-- `CoreLoader::destroy`: stop a started core, destroy the instance if there is one, and forget
everything. -/
def destroy (l : CoreLoader) (k : κ) : LoaderOutcome κ Unit :=
  let stopped : LoaderOutcome κ RpResult :=
    if l.state = .started then l.stop env k else { value := .ok, loader := l, core := k }
  let l' := stopped.loader
  if l'.core ≠ 0 && l'.abi.isSome && l'.table.destroy then
    let r := env.destroy stopped.core l'.core
    { value := (), loader := {}, core := r.core, calls := stopped.calls ++ r.calls,
      trace := stopped.trace ++ [.destroy l'.core] }
  else
    { value := (), loader := {}, core := stopped.core, calls := stopped.calls,
      trace := stopped.trace }

end CoreLoader

end RetroPark
