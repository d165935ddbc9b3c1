import RetroPark.Runtime.Runtime

/-!
# A presenting core that plays discs

`DiscCore.core table good` is a presenting core with the entry points of `table`. It takes the discs
that `good` names and does everything else it is asked. `DiscCore.gpu refuses` is a backend whose
`n`-th allocation of surfaces fails if `refuses n` says so, and `idle` a headless runtime that has
loaded nothing yet.
-/

namespace RetroPark.DiscCore

/-- All entry points of a presenting core that takes content. -/
def fullTable : CoreAbi :=
  { (default : CoreAbi) with
    create := true, destroy := true, setSurfaces := true, start := true, stop := true,
      loadContent := true }

/-- The core behind its table. -/
def core (table : CoreAbi) (good : String → Bool) : CoreEnv Unit where
  resolve _ := { value := true, core := () }
  getCoreAbi _ := { value := some table, core := () }
  getInfo _ := { value := ⟨0, 0⟩, core := () }
  create _ := { value := 1, core := () }
  destroy _ _ := { value := (), core := () }
  setSurfaces _ _ _ := { value := .ok, core := () }
  start _ _ := { value := .ok, core := () }
  stop _ _ := { value := .ok, core := () }
  getAvInfo _ _ := { value := default, core := () }
  runFrame _ _ _ _ := { value := (), core := () }
  serializeSize _ _ := { value := 0, core := () }
  serialize _ _ _ := { value := (.unsupported, []), core := () }
  unserialize _ _ _ := { value := .unsupported, core := () }
  loadContent _ _ path := { value := if good path then .ok else .notFound, core := () }

/-- Any directory holds the core. -/
def modules : ModuleEnv Unit where
  readManifest _ _ := .manifest .presenting 0 "disc.dll"
  openModule _ _ := (true, ())
  getStatic _ _ := false
  releaseModule _ := ()

/-- A backend that counts its allocations. -/
def gpu (refuses : ℕ → Bool) : GpuEnv ℕ where
  makeBackend _ := true
  initBackend n _ _ _ := (.ok, n)
  allocateSurfaces n _ _ _ := ((if refuses n then .device else .ok, []), n + 1)
  compositeAndPresent n _ _ _ _ := (.ok, n)
  compositeDriven n _ _ _ _ _ _ := (.ok, n)
  compositeExternalGl n _ _ _ _ _ := (.ok, n)
  presentSyncHandle _ := 1
  presentConsumeSyncHandle _ := 2
  presentDeviceUuid _ := []
  audioOpen n _ := (.device, n)
  audioSubmit n _ := n
  audioClose n := n

/-- The core on the backend. -/
def env (table : CoreAbi) (good : String → Bool) (refuses : ℕ → Bool) : Env Unit ℕ where
  core := core table good
  modules := modules
  gpu := gpu refuses

/-- A headless runtime on the backend. -/
def idle (table : CoreAbi) (good : String → Bool) (refuses : ℕ → Bool) : World Unit ℕ :=
  Runtime.new (env table good refuses) 0 0 () 0

end RetroPark.DiscCore
