import RetroPark.Runtime.Script
import RetroPark.Runtime.Triples

/-!
# What decides the life of a core

`Control` is the part of the world that the scripts of `Runtime.Script` depend on: the fields of
`View` and the log of the calls on instances, surfaces and modules. `Op.Step` says what a call of a
script may answer and what it does to that part, and `exec_step` that this is so for every core,
module and device.
-/

namespace RetroPark

open Std.Do

set_option mvcgen.warning false

/-- A call on an instance, an allocation of surfaces, or a module that is opened or released. -/
@[simp]
def Event.tracked : Event → Bool
  | .abi .resolve | .abi .getCoreAbi | .abi .getInfo | .submitFrame _ _ _ _
  | .composite _ _ _ => false
  | .abi (.create _) | .abi (.destroy _) | .abi (.setSurfaces _ _) | .abi (.start _ _)
  | .abi (.stop _ _) | .abi (.getAvInfo _) | .abi (.runFrame _ _ _) | .abi (.serializeSize _)
  | .abi (.serialize _ _) | .abi (.unserialize _ _) | .abi (.loadContent _ _)
  | .allocateSurfaces _ | .openModule | .releaseModule => true

/-- The fields the scripts read, and the tracked calls, newest first. -/
structure Control where
  view : Runtime.View
  calls : List Event

/-- The part of a world that decides the life of its core. -/
def World.control {κ β : Type*} (w : World κ β) : Control :=
  { view := w.rt.view, calls := w.log.filter Event.tracked }

namespace Control

/-- The loader moves on. -/
def withLoader (c : Control) (l : CoreLoader) : Control :=
  { c with view := { c.view with loader := l } }

/-- A call is made. -/
def push (c : Control) (e : Event) : Control := { c with calls := e :: c.calls }

/-- Logging a call leaves the view alone. -/
@[simp]
theorem push_view (c : Control) (e : Event) : (c.push e).view = c.view := rfl

/-- Replacing the loader leaves the other fields of the view alone. -/
@[simp]
theorem withLoader_view (c : Control) (l : CoreLoader) :
    (c.withLoader l).view = { c.view with loader := l } := rfl

/-- What is left by a loader method. -/
def after {κ α : Type} (c : Control) (out : LoaderOutcome κ α) : Control :=
  { view := { c.view with loader := out.loader }
    calls := (out.trace.map Event.abi).reverse.filter Event.tracked ++ c.calls }

/-- A frame or a savestate of the loader's instance. -/
def Uses (l : CoreLoader) (e : Event) : Prop :=
  l.hasInstance = true ∧
    ((∃ i₀ i₁, e = .abi (.runFrame l.core i₀ i₁)) ∨ e = .abi (.serializeSize l.core) ∨
      (∃ r, e = .abi (.serialize l.core r)) ∨ ∃ r, e = .abi (.unserialize l.core r))

/-- Nothing but frames and savestates of the instance happen between `c` and `c'`. -/
def Quiet (c c' : Control) : Prop :=
  c'.view = c.view ∧ ∃ es, c'.calls = es ++ c.calls ∧ ∀ e ∈ es, Uses c.view.loader e

/-- Nothing happens quietly. -/
theorem Quiet.refl (c : Control) : Quiet c c := ⟨rfl, [], rfl, nofun⟩

/-- One quiet change after another is a quiet change. -/
theorem Quiet.trans {c c' c'' : Control} (h : Quiet c c') (h' : Quiet c' c'') : Quiet c c'' := by
  obtain ⟨hview, es, hcalls, huses⟩ := h
  obtain ⟨hview', es', hcalls', huses'⟩ := h'
  refine ⟨hview'.trans hview, es' ++ es, ?_, fun e he => ?_⟩
  · rw [hcalls', hcalls, List.append_assoc]
  · rcases List.mem_append.mp he with he | he
    · exact hview ▸ huses' e he
    · exact huses e he

end Control

namespace Runtime

variable {κ β : Type} (env : Env κ β)

/-! ### Loader calls -/

/-- A callback adds no tracked event to the log. -/
theorem hostCall_tracked (c : HostCall) (w : World κ β) :
    ((hostCall env c).run w).2.log.filter Event.tracked = w.log.filter Event.tracked := by
  cases c with
  | audioSample frames n =>
    obtain ⟨_, _, _, hrun, -⟩ := onAudioSample_run env frames n w
    rw [hostCall, hrun]
  | _ => rfl

/-- The callbacks of a core add no tracked event to the log. -/
theorem hostCalls_tracked (cs : List HostCall) (w : World κ β) :
    ((hostCalls env cs).run w).2.log.filter Event.tracked = w.log.filter Event.tracked := by
  induction cs generalizing w with
  | nil => rfl
  | cons c cs ih => exact (ih _).trans (hostCall_tracked env c w)

/-- Callbacks leave the control part alone. -/
theorem hostCalls_control (cs : List HostCall) (w : World κ β) :
    ((hostCalls env cs).run w).2.control = w.control :=
  congrArg₂ Control.mk (congrArg view (hostCalls_steady env cs w).2 :) (hostCalls_tracked env cs w)

/-- A loader call moves the loader and adds the calls it made. -/
theorem callLoader_control {α : Type} (f : CoreLoader → κ → LoaderOutcome κ α) (w : World κ β) :
    ((callLoader env f).run w).2.control = w.control.after (f w.rt.loader w.core) := by
  refine (hostCalls_control env _ _).trans ?_
  exact congrArg (Control.mk _) (List.filter_append ..)

/-! ### Frames and savestates -/

open Control (Quiet Uses)

variable (c₀ : Control)

/-- A loader method that calls the instance for frames or savestates alone. -/
theorem callLoader_quiet {α : Type} (f : CoreLoader → κ → LoaderOutcome κ α)
    (hf : ∀ l k, (f l k).loader = l ∧ ∀ call ∈ (f l k).trace, Uses l (.abi call)) :
    ⦃fun w => ⌜Quiet c₀ w.control⌝⦄ callLoader env f ⦃⇓ _ w => ⌜Quiet c₀ w.control⌝⦄ := by
  refine triple_of_run fun w hw => hw.trans ?_
  obtain ⟨hloader, htrace⟩ := hf w.rt.loader w.core
  rw [callLoader_control, Control.after, hloader]
  refine ⟨rfl, _, rfl, fun e he => ?_⟩
  obtain ⟨call, hcall, rfl⟩ := List.mem_map.mp (List.mem_reverse.mp (List.mem_filter.mp he).1)
  exact htrace call hcall

section Quiet

/-- Asking for the size of a savestate is quiet. -/
theorem callSerializeSize_quiet :
    ⦃fun w => ⌜Quiet c₀ w.control⌝⦄ callLoader env (·.serializeSize env.core ·)
      ⦃⇓ _ w => ⌜Quiet c₀ w.control⌝⦄ := by
  refine callLoader_quiet env c₀ _ fun l k => ⟨l.serializeSize_loader env.core k, ?_⟩
  unfold CoreLoader.serializeSize
  split_ifs <;> simp_all [Uses]

/-- Taking a savestate is quiet. -/
theorem callSerialize_quiet (size : ℕ) :
    ⦃fun w => ⌜Quiet c₀ w.control⌝⦄ callLoader env (·.serialize env.core size ·)
      ⦃⇓ _ w => ⌜Quiet c₀ w.control⌝⦄ := by
  refine callLoader_quiet env c₀ _ fun l k => ⟨l.serialize_loader env.core k size, ?_⟩
  unfold CoreLoader.serialize
  split_ifs <;> simp_all [Uses]

/-- Restoring a savestate is quiet. -/
theorem callUnserialize_quiet (data : Blob) :
    ⦃fun w => ⌜Quiet c₀ w.control⌝⦄ callLoader env (·.unserialize env.core data ·)
      ⦃⇓ _ w => ⌜Quiet c₀ w.control⌝⦄ := by
  refine callLoader_quiet env c₀ _ fun l k => ⟨l.unserialize_loader env.core k data, ?_⟩
  unfold CoreLoader.unserialize
  split_ifs <;> simp_all [Uses, CoreLoader.fail]

/-- Running a frame is quiet. -/
theorem callRunFrame_quiet (port0 port1 : InputState) :
    ⦃fun w => ⌜Quiet c₀ w.control⌝⦄ callLoader env (·.runFrame env.core port0 port1 ·)
      ⦃⇓ _ w => ⌜Quiet c₀ w.control⌝⦄ := by
  refine callLoader_quiet env c₀ _ fun l k => ⟨l.runFrame_loader env.core k port0 port1, ?_⟩
  unfold CoreLoader.runFrame
  split_ifs <;> simp_all [Uses, CoreLoader.fail]

/-- `set_input` is quiet. -/
theorem setInput_quiet (port : UInt32) (input : InputState) :
    ⦃fun w => ⌜Quiet c₀ w.control⌝⦄ (setInput port input : RuntimeM κ β Unit)
      ⦃⇓ _ w => ⌜Quiet c₀ w.control⌝⦄ := by
  refine triple_of_run fun w hw => ?_
  change Quiet c₀ ⟨(if port &&& 1 = 0 then _ else _ : Runtime).view, _⟩
  split_ifs <;> exact hw

/-- The capture of a rewind snapshot is quiet. -/
theorem captureRewind_quiet :
    ⦃fun w => ⌜Quiet c₀ w.control⌝⦄ captureRewind env ⦃⇓ _ w => ⌜Quiet c₀ w.control⌝⦄ := by
  have hsize := callSerializeSize_quiet env c₀
  have hserialize := callSerialize_quiet env c₀
  mvcgen [captureRewind, hsize, hserialize]

/-- `advance` is quiet. -/
theorem advance_quiet (emit : Bool) :
    ⦃fun w => ⌜Quiet c₀ w.control⌝⦄ advance env emit ⦃⇓ _ w => ⌜Quiet c₀ w.control⌝⦄ := by
  have hcapture := captureRewind_quiet env c₀
  have hframe := callRunFrame_quiet env c₀
  mvcgen [advance, hcapture, hframe]

/-- `render` is quiet. -/
theorem render_quiet (wantPixels : Bool) :
    ⦃fun w => ⌜Quiet c₀ w.control⌝⦄ render env wantPixels ⦃⇓ _ w => ⌜Quiet c₀ w.control⌝⦄ := by
  mvcgen [render, renderDriven, renderRing]

/-- `present` is quiet. -/
theorem present_quiet (wantPixels : Bool) :
    ⦃fun w => ⌜Quiet c₀ w.control⌝⦄ present env wantPixels ⦃⇓ _ w => ⌜Quiet c₀ w.control⌝⦄ := by
  have hadvance := advance_quiet env c₀
  have hrender := render_quiet env c₀
  mvcgen [present, hadvance, hrender]

/-- `save_state` is quiet. -/
theorem saveState_quiet (buf : Bool) (size : ℕ) :
    ⦃fun w => ⌜Quiet c₀ w.control⌝⦄ saveState env buf size ⦃⇓ _ w => ⌜Quiet c₀ w.control⌝⦄ := by
  have hsize := callSerializeSize_quiet env c₀
  have hserialize := callSerialize_quiet env c₀
  mvcgen [saveState, hsize, hserialize]

/-- `load_state` is quiet. -/
theorem loadState_quiet (data : Blob) :
    ⦃fun w => ⌜Quiet c₀ w.control⌝⦄ loadState env data ⦃⇓ _ w => ⌜Quiet c₀ w.control⌝⦄ := by
  have hunserialize := callUnserialize_quiet env c₀
  mvcgen [loadState, hunserialize]

/-- `set_rewind` is quiet. -/
theorem setRewind_quiet (enabled : Bool) (maxSnapshots : ℕ) :
    ⦃fun w => ⌜Quiet c₀ w.control⌝⦄ setRewind env enabled maxSnapshots
      ⦃⇓ _ w => ⌜Quiet c₀ w.control⌝⦄ := by
  have hsize := callSerializeSize_quiet env c₀
  mvcgen [setRewind, hsize]

/-- `rewind` is quiet. -/
theorem rewind_quiet :
    ⦃fun w => ⌜Quiet c₀ w.control⌝⦄ rewind env ⦃⇓ _ w => ⌜Quiet c₀ w.control⌝⦄ := by
  have hunserialize := callUnserialize_quiet env c₀
  mvcgen [rewind, hunserialize]

/-- `pause` is quiet. -/
theorem pause_quiet :
    ⦃fun w => ⌜Quiet c₀ w.control⌝⦄ (pause : RuntimeM κ β RpResult)
      ⦃⇓ _ w => ⌜Quiet c₀ w.control⌝⦄ := by
  refine triple_of_run fun w hw => ?_
  change Quiet c₀ ⟨(if w.rt.coreLoaded then _ else _ : Runtime).view, _⟩
  split_ifs <;> exact hw

end Quiet

/-- A method that does not manage the core's life. -/
def ApiCall.isQuiet : ApiCall → Bool
  | .loadCore _ | .loadStaticCore _ | .unloadCore | .loadContent _ | .resize _ _ | .reset => false
  | _ => true

/-- The calls that manage no core are quiet. -/
theorem call_quiet {a : ApiCall} (ha : a.isQuiet = true) (w : World κ β) :
    Quiet w.control ((call env a).run w).2.control := by
  cases a with
  | setInput port input => exact run_of_triple (setInput_quiet _ port input) (.refl _)
  | present out => exact run_of_triple (present_quiet env _ out) (.refl _)
  | advance emit => exact run_of_triple (advance_quiet env _ emit) (.refl _)
  | render out => exact run_of_triple (render_quiet env _ out) (.refl _)
  | serializeSize => exact run_of_triple (callSerializeSize_quiet env _) (.refl _)
  | saveState buf size => exact run_of_triple (saveState_quiet env _ buf size) (.refl _)
  | loadState data => exact run_of_triple (loadState_quiet env _ data) (.refl _)
  | setRewind enabled n => exact run_of_triple (setRewind_quiet env _ enabled n) (.refl _)
  | rewind => exact run_of_triple (rewind_quiet env _) (.refl _)
  | pause => exact run_of_triple (pause_quiet _) (.refl _)
  | resume => exact .refl _
  | coreThread calls =>
    show Quiet w.control ((hostCalls env calls).run w).2.control
    rw [hostCalls_control]
    exact .refl _
  | _ => exact nomatch ha

/-! ### What a call may answer and do -/

/-- What a call may answer in `c`, and the control part it leads to. The table of a core that is
loaded is one of `tables`. -/
def Op.Step (tables : CoreAbi → Prop) : (i : Op) → Control → i.Answer → Control → Prop
  | .view, c, v, c' => v = c.view ∧ c' = c
  | .edit e, c, _, c' => c' = { c with view := e.effect c.view }
  | .readManifest _, c, _, c' | .getStatic _, c, _, c' | .openModule _, c, _, c'
  | .getInfo, c, _, c'
  | .openAudio _, c, _, c' | .closeAudio, c, _, c' => c' = c
  | .holdModule, c, _, c' =>
      c' = { view := { c.view with module := true }, calls := .openModule :: c.calls }
  | .resetModule, c, _, c' =>
      c' =
        if c.view.module then
          { view := { c.view with module := false }, calls := .releaseModule :: c.calls }
        else c
  | .load module, c, r, c' =>
      if r = .ok then
        c.view.loader.state = .unloaded ∧ module = true ∧ ∃ abi, tables abi ∧
          c' = c.withLoader { c.view.loader with module := true, abi := some abi, state := .loaded }
      else c' = c
  | .create, c, r, c' =>
      if c.view.loader.state = .loaded ∧ c.view.loader.table.create = true then
        ∃ p, (r = .ok ↔ p ≠ 0) ∧
          c' = (c.withLoader { c.view.loader with
            core := p, state := if p = 0 then .loaded else .created }).push (.abi (.create p))
      else r ≠ .ok ∧ c' = c
  | .handSurfaces _, c, r, c' =>
      if c.view.coreType = .presenting ∧ c.view.loader.state = .created then
        if c.view.loader.table.setSurfaces then
          c' = c.push (.abi (.setSurfaces c.view.loader.core r))
        else r ≠ .ok ∧ c' = c
      else r = .ok ∧ c' = c
  | .start, c, r, c' =>
      if c.view.loader.state = .created ∧ c.view.loader.table.start = true then
        c' = (if r = .ok then c.withLoader { c.view.loader with state := .started } else c).push
          (.abi (.start c.view.loader.core r))
      else r ≠ .ok ∧ c' = c
  | .stop, c, r, c' =>
      if c.view.loader.state = .started then
        c' =
          if c.view.loader.table.stop then
            (c.withLoader { c.view.loader with state := .created }).push
              (.abi (.stop c.view.loader.core r))
          else c.withLoader { c.view.loader with state := .created }
      else c' = c
  | .destroy, c, _, c' =>
      ∃ r, c' =
        { view := { c.view with loader := {} }
          calls :=
            (if c.view.loader.core ≠ 0 && c.view.loader.abi.isSome &&
              c.view.loader.table.destroy then
              [.abi (.destroy c.view.loader.core)] else []) ++
            (if c.view.loader.state = .started ∧ c.view.loader.table.stop = true then
              [.abi (.stop c.view.loader.core r)] else []) ++ c.calls }
  | .getAvInfo, c, r, c' =>
      if c.view.loader.hasInstance = true ∧ c.view.loader.table.getAvInfo = true then
        r.1 = .ok ∧ c' = c.push (.abi (.getAvInfo c.view.loader.core))
      else r.1 ≠ .ok ∧ c' = c
  | .loadContent _, c, r, c' =>
      if c.view.loader.hasInstance = true ∧ c.view.loader.table.loadContent = true then
        c' = c.push (.abi (.loadContent c.view.loader.core r))
      else r ≠ .ok ∧ c' = c
  | .initBackend _ _, c, r, c' => c' = { c with view := { c.view with initOk := r = .ok } }
  | .allocateSurfaces, c, r, c' => c' = c.push (.allocateSurfaces r.1)
  | .quiet a, c, _, c' => a.isQuiet = true → Quiet c c'

/-- The tables of an environment's cores. -/
def Provides (tables : CoreAbi → Prop) : Prop :=
  ∀ k abi, (env.core.getCoreAbi k).value = some abi → tables abi

/-- Every environment provides tables of which nothing is asked. -/
theorem provides_any : Provides env fun _ => True := fun _ _ _ => trivial

variable {tables : CoreAbi → Prop}

/-- What a loader method does in every control state. -/
theorem callLoader_step {α : Type} {f : CoreLoader → κ → LoaderOutcome κ α}
    {P : Control → α → Control → Prop}
    (h : ∀ c k, P c (f c.view.loader k).value (c.after (f c.view.loader k))) (w : World κ β) :
    P w.control ((callLoader env f).run w).1 ((callLoader env f).run w).2.control := by
  rw [callLoader_control]
  exact h w.control w.core

section Loader

variable (core : CoreEnv κ) (c : Control) (k : κ)

/-- What `CoreLoader::load` does is a step of `load`. -/
theorem load_step (h : Provides env tables) (module : Bool) :
    Op.Step tables (.load module) c (c.view.loader.load env.core module k).value
      (c.after (c.view.loader.load env.core module k)) := by
  obtain ⟨⟨backend, api, initOk, coreLoaded, coreType, requires, loaded, path, held, l⟩, calls⟩ := c
  unfold Op.Step CoreLoader.load
  dsimp only
  by_cases hstate : l.state = .unloaded
  · cases module with
    | false => simp [Control.after, CoreLoader.fail, hstate]
    | true =>
      cases hresolve : (env.core.resolve k).value with
      | false => simp [Control.after, hstate]
      | true =>
        cases habi : (env.core.getCoreAbi (env.core.resolve k).core).value with
        | none => simp [Control.after, hstate]
        | some abi =>
          by_cases hversion : abi.abiVersion = abiVersion
          · refine (if_pos ?_).mpr ⟨?_, ?_, abi, h _ _ habi, ?_⟩ <;>
              simp [Control.after, Control.withLoader, hstate, hversion]
          · simp [Control.after, hstate, hversion]
  · simp [Control.after, CoreLoader.fail, hstate]

/-- What `CoreLoader::create` does is a step of `create`. -/
theorem create_step : Op.Step tables .create c (c.view.loader.create core k).value
    (c.after (c.view.loader.create core k)) := by
  obtain ⟨⟨backend, api, initOk, coreLoaded, coreType, requires, loaded, path, module, l⟩,
    calls⟩ := c
  unfold Op.Step CoreLoader.create
  dsimp only
  by_cases hcan : l.state = .loaded ∧ l.table.create = true
  · rw [if_pos hcan]
    refine ⟨(core.create k).value, ?_⟩
    by_cases hzero : (core.create k).value = 0 <;>
      simp [Control.after, List.filter_cons, Control.push, Control.withLoader, hcan, hzero]
  · rw [if_neg hcan]
    split_ifs <;> simp_all [Control.after, CoreLoader.fail]

/-- What `CoreLoader::start` does is a step of `start`. -/
theorem start_step : Op.Step tables .start c (c.view.loader.start core k).value
    (c.after (c.view.loader.start core k)) := by
  obtain ⟨⟨backend, api, initOk, coreLoaded, coreType, requires, loaded, path, module, l⟩,
    calls⟩ := c
  unfold Op.Step CoreLoader.start
  dsimp only
  split_ifs <;>
    simp_all [Control.after, List.filter_cons, Control.push, Control.withLoader, CoreLoader.fail]

/-- What `CoreLoader::stop` does is a step of `stop`. -/
theorem stop_step : Op.Step tables .stop c (c.view.loader.stop core k).value
    (c.after (c.view.loader.stop core k)) := by
  obtain ⟨⟨backend, api, initOk, coreLoaded, coreType, requires, loaded, path, module, l⟩,
    calls⟩ := c
  unfold Op.Step CoreLoader.stop
  dsimp only
  split_ifs <;>
    simp_all [Control.after, List.filter_cons, Control.push, Control.withLoader, CoreLoader.fail]

/-- What `CoreLoader::destroy` does is a step of `destroy`. -/
theorem destroy_step : Op.Step tables .destroy c (c.view.loader.destroy core k).value
    (c.after (c.view.loader.destroy core k)) := by
  obtain ⟨⟨backend, api, initOk, coreLoaded, coreType, requires, loaded, path, module, l⟩,
    calls⟩ := c
  have htable : ({ l with state := .created } : CoreLoader).table = l.table := rfl
  refine ⟨(core.stop k l.core).value, ?_⟩
  simp only [CoreLoader.destroy, CoreLoader.stop]
  split_ifs <;> simp_all [Control.after, List.filter_cons]

/-- What `CoreLoader::get_av_info` does is a step of `getAvInfo`. -/
theorem getAvInfo_step : Op.Step tables .getAvInfo c (c.view.loader.getAvInfo core k).value
    (c.after (c.view.loader.getAvInfo core k)) := by
  obtain ⟨⟨backend, api, initOk, coreLoaded, coreType, requires, loaded, path, module, l⟩,
    calls⟩ := c
  unfold Op.Step CoreLoader.getAvInfo
  dsimp only
  split_ifs <;> simp_all [Control.after, List.filter_cons, Control.push]

/-- What `CoreLoader::load_content` does is a step of `loadContent`. -/
theorem loadContent_step (path : String) :
    Op.Step tables (.loadContent path) c (c.view.loader.loadContent core path k).value
      (c.after (c.view.loader.loadContent core path k)) := by
  obtain ⟨⟨backend, api, initOk, coreLoaded, coreType, requires, loaded, path, module, l⟩,
    calls⟩ := c
  unfold Op.Step CoreLoader.loadContent
  dsimp only
  split_ifs <;> simp_all [Control.after, List.filter_cons, Control.push, CoreLoader.fail]

/-- What `CoreLoader::set_surfaces` does is a step of `handSurfaces` when the core is to have
surfaces. -/
theorem setSurfaces_step (set : SurfaceSet) (descs : List SurfaceDesc)
    (hpresenting : c.view.coreType = .presenting ∧ c.view.loader.state = .created) :
    Op.Step tables (.handSurfaces descs) c (c.view.loader.setSurfaces core set k).value
      (c.after (c.view.loader.setSurfaces core set k)) := by
  obtain ⟨⟨backend, api, initOk, coreLoaded, coreType, requires, loaded, path, module, l⟩,
    calls⟩ := c
  unfold Op.Step CoreLoader.setSurfaces
  dsimp only
  split_ifs <;> simp_all [Control.after, List.filter_cons, Control.push, CoreLoader.fail]

end Loader

/-- Handing over the surfaces is a step, also when the core is to have none. -/
theorem handSurfaces_step (descs : List SurfaceDesc) (w : World κ β) :
    Op.Step tables (.handSurfaces descs) w.control ((Op.exec env (.handSurfaces descs)).run w).1
      ((Op.exec env (.handSurfaces descs)).run w).2.control := by
  unfold Op.exec
  rw [get_bind_run]
  by_cases hpresenting : w.rt.coreType = .presenting ∧ w.rt.loader.state = .created
  · rw [if_pos hpresenting, callLoader_control]
    exact setSurfaces_step env.core w.control w.core _ descs hpresenting
  · rw [if_neg hpresenting]
    exact (if_neg hpresenting).mpr ⟨rfl, rfl⟩

/-- Only a module that is held is released. -/
theorem resetModule_step (w : World κ β) :
    ((resetModule env).run w).2.control =
      if w.rt.module then
        { view := { w.control.view with module := false }
          calls := .releaseModule :: w.control.calls }
      else w.control := by
  unfold resetModule
  rw [get_bind_run]
  split_ifs <;> rfl

/-- Opening the audio output leaves the controlled part alone. -/
theorem openAudio_control (av : AvInfo) (w : World κ β) :
    ((openAudio env av).run w).2.control = w.control := by
  unfold openAudio
  rw [update_bind_run]
  split_ifs <;> rfl

/-- Whatever the core, the modules and the device do, a call answers and does what `Op.Step`
says. -/
theorem exec_step (h : Provides env tables) (i : Op) (w : World κ β) :
    i.Step tables w.control ((i.exec env).run w).1 ((i.exec env).run w).2.control := by
  cases i with
  | view => exact ⟨rfl, rfl⟩
  | edit e => exact congrArg (Control.mk · _) (e.view_write w.rt)
  | resetModule => exact resetModule_step env w
  | load module => exact callLoader_step env (load_step env · · h module) w
  | getInfo => exact hostCalls_control env _ _
  | create => exact callLoader_step env (create_step env.core) w
  | handSurfaces descs => exact handSurfaces_step env descs w
  | start => exact callLoader_step env (start_step env.core) w
  | stop => exact callLoader_step env (stop_step env.core) w
  | destroy => exact callLoader_step env (destroy_step env.core) w
  | getAvInfo => exact callLoader_step env (getAvInfo_step env.core) w
  | loadContent path => exact callLoader_step env (loadContent_step env.core · · path) w
  | openAudio av => exact openAudio_control env av w
  | closeAudio =>
    show World.control (if w.rt.audio then _ else _) = _
    split_ifs <;> rfl
  | quiet a => exact fun ha => call_quiet env ha w
  | _ => rfl

end Runtime

end RetroPark
