import RetroPark.Runtime.Rules
import RetroPark.Support.Machine

/-!
# The core between two calls

The methods keep the instance they work on until they unload it (`SameCore`), and between two calls
of a host program either no core is loaded or its instance exists (`call_settled`). `host_run` takes
what the scripts keep and guard to the runs of a host program.
-/

namespace RetroPark

namespace Runtime

open Program

/-- The same instance of the same core, loaded as before. -/
structure SameCore (v v' : View) : Prop where
  coreLoaded : v'.coreLoaded = v.coreLoaded
  coreType : v'.coreType = v.coreType
  requiresContent : v'.requiresContent = v.requiresContent
  core : v'.loader.core = v.loader.core
  abi : v'.loader.abi = v.loader.abi
  hasInstance : v'.loader.hasInstance = v.loader.hasInstance

/-- A core is the same as itself. -/
theorem SameCore.rfl {v : View} : SameCore v v :=
  ⟨.refl _, .refl _, .refl _, .refl _, .refl _, .refl _⟩

/-- The same core as the same core is the same core. -/
theorem SameCore.trans {v v' v'' : View} (h : SameCore v v') (h' : SameCore v' v'') :
    SameCore v v'' :=
  ⟨h'.coreLoaded.trans h.coreLoaded, h'.coreType.trans h.coreType,
    h'.requiresContent.trans h.requiresContent, h'.core.trans h.core, h'.abi.trans h.abi,
    h'.hasInstance.trans h.hasInstance⟩

/-- The same core has the same table. -/
theorem SameCore.table {v v' : View} (h : SameCore v v') : v'.loader.table = v.loader.table :=
  congrArg (Option.getD · default) h.abi

/-- The same core takes content or does not. -/
theorem SameCore.hasLoadContent {v v' : View} (h : SameCore v v') :
    v'.loader.hasLoadContent = v.loader.hasLoadContent := by
  rw [CoreLoader.hasLoadContent, CoreLoader.hasLoadContent, h.abi, h.table]

/-- A runtime that still has its core is still settled. -/
theorem Settled.of_same {v v' : View} (h : Settled v) (hsame : SameCore v v')
    (hloaded : v.coreLoaded = true) :
    Settled v' where
  vacant hunloaded := nomatch (hsame.coreLoaded.trans hloaded).symm.trans hunloaded
  hasInstance _ := hsame.hasInstance.trans (h.hasInstance hloaded)
  requires _ := hsame.requiresContent.trans ((h.requires hloaded).trans hsame.hasLoadContent.symm)

/-- A stop leaves the core the same. -/
theorem Stopped.same {c c' : Control} (h : Stopped c c') : SameCore c.view c'.view := by
  cases h with
  | idle => exact .rfl
  | asked hstarted | silent hstarted =>
    exact ⟨rfl, rfl, rfl, rfl, rfl, by simp [CoreLoader.hasInstance, hstarted]⟩

/-- A start leaves the core the same. -/
theorem Launched.same {c c' : Control} {r : RpResult} (h : Launched c r c') :
    SameCore c.view c'.view := by
  cases h with
  | started hcreated =>
    exact ⟨rfl, rfl, rfl, rfl, rfl, by simp [CoreLoader.hasInstance, hcreated]⟩
  | failed | missing => exact .rfl

/-- Asking for the geometry leaves the core the same. -/
theorem Asked.same {c c' : Control} (h : Asked c c') : SameCore c.view c'.view := h.view ▸ .rfl

/-- New surfaces leave the core the same. -/
theorem NewSurfaces.same {c c' : Control} {r : RpResult} (h : NewSurfaces c r c') :
    SameCore c.view c'.view := h.view ▸ .rfl

/-- Giving content to a core leaves it the same. -/
theorem given_same (path : String) (c : Control) : SameCore c.view (given path c).view :=
  ⟨rfl, rfl, rfl, rfl, rfl, rfl⟩

/-- Marking the content leaves the core the same. -/
theorem withContent_same (c : Control) : SameCore c.view (edited (.contentLoaded true) c).view :=
  ⟨rfl, rfl, rfl, rfl, rfl, rfl⟩

/-- An instance that is not started is in the state after its creation. -/
theorem Stopped.created {c c' : Control} (h : Stopped c c')
    (hc : c.view.loader.hasInstance = true) :
    c'.view.loader.state = .created := by
  cases h with
  | idle hidle => simpa [CoreLoader.hasInstance, hidle] using hc
  | asked | silent => rfl

/-! ### The calls an instance is used with -/

/-- A call that neither creates or destroys an instance nor hands it surfaces. -/
def Serves : Event → Prop
  | .abi (.create _) | .abi (.destroy _) | .abi (.setSurfaces _ _) | .allocateSurfaces _
  | .openModule
  | .releaseModule => False
  | _ => True

/-- The same instance, after some calls. -/
structure Continues (c c' : Control) : Prop where
  core : SameCore c.view c'.view
  calls : ∃ es, c'.calls = es ++ c.calls ∧ ∀ e ∈ es, Serves e

/-- What continues a core that was continued continues it. -/
theorem Continues.trans {c c' c'' : Control} (h : Continues c c') (h' : Continues c' c'') :
    Continues c c'' := by
  obtain ⟨hcore, es, hcalls, hkeeps⟩ := h
  obtain ⟨hcore', es', hcalls', hkeeps'⟩ := h'
  refine ⟨hcore.trans hcore', es' ++ es, ?_, fun e he => ?_⟩
  · rw [hcalls', hcalls, List.append_assoc]
  · exact (List.mem_append.mp he).elim (hkeeps' e) (hkeeps e)

/-- A stop continues the core. -/
theorem Stopped.continues {c c' : Control} (h : Stopped c c') : Continues c c' := by
  refine ⟨h.same, ?_⟩
  cases h with
  | idle | silent => exact ⟨[], rfl, nofun⟩
  | asked => exact ⟨[_], rfl, by simp [Serves]⟩

/-- A start continues the core. -/
theorem Launched.continues {c c' : Control} {r : RpResult} (h : Launched c r c') :
    Continues c c' := by
  refine ⟨h.same, ?_⟩
  cases h with
  | started | failed => exact ⟨[_], rfl, by simp [Serves]⟩
  | missing => exact ⟨[], rfl, nofun⟩

/-- Asking for the geometry continues the core. -/
theorem Asked.continues {c c' : Control} (h : Asked c c') : Continues c c' := by
  refine ⟨h.same, ?_⟩
  cases h with
  | asked => exact ⟨[_], rfl, by simp [Serves]⟩
  | missing => exact ⟨[], rfl, nofun⟩

/-- An edit that keeps the core continues it. -/
theorem edited_continues {c : Control} {e : Edit} (h : SameCore c.view (e.effect c.view)) :
    Continues c (edited e c) := ⟨h, [], rfl, nofun⟩

/-- Giving content to a core continues it. -/
theorem given_continues (path : String) (c : Control) : Continues c (given path c) :=
  ⟨given_same path c, [_], rfl, by simp [Serves]⟩

/-- Marking the content continues the core. -/
theorem withContent_continues (c : Control) : Continues c (edited (.contentLoaded true) c) :=
  edited_continues (withContent_same c)

/-- `load_content` continues the core, whatever becomes of the content. -/
theorem ContentLoad.continues {path : String} {c c' : Control} {r : RpResult}
    (h : ContentLoad path c r c') : Continues c c' := by
  cases h with
  | unasked => exact edited_continues ⟨rfl, rfl, rfl, rfl, rfl, rfl⟩
  | refused => exact ⟨⟨rfl, rfl, rfl, rfl, rfl, rfl⟩, [_], rfl, by simp [Serves]⟩
  | unusable _ _ hasked => exact (given_continues path c).trans hasked.continues
  | stuck _ _ _ hlaunched =>
    exact (given_continues path c).trans ((withContent_continues _).trans hlaunched.continues)
  | launched _ _ hlaunched hasked =>
    exact (given_continues path c).trans
      ((withContent_continues _).trans (hlaunched.continues.trans hasked.continues))
  | running _ _ hasked =>
    exact (given_continues path c).trans ((withContent_continues _).trans hasked.continues)
  | driven _ hasked =>
      exact (given_continues path c).trans (hasked.continues.trans (withContent_continues _))

/-- Quiet calls continue the core. -/
theorem quiet_continues {c c' : Control} (h : Control.Quiet c c') : Continues c c' := by
  obtain ⟨hview, es, hcalls, huses⟩ := h
  refine ⟨hview ▸ .rfl, es, hcalls, fun e he => ?_⟩
  rcases (huses e he).2 with ⟨_, _, rfl⟩ | rfl | ⟨_, rfl⟩ | ⟨_, rfl⟩ <;> exact trivial

/-! ### Cores that have just been made ready -/

/-- A core that has been booted is the one that was entered. -/
theorem Booted.same {type : CoreType} {c c' : Control} (h : Booted type c c') :
    SameCore (edited (.enter type) c).view c'.view := by
  cases h with
  | content => exact .rfl
  | driven _ _ hasked => exact hasked.same
  | waiting _ hnew _ => exact hnew.same
  | started _ hnew _ hlaunched => exact hnew.same.trans hlaunched.same

/-- A runtime that has booted a created core is settled. -/
theorem Booted.settled {type : CoreType} {c c' : Control} (h : Booted type c c')
    (hcreated : c.view.loader.state = .created) : Settled c'.view := by
  refine Settled.of_same (v := (edited (.enter type) c).view)
    ⟨nofun, fun _ => ?_, fun _ => rfl⟩ h.same rfl
  simp [Edit.enter, CoreLoader.hasInstance, hcreated]

/-! ### Runs of a host program -/

variable {κ β : Type} (env : Env κ β)

/-- A host program calls the public methods; a core's own thread may call back in between. -/
def host : Machine (World κ β) ApiCall where
  step w a := some ((call env a).run w).2

/-- The script of a call makes the call `i` in the state `v`. -/
def MakesCall (w : World κ β) (a : ApiCall) (i : Op) (v : World κ β) : Prop :=
  (Script.call a).Makes (Op.exec env) w i v

/-- A start that is found in the trace of a call. -/
theorem exists_start (w : World κ β) (a : ApiCall) (q : World κ β → Prop) [DecidablePred q]
    (h : ((Script.call a).trace (Op.exec env) w).any (fun x => x.1.isStart && decide (q x.2)) =
      true) :
    ∃ v, MakesCall env w a .start v ∧ q v := by
  obtain ⟨⟨i, v⟩, hmakes, hx⟩ := List.any_eq_true.mp h
  obtain ⟨hi, hq⟩ := Bool.and_eq_true_iff.mp hx
  obtain rfl := Op.eq_start hi
  exact ⟨v, hmakes, of_decide_eq_true hq⟩

/-- A new runtime has no core, has made no calls and has an empty loader. -/
theorem new_control (api : GraphicsApi) (nativeWindow : ℕ) (core : κ) (gpu : β) :
    Vacant (new env api nativeWindow core gpu).control.view ∧
      (new env api nativeWindow core gpu).control.calls = [] ∧
      (new env api nativeWindow core gpu).control.view.loader = {} := by
  by_cases hbackend : (!env.gpu.makeBackend api) = true
  · rw [show new env api nativeWindow core gpu = _ from if_pos hbackend]
    exact ⟨⟨rfl, rfl, rfl, rfl⟩, rfl, rfl⟩
  · rw [show new env api nativeWindow core gpu = _ from if_neg hbackend]
    exact ⟨⟨rfl, rfl, rfl, rfl⟩, rfl, rfl⟩

variable {env} {tables : CoreAbi → Prop} {I : Control → Prop} {C : Control → ApiCall → Prop}
  {guard : Op → Control → Prop}

/-- `resize` leaves a settled runtime settled. -/
theorem resize_settled {width height : UInt32} {c : Control} (hc : Settled c.view) :
    Always (Op.Step tables) Op.Calm (fun _ c' => Settled c'.view)
      (Script.resize width height) c := by
  refine resize_rule (fun _ _ h => h.calm) width height (fun _ => hc) ?_ ?_
  · intro _ initOk hunloaded
    obtain ⟨hloaded, hstate, hcontent, hmodule⟩ := hc.vacant hunloaded
    exact Vacant.settled ⟨hloaded, hstate, hcontent, hmodule⟩
  · intro d r c' hloaded hstopped hnew
    have hsame : SameCore c.view c'.view := hstopped.same.trans hnew.same
    refine ⟨fun _ => hc.of_same hsame hloaded, fun _ _ _ => ⟨trivial, fun r c'' hlaunched => ?_⟩⟩
    exact hc.of_same (hsame.trans hlaunched.same) hloaded

/-- `load_content` leaves a settled runtime settled. -/
theorem loadPath_settled {path : String} {c : Control} (hc : Settled c.view) :
    Always (Op.Step tables) Op.Calm (fun _ c' => Settled c'.view) (Script.loadPath path) c :=
  loadPath_rule (fun _ _ h => h.calm) path (fun _ => trivial) (fun _ _ _ _ => trivial) (fun _ => hc)
    fun _ _ hloaded hload => hc.of_same hload.continues.core hloaded

/-- Every call leaves no core, or one whose instance exists. -/
theorem call_settled (a : ApiCall) {c : Control} (hc : Settled c.view) :
    Always (Op.Step tables) Op.Calm (fun _ c' => Settled c'.view) (Script.call a) c := by
  refine call_rule (fun _ _ h => h.calm) hc (fun c' hquiet => hquiet.1 ▸ hc) (fun _ h => h.settled)
    (fun _ _ _ _ _ => trivial) (fun _ _ _ hcreated h => h.settled hcreated)
    (fun _ _ => loadPath_settled hc) ?_ (fun _ _ _ => resize_settled hc)
  intro type c₀ c' _ hcreated hbooted
  refine loadPath_settled ((hbooted.settled hcreated).of_same ⟨rfl, rfl, rfl, rfl, rfl, rfl⟩ ?_)
  exact hbooted.same.coreLoaded

/-- Unloading leaves no core. -/
theorem unloadCore_vacant (htables : Provides env tables) {w : World κ β}
    (hw : Settled w.control.view) :
    Vacant ((call env .unloadCore).run w).2.control.view := by
  have hunload :
    Always (Op.Step tables) Op.Calm (fun _ c' => Vacant c'.view) (Script.call .unloadCore)
      w.control :=
    (unloadCore_rule (P := fun _ c' => Vacant c'.view) (fun _ _ h => h.calm)
      (fun hunloaded _ => hw.vacant hunloaded) fun _ h => h).bind fun _ _ h => h
  have hpost := hunload.runIn (f := World.control) (exec_step env htables)
  rwa [runIn_call] at hpost

/-- What the scripts of the covered calls keep holds in every state of a run, and each call they
make satisfies the guard. -/
theorem host_run (htables : Provides env tables)
    (hcall : ∀ a c, Settled c.view → I c → C c a →
      Always (Op.Step tables) guard (fun _ c' => I c') (Script.call a) c)
    {w w' : World κ β} {as : List ApiCall} (hsettled : Settled w.control.view)
    (hstart : I w.control)
    (hrun : Machine.Run (host env) (fun w a => C w.control a) w as w') :
    Machine.Run (host env) (fun w a => ∀ i v, MakesCall env w a i v → guard i v.control) w as w' ∧
      Settled w'.control.view ∧ I w'.control := by
  -- The script of a call is run against the environment, which answers as `Op.Step` allows.
  have hinv : ∀ w a, Settled w.control.view ∧ I w.control → C w.control a →
      Settled ((call env a).run w).2.control.view ∧ I ((call env a).run w).2.control := by
    rintro w a ⟨hsettled, hI⟩ hcovered
    have hpost := ((call_settled a hsettled).and (hcall a w.control hsettled hI hcovered)).runIn
      (f := World.control) (exec_step env htables)
    rwa [runIn_call] at hpost
  have hstep : ∀ w a w', Settled w.control.view ∧ I w.control → C w.control a →
      (host env).step w a = some w' → Settled w'.control.view ∧ I w'.control := by
    rintro w a _ hw hcovered ⟨⟩
    exact hinv w a hw hcovered
  refine ⟨hrun.strengthen ⟨hsettled, hstart⟩ hstep ?_, hrun.invariant ⟨hsettled, hstart⟩ hstep⟩
  rintro w a _ ⟨hsettled, hI⟩ hcovered ⟨⟩ i v hmakes
  exact (hcall a w.control hsettled hI hcovered).makes (exec_step env htables) hmakes

end Runtime

end RetroPark
