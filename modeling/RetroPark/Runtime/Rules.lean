import RetroPark.Runtime.Control

/-!
# Rules for the scripts

What each script of `Runtime.Script` may do, whatever the core and the device answer. A rule asks
for the guard at the calls that need one (`start`, `load_content`, and a release of the module while
an instance lives) and for the postcondition in the states the script can return in. `host_run`
takes a statement about the scripts to runs of a host program.
-/

namespace RetroPark

namespace Runtime

open Program

/-- No core is loaded. -/
structure Vacant (v : View) : Prop where
  coreLoaded : v.coreLoaded = false
  unloaded : v.loader.state = .unloaded
  contentLoaded : v.contentLoaded = false
  module : v.module = false

/-- Between two calls either no core is loaded, or an instance exists. -/
structure Settled (v : View) : Prop where
  vacant : v.coreLoaded = false → Vacant v
  hasInstance : v.coreLoaded = true → v.loader.hasInstance = true
  requires : v.coreLoaded = true → v.requiresContent = v.loader.hasLoadContent

/-- A runtime without a core has none loaded. -/
theorem Vacant.not_loaded {v : View} (h : Vacant v) : v.coreLoaded ≠ true :=
  h.coreLoaded ▸ Bool.false_ne_true

/-- A runtime without a core is settled. -/
theorem Vacant.settled {v : View} (h : Vacant v) : Settled v :=
  { vacant := fun _ => h
    hasInstance := fun hloaded => (h.not_loaded hloaded).elim
    requires := fun hloaded => (h.not_loaded hloaded).elim }

/-- A runtime without a core has no instance. -/
theorem Vacant.noInstance {v : View} (h : Vacant v) : v.loader.hasInstance = false := by
  simp [CoreLoader.hasInstance, h.unloaded]

/-- A runtime without a core has let go of its module. -/
theorem Vacant.released {v : View} (h : Vacant v) : Vacant { v with module := false } :=
  ⟨h.coreLoaded, h.unloaded, h.contentLoaded, rfl⟩

/-- The module is not released while an instance lives, and a call that manages the core's life has
its script. -/
def Op.Calm : Op → Control → Prop
  | .resetModule, c => c.view.loader.hasInstance = false
  | .quiet a, _ => a.isQuiet = true
  | _, _ => True

/-- Any call but those that start a core or give it content. -/
def Op.Harmless : Op → Control → Prop
  | .start, _ | .loadContent _, _ => False
  | i, c => i.Calm c

/-- A harmless call is calm. -/
theorem Op.Harmless.calm {i : Op} {c : Control} (h : i.Harmless c) : i.Calm c := by
  cases i <;> first | exact h | exact h.elim

/-- What stopping a started core leaves. -/
inductive Stopped (c : Control) : Control → Prop
  | idle (hidle : c.view.loader.state ≠ .started) : Stopped c c
  | asked {r : RpResult} (hstarted : c.view.loader.state = .started)
      (htable : c.view.loader.table.stop = true) :
      Stopped c ((c.withLoader { c.view.loader with state := .created }).push
        (.abi (.stop c.view.loader.core r)))
  /-- A core without `stop` counts as stopped. -/
  | silent (hstarted : c.view.loader.state = .started) (htable : c.view.loader.table.stop ≠ true) :
      Stopped c (c.withLoader { c.view.loader with state := .created })

/-- What `rebuild_surfaces` answers and leaves once the core is not started. -/
inductive NewSurfaces (c : Control) : RpResult → Control → Prop
  /-- The backend fails. -/
  | refused {r : RpResult} (hr : r ≠ .ok) : NewSurfaces c r (c.push (.allocateSurfaces r))
  /-- A presenting core takes the surfaces or fails. -/
  | handed {r : RpResult} (hpresenting : c.view.coreType = .presenting)
      (hcreated : c.view.loader.state = .created)
      (htable : c.view.loader.table.setSurfaces = true) :
      NewSurfaces c r
        ((c.push (.allocateSurfaces .ok)).push (.abi (.setSurfaces c.view.loader.core r)))
  /-- A presenting core without `set_surfaces`. -/
  | missing {r : RpResult} (hpresenting : c.view.coreType = .presenting)
      (hcreated : c.view.loader.state = .created) (htable : c.view.loader.table.setSurfaces ≠ true)
      (hr : r ≠ .ok) : NewSurfaces c r (c.push (.allocateSurfaces .ok))
  /-- Any other core is not asked. -/
  | kept (hother : ¬(c.view.coreType = .presenting ∧ c.view.loader.state = .created)) :
      NewSurfaces c .ok (c.push (.allocateSurfaces .ok))

/-- A stop leaves a started core created, and changes nothing else of the view. -/
theorem Stopped.view {c c' : Control} (h : Stopped c c') : c'.view =
    if c.view.loader.state = .started then
      { c.view with loader := { c.view.loader with state := .created } }
    else c.view := by
  cases h with
  | idle hidle => rw [if_neg hidle]
  | asked hstarted _ => rw [if_pos hstarted]; rfl
  | silent hstarted _ => rw [if_pos hstarted]; rfl

/-- A core that is not started is not stopped. -/
theorem Stopped.eq_self {c c' : Control} (h : Stopped c c')
    (hidle : c.view.loader.state ≠ .started) :
    c' = c := by
  cases h with
  | idle _ => rfl
  | asked hstarted _ => exact (hidle hstarted).elim
  | silent hstarted _ => exact (hidle hstarted).elim

/-- New surfaces leave the view alone. -/
theorem NewSurfaces.view {c c' : Control} {r : RpResult} (h : NewSurfaces c r c') :
    c'.view = c.view := by
  cases h <;> rfl

/-- After `module_.reset` no module is held. -/
theorem resetModule_view {tables : CoreAbi → Prop} {c c' : Control} {r : Unit}
    (h : Op.Step tables .resetModule c r c') : c'.view = { c.view with module := false } := by
  simp only [Op.Step] at h
  split_ifs at h with hmodule
  · rw [h]
  · rw [h, ← Bool.not_eq_true .. |>.mp hmodule]

/-- What an update of the runtime's fields leaves. -/
def edited (e : Edit) (c : Control) : Control := { c with view := e.effect c.view }

/-- An edit has its effect on the view. -/
@[simp]
theorem edited_view (e : Edit) (c : Control) : (edited e c).view = e.effect c.view := rfl

/-- An edit makes no calls. -/
@[simp]
theorem edited_calls (e : Edit) (c : Control) : (edited e c).calls = c.calls := rfl

/-- What a question for the geometry and the sample rate leaves. -/
inductive Asked (c : Control) : Control → Prop
  | asked : Asked c (c.push (.abi (.getAvInfo c.view.loader.core)))
  | missing : Asked c c

/-- What `CoreLoader::start` answers and leaves. -/
inductive Launched (c : Control) : RpResult → Control → Prop
  | started (hcreated : c.view.loader.state = .created)
      (htable : c.view.loader.table.start = true) :
      Launched c .ok
        ((c.withLoader { c.view.loader with state := .started }).push
          (.abi (.start c.view.loader.core .ok)))
  | failed {r : RpResult} (hr : r ≠ .ok) (hcreated : c.view.loader.state = .created)
      (htable : c.view.loader.table.start = true) :
      Launched c r (c.push (.abi (.start c.view.loader.core r)))
  | missing {r : RpResult} (hr : r ≠ .ok) : Launched c r c

/-- What a successful `finish_load_core` leaves. -/
inductive Booted (type : CoreType) (c : Control) : Control → Prop
  /-- A driven core waits for its content. -/
  | content (hdriven : type = .driven) (hrequires : c.view.loader.hasLoadContent = true) :
      Booted type c (edited (.enter type) c)
  /-- A driven core without content is ready. -/
  | driven {c₁ : Control} (hdriven : type = .driven)
      (hrequires : c.view.loader.hasLoadContent = false)
      (hasked : Asked (edited (.enter type) c) c₁) : Booted type c c₁
  /-- Any other core waits for its content with its surfaces. -/
  | waiting {c₁ : Control} (hother : type ≠ .driven)
      (hnew : NewSurfaces (edited (.enter type) c) .ok c₁)
      (hrequires : c.view.loader.hasLoadContent = true) : Booted type c c₁
  /-- Any other core without content is started. -/
  | started {c₁ c₂ : Control} (hother : type ≠ .driven)
      (hnew : NewSurfaces (edited (.enter type) c) .ok c₁)
      (hrequires : c.view.loader.hasLoadContent = false) (hlaunched : Launched c₁ .ok c₂) :
      Booted type c c₂

/-- What a core's `load_content` leaves when it takes the content. -/
def given (path : String) (c : Control) : Control :=
  (edited (.contentPath path) c).push (.abi (.loadContent c.view.loader.core .ok))

/-- What `load_content` answers and leaves when a core is loaded. -/
inductive ContentLoad (path : String) (c : Control) : RpResult → Control → Prop
  /-- The core takes no content. -/
  | unasked {r : RpResult} (hr : r ≠ .ok) : ContentLoad path c r (edited (.contentPath path) c)
  /-- The core fails to load it. -/
  | refused {r : RpResult} (hr : r ≠ .ok) :
      ContentLoad path c r
        ((edited (.contentPath path) c).push (.abi (.loadContent c.view.loader.core r)))
  /-- A driven core has no usable geometry. -/
  | unusable {r : RpResult} {c' : Control} (hdriven : c.view.coreType = .driven) (hr : r ≠ .ok)
      (hasked : Asked (given path c) c') : ContentLoad path c r c'
  /-- A presenting core fails to start. -/
  | stuck {r : RpResult} {c' : Control} (hpresenting : c.view.coreType = .presenting) (hr : r ≠ .ok)
      (hidle : c.view.loader.state ≠ .started)
      (hlaunched : Launched (edited (.contentLoaded true) (given path c)) r c') :
      ContentLoad path c r c'
  /-- A presenting core is started. -/
  | launched {c₁ c' : Control} (hpresenting : c.view.coreType = .presenting)
      (hidle : c.view.loader.state ≠ .started)
      (hlaunched : Launched (edited (.contentLoaded true) (given path c)) .ok c₁)
      (hasked : Asked c₁ c') : ContentLoad path c .ok c'
  /-- A presenting core was started before. -/
  | running {c' : Control} (hpresenting : c.view.coreType = .presenting)
      (hstarted : c.view.loader.state = .started)
      (hasked : Asked (edited (.contentLoaded true) (given path c)) c') : ContentLoad path c .ok c'
  /-- A driven core is ready. -/
  | driven {c₁ : Control} (hdriven : c.view.coreType = .driven) (hasked : Asked (given path c) c₁) :
      ContentLoad path c .ok (edited (.contentLoaded true) c₁)

section Rules

variable {tables : CoreAbi → Prop} {guard : Op → Control → Prop} {P : RpResult → Control → Prop}

/-! ### Calls of the loader -/

/-- A step that asks for the geometry. -/
theorem Asked.of_step {c c' : Control} {r : RpResult × AvInfo}
    (h : Op.Step tables .getAvInfo c r c') :
    Asked c c' := by
  by_cases hcan : c.view.loader.hasInstance = true ∧ c.view.loader.table.getAvInfo = true
  · obtain ⟨-, rfl⟩ := (if_pos hcan).mp h
    exact .asked
  · obtain ⟨-, rfl⟩ := (if_neg hcan).mp h
    exact .missing

/-- Asking for the geometry leaves the view alone. -/
theorem Asked.view {c c' : Control} (h : Asked c c') : c'.view = c.view := by
  cases h <;> rfl

/-- A step that starts the core. -/
theorem Launched.of_step {c c' : Control} {r : RpResult} (h : Op.Step tables .start c r c') :
    Launched c r c' := by
  by_cases hcan : c.view.loader.state = .created ∧ c.view.loader.table.start = true
  · obtain rfl := (if_pos hcan).mp h
    split_ifs with hr
    · exact hr ▸ .started hcan.1 hcan.2
    · exact .failed hr hcan.1 hcan.2
  · obtain ⟨hr, rfl⟩ := (if_neg hcan).mp h
    exact .missing hr

/-- A start loads and unloads no core. -/
theorem Launched.coreLoaded {c c' : Control} {r : RpResult} (h : Launched c r c') :
    c'.view.coreLoaded = c.view.coreLoaded := by
  cases h <;> rfl

/-- A start leaves the content mark alone. -/
theorem Launched.contentLoaded {c c' : Control} {r : RpResult} (h : Launched c r c') :
    c'.view.contentLoaded = c.view.contentLoaded := by
  cases h <;> rfl

/-- A core that has just been made ready has no content. -/
theorem Booted.contentLoaded {type : CoreType} {c c' : Control} (h : Booted type c c') :
    c'.view.contentLoaded = false := by
  cases h with
  | content => rfl
  | driven _ _ hasked => exact congrArg View.contentLoaded hasked.view
  | waiting _ hnew _ => exact congrArg View.contentLoaded hnew.view
  | started _ hnew _ hlaunched =>
      exact hlaunched.contentLoaded.trans (congrArg View.contentLoaded hnew.view)

/-! ### The scripts -/

/-- The rule of the second half of `rebuild_surfaces`. -/
theorem newSurfaces_rule (hfree : ∀ i c, i.Harmless c → guard i c) {c : Control}
    (h : ∀ r c', NewSurfaces c r c' → P r c') :
    Always (Op.Step tables) guard P Script.newSurfaces c := by
  refine .call (hfree _ _ trivial) ?_
  rintro ⟨r, descs⟩ _ rfl
  rw [always_ite]
  refine ⟨fun hr => h _ _ (.refused hr), fun hr => ?_⟩
  obtain rfl : r = .ok := not_not.mp hr
  refine .call (hfree _ _ trivial) ?_
  rintro _ _ rfl
  refine ⟨hfree _ _ trivial, fun r c' hstep => h r c' ?_⟩
  by_cases hpresenting : c.view.coreType = .presenting ∧ c.view.loader.state = .created
  · replace hstep := (if_pos hpresenting).mp hstep
    by_cases htable : c.view.loader.table.setSurfaces = true
    · exact (if_pos htable).mp hstep ▸ .handed hpresenting.1 hpresenting.2 htable
    · obtain ⟨hr, rfl⟩ := (if_neg htable).mp hstep
      exact .missing hpresenting.1 hpresenting.2 htable hr
  · obtain ⟨rfl, rfl⟩ := (if_neg hpresenting).mp hstep
    exact .kept hpresenting

/-- The rule of `rebuild_surfaces`: the core is stopped, and then has new surfaces. -/
theorem rebuildSurfaces_rule (hfree : ∀ i c, i.Harmless c → guard i c) {c : Control}
    (h : ∀ d r c', Stopped c d → NewSurfaces d r c' → P r c') :
    Always (Op.Step tables) guard P Script.rebuildSurfaces c := by
  refine .call (hfree _ _ trivial) ?_
  rintro _ _ ⟨rfl, rfl⟩
  rw [always_ite]
  refine ⟨fun hstarted => ?_, fun hstarted => ?_⟩
  · refine .call (hfree _ _ trivial) fun _ d hstep => newSurfaces_rule hfree fun r c' => h d r c' ?_
    simp only [Op.Step, if_pos hstarted] at hstep
    split_ifs at hstep with htable
    · exact hstep ▸ .asked hstarted htable
    · exact hstep ▸ .silent hstarted htable
  · exact newSurfaces_rule hfree fun r c' => h _ r c' (.idle hstarted)

/-- The rule of `unload_core`: it leaves no core. -/
theorem unloadCore_rule (hfree : ∀ i c, i.Harmless c → guard i c) {c : Control}
    (hc : c.view.coreLoaded = false → c.view.loader.state = .unloaded → Vacant c.view)
    (h : ∀ c', Vacant c'.view → P .ok c') :
    Always (Op.Step tables) guard P Script.unloadCore c := by
  refine .call (hfree _ _ trivial) ?_
  rintro _ _ rfl
  refine .call (hfree _ _ trivial) ?_
  rintro _ _ ⟨rfl, rfl⟩
  rw [always_ite]
  refine ⟨fun hvacant => h _ (hc hvacant.1 hvacant.2), fun _ => ?_⟩
  refine .call (hfree _ _ trivial) ?_
  rintro _ _ ⟨_, rfl⟩
  refine .call (hfree _ _ rfl) fun _ d hreset => ?_
  refine .call (hfree _ _ trivial) ?_
  rintro _ _ rfl
  refine .call (hfree _ _ trivial) ?_
  rintro _ _ rfl
  refine h _ ⟨rfl, ?_, rfl, ?_⟩
  · exact congrArg (fun v => v.loader.state) (resetModule_view hreset)
  · exact congrArg View.module (resetModule_view hreset)

/-- The rule of unloading with a result. -/
theorem unloadWith_rule (hfree : ∀ i c, i.Harmless c → guard i c) {r : RpResult} {c : Control}
    (hc : c.view.coreLoaded = true) (h : ∀ c', Vacant c'.view → P r c') :
    Always (Op.Step tables) guard P (Script.unloadWith r) c := by
  refine (unloadCore_rule hfree (P := fun _ c' => P r c') ?_ h).bind fun _ c' hpost => hpost
  exact fun hunloaded => nomatch hc.symm.trans hunloaded

/-- The rule of giving up a load: it leaves no core. -/
theorem abandonLoad_rule (hfree : ∀ i c, i.Harmless c → guard i c) {r : RpResult} {c : Control}
    (hc : c.view.coreLoaded = false) (hcontent : c.view.contentLoaded = false)
    (h : ∀ c', Vacant c'.view → P r c') :
    Always (Op.Step tables) guard P (Script.abandonLoad r) c := by
  refine .call (hfree _ _ trivial) ?_
  rintro _ _ ⟨_, rfl⟩
  refine .call (hfree _ _ rfl) fun _ d hreset => ?_
  have hview := resetModule_view hreset
  exact h d
    ⟨by rw [hview]; exact hc, by rw [hview], by rw [hview]; exact hcontent, by rw [hview]⟩

/-- The rule of `finish_load_core`: it fails and leaves no core, or boots the created one. -/
theorem finishLoadCore_rule (hfree : ∀ i c, i.Harmless c → guard i c) {type : CoreType}
    {c : Control}
    (hcreated : c.view.loader.state = .created)
    (hstart : ∀ c₁, NewSurfaces (edited (.enter type) c) .ok c₁ → type ≠ .driven →
      c.view.loader.hasLoadContent = false → guard .start c₁)
    (hvacant : ∀ r c', r ≠ .ok → Vacant c'.view → P r c')
    (hbooted : ∀ c', Booted type c c' → P .ok c') :
    Always (Op.Step tables) guard P (Script.finishLoadCore type) c := by
  refine .call (hfree _ _ trivial) ?_
  rintro _ _ rfl
  rw [always_ite]
  refine ⟨fun hdriven => ?_, fun hother => ?_⟩
  · -- A driven core that needs content waits for it; one that does not is asked for its geometry.
    refine .call (hfree _ _ trivial) ?_
    rintro _ _ ⟨rfl, rfl⟩
    rw [always_ite]
    refine ⟨fun hrequires => hbooted _ (.content hdriven hrequires), fun hrequires => ?_⟩
    refine .call (hfree _ _ trivial) ?_
    rintro ⟨r, av⟩ d hstep
    have hasked : Asked (edited (.enter type) c) d := .of_step hstep
    have hloaded : d.view.coreLoaded = true := hasked.view ▸ rfl
    rw [always_ite, always_ite, always_ite]
    -- Three answers unload it again: a failure, an empty frame, an unknown pixel format.
    refine ⟨fun hr => unloadWith_rule hfree hloaded (hvacant _ · hr), fun hr =>
      ⟨fun _ => unloadWith_rule hfree hloaded (hvacant _ · nofun), fun _ =>
        ⟨fun _ => unloadWith_rule hfree hloaded (hvacant _ · nofun), fun _ => ?_⟩⟩⟩
    refine .call (hfree _ _ trivial) ?_
    rintro _ _ rfl
    refine .call (hfree _ _ trivial) ?_
    rintro _ _ rfl
    exact hbooted _ (.driven hdriven ((Bool.not_eq_true _).mp hrequires) hasked)
  · -- A presenting core is handed its surfaces first.
    refine (rebuildSurfaces_rule hfree
      (P := fun r c₁ => NewSurfaces (edited (.enter type) c) r c₁) ?_).bind ?_
    · intro d r c₁ hstopped hnew
      rwa [hstopped.eq_self (by simp [Edit.enter, hcreated])] at hnew
    · intro r c₁ hnew
      have hloaded : c₁.view.coreLoaded = true := hnew.view ▸ rfl
      rw [always_ite]
      refine ⟨fun hr => unloadWith_rule hfree hloaded (hvacant _ · hr), fun hr => ?_⟩
      obtain rfl : r = .ok := not_not.mp hr
      refine .call (hfree _ _ trivial) ?_
      rintro _ c₁ ⟨rfl, rfl⟩
      rw [always_ite, hnew.view]
      refine ⟨fun hrequires => hbooted _ (.waiting hother hnew hrequires), fun hrequires => ?_⟩
      replace hrequires : c.view.loader.hasLoadContent = false := (Bool.not_eq_true _).mp hrequires
      -- Without content to wait for it is started at once.
      refine .call (hstart _ hnew hother hrequires) fun r c₂ hstep => ?_
      have hlaunched : Launched c₁ r c₂ := .of_step hstep
      rw [always_ite]
      refine ⟨fun hr => unloadWith_rule hfree (hlaunched.coreLoaded.trans hloaded) (hvacant _ · hr),
        fun hr => ?_⟩
      obtain rfl : r = .ok := not_not.mp hr
      exact hbooted _ (.started hother hnew hrequires hlaunched)

/-- The table of a core is loaded from its module. -/
theorem loadTable_rule (hfree : ∀ i c, i.Harmless c → guard i c) {k : Script RpResult} {c : Control}
    (hc : Vacant c.view) (hvacant : ∀ r c', Vacant c'.view → P r c')
    (hk : ∀ c₁, c₁.view.coreLoaded = false → c₁.view.contentLoaded = false →
      Always (Op.Step tables) guard P k c₁) :
    Always (Op.Step tables) guard P
      (do
        Script.op .resetModule
        Script.op .holdModule
        let r ← Script.op (.load true)
        if r ≠ .ok then
          Script.op .resetModule
          return .abiMismatch
        k) c := by
  refine .call (hfree _ _ hc.noInstance) fun _ c₁ hreset => ?_
  have hc₁ : Vacant c₁.view := resetModule_view hreset ▸ hc.released
  refine .call (hfree _ _ trivial) ?_
  rintro _ _ rfl
  refine .call (hfree _ _ trivial) fun r c₂ hload => ?_
  rw [always_ite]
  refine ⟨fun hr => ?_, fun hr => ?_⟩
  · -- A load that fails leaves the loader as it was.
    obtain rfl := (if_neg hr).mp hload
    refine .call (hfree _ _ hc₁.noInstance) fun _ c₃ hreset => ?_
    exact hvacant _ c₃ (resetModule_view hreset ▸ hc₁.released)
  · obtain ⟨-, -, abi, -, rfl⟩ := (if_pos (not_not.mp hr)).mp hload
    exact hk _ hc₁.coreLoaded hc₁.contentLoaded

/-- An instance is created and made ready. -/
theorem createCore_rule (hfree : ∀ i c, i.Harmless c → guard i c) {type : CoreType} {e : Edit}
    {c : Control} (hc : c.view.coreLoaded = false) (hcontent : c.view.contentLoaded = false)
    (he : ∀ v, e.effect v = v) (hvacant : ∀ r c', Vacant c'.view → P r c')
    (hfinish : ∀ c₀, c₀.view.loader.state = .created →
      Always (Op.Step tables) guard P (Script.finishLoadCore type) c₀) :
    Always (Op.Step tables) guard P
      (do
        let r ← Script.op .create
        if r ≠ .ok then Script.abandonLoad .internal
        else
          let r ← Script.finishLoadCore type
          if r = .ok then Script.op (.edit e)
          return r) c := by
  refine .call (hfree _ _ trivial) fun r c₀ hcreate => ?_
  -- Whatever `create` answers, no core is loaded yet.
  have hview : c₀.view.coreLoaded = false ∧ c₀.view.contentLoaded = false ∧
      (r = .ok → c₀.view.loader.state = .created) := by
    by_cases hcan : c.view.loader.state = .loaded ∧ c.view.loader.table.create = true
    · obtain ⟨p, hp, rfl⟩ := (if_pos hcan).mp hcreate
      exact ⟨hc, hcontent, fun hok => if_neg (hp.mp hok)⟩
    · obtain ⟨hr, rfl⟩ := (if_neg hcan).mp hcreate
      exact ⟨hc, hcontent, fun hok => (hr hok).elim⟩
  rw [always_ite]
  refine ⟨fun _ => abandonLoad_rule hfree hview.1 hview.2.1 (hvacant _), fun hr => ?_⟩
  refine (hfinish c₀ (hview.2.2 (not_not.mp hr))).bind fun r c' hpost => ?_
  rw [always_ite]
  refine ⟨fun _ => .call (hfree _ _ trivial) ?_, fun _ => hpost⟩
  rintro _ _ rfl
  rwa [he]

/-- The rule of `load_core`, from that of its last part. -/
theorem loadCore_rule (hfree : ∀ i c, i.Harmless c → guard i c) (dir : String) {c : Control}
    (hc : Settled c.view) (hkept : c.view.initOk = false → P .device c)
    (hvacant : ∀ r c', Vacant c'.view → P r c')
    (hfinish : ∀ type c₀, c₀.view.loader.state = .created →
      Always (Op.Step tables) guard P (Script.finishLoadCore type) c₀) :
    Always (Op.Step tables) guard P (Script.loadCore dir) c := by
  refine .call (hfree _ _ trivial) ?_
  rintro _ c ⟨rfl, rfl⟩
  rw [always_ite]
  refine ⟨fun hnone => hkept ((Bool.not_eq_true' _).mp hnone), fun _ => ?_⟩
  -- The load itself, on a runtime whose previous core is gone.
  have hload : ∀ c', Vacant c'.view → Always (Op.Step tables) guard P
      (do Script.loadManifest dir (← Script.op (.readManifest dir))) c' := by
    intro c' hc'
    refine .call (hfree _ _ trivial) ?_
    rintro m _ rfl
    cases m with
    -- Without a manifest the load ends here, with the previous core unloaded.
    | missing => exact hvacant _ _ hc'
    | malformed => exact hvacant _ _ hc'
    | manifest type graphicsApi entry =>
      refine .call (hfree _ _ trivial) ?_
      rintro _ c' ⟨rfl, rfl⟩
      rw [always_ite]
      refine ⟨fun _ => hvacant _ c' hc', fun _ => ?_⟩
      refine .call (hfree _ _ trivial) ?_
      rintro opened _ rfl
      rw [always_ite]
      refine ⟨fun _ => hvacant _ _ hc', fun _ => ?_⟩
      exact loadTable_rule hfree hc' hvacant fun c₁ hloaded hcontent =>
        createCore_rule hfree hloaded hcontent (fun _ => rfl) hvacant (hfinish type)
  rw [always_ite]
  refine ⟨fun _ => ?_, fun hidle => hload c ?_⟩
  · refine (unloadCore_rule hfree (P := fun _ c' => Vacant c'.view) ?_ fun _ h => h).bind fun _ =>
      hload
    exact fun hunloaded _ => hc.vacant hunloaded
  · exact hc.vacant ((Bool.not_eq_true _).mp fun hloaded => hidle (.inl hloaded))

/-- The rule of `load_static_core`, from that of its last part. -/
theorem loadStaticCore_rule (hfree : ∀ i c, i.Harmless c → guard i c) (id : String) {c : Control}
    (hc : Settled c.view) (hkept : c.view.initOk = false → P .device c)
    (hvacant : ∀ r c', Vacant c'.view → P r c')
    (hfinish : ∀ type c₀, c₀.view.loader.state = .created →
      Always (Op.Step tables) guard P (Script.finishLoadCore type) c₀) :
    Always (Op.Step tables) guard P (Script.loadStaticCore id) c := by
  refine .call (hfree _ _ trivial) ?_
  rintro _ c ⟨rfl, rfl⟩
  rw [always_ite]
  refine ⟨fun hnone => hkept ((Bool.not_eq_true' _).mp hnone), fun _ => ?_⟩
  -- The load itself, on a runtime whose previous core is gone.
  have hload : ∀ c', Vacant c'.view →
      Always (Op.Step tables) guard P (Script.loadRegistered id) c' := by
    intro c' hc'
    refine .call (hfree _ _ trivial) ?_
    rintro registered _ rfl
    rw [always_ite]
    refine ⟨fun _ => hvacant _ _ hc', fun _ => ?_⟩
    refine loadTable_rule hfree hc' hvacant fun c₁ hloaded hcontent => ?_
    refine .call (hfree _ _ trivial) ?_
    rintro _ c₁ ⟨rfl, rfl⟩
    rw [always_ite]
    refine ⟨fun _ => abandonLoad_rule hfree hloaded hcontent (hvacant _), fun _ => ?_⟩
    refine .call (hfree _ _ trivial) ?_
    rintro info _ rfl
    refine .call (hfree _ _ trivial) ?_
    rintro _ c₁ ⟨rfl, rfl⟩
    rw [always_ite]
    exact ⟨fun _ => abandonLoad_rule hfree hloaded hcontent (hvacant _), fun _ =>
      createCore_rule hfree hloaded hcontent (fun _ => rfl) hvacant (hfinish _)⟩
  rw [always_ite]
  refine ⟨fun _ => ?_, fun hidle => hload c ?_⟩
  · refine (unloadCore_rule hfree (P := fun _ c' => Vacant c'.view) ?_ fun _ h => h).bind fun _ =>
      hload
    exact fun hunloaded _ => hc.vacant hunloaded
  · exact hc.vacant ((Bool.not_eq_true _).mp fun hloaded => hidle (.inl hloaded))

/-- What a core's `load_content` answers and leaves. -/
theorem loadContent_answer {path : String} {c c' : Control} {r : RpResult}
    (h : Op.Step tables (.loadContent path) (edited (.contentPath path) c) r c') :
    (r ≠ .ok ∧ (c' = edited (.contentPath path) c ∨
        c' = (edited (.contentPath path) c).push (.abi (.loadContent c.view.loader.core r)))) ∨
      (r = .ok ∧ c' = given path c) := by
  by_cases hcan : c.view.loader.hasInstance = true ∧ c.view.loader.table.loadContent = true
  · obtain rfl := (if_pos hcan).mp h
    by_cases hr : r = .ok
    · subst hr
      exact .inr ⟨rfl, rfl⟩
    · exact .inl ⟨hr, .inr rfl⟩
  · obtain ⟨hr, rfl⟩ := (if_neg hcan).mp h
    exact .inl ⟨hr, .inl rfl⟩

/-- The core is asked for its content; a refusal leaves it as it was. -/
theorem askContent_rule {path : String} {k : Script RpResult} {c : Control}
    (hload : guard (.loadContent path) (edited (.contentPath path) c))
    (hpost : ∀ r c', ContentLoad path c r c' → P r c')
    (hk : Always (Op.Step tables) guard P k (given path c)) :
    Always (Op.Step tables) guard P
      (do
        let r ← Script.op (.loadContent path)
        if r ≠ .ok then return r
        k) (edited (.contentPath path) c) := by
  refine .call hload fun r c₁ hstep => ?_
  rw [always_ite]
  rcases loadContent_answer hstep with ⟨hr, rfl | rfl⟩ | ⟨rfl, rfl⟩
  · exact ⟨fun _ => hpost _ _ (.unasked hr), fun hok => (hok hr).elim⟩
  · exact ⟨fun _ => hpost _ _ (.refused hr), fun hok => (hok hr).elim⟩
  · exact ⟨fun hr => (hr rfl).elim, fun _ => hk⟩

/-- The rule of `load_content`, from the guards of its two calls. -/
theorem loadPath_rule (hfree : ∀ i c, i.Harmless c → guard i c) (path : String) {c : Control}
    (hload : c.view.coreLoaded = true → guard (.loadContent path) (edited (.contentPath path) c))
    (hstart : c.view.coreLoaded = true → c.view.coreType = .presenting →
      c.view.requiresContent = true → c.view.loader.state ≠ .started →
        guard .start (edited (.contentLoaded true) (given path c)))
    (hunloaded : c.view.coreLoaded = false → P .internal c)
    (hpost : ∀ r c', c.view.coreLoaded = true → ContentLoad path c r c' → P r c') :
    Always (Op.Step tables) guard P (Script.loadPath path) c := by
  refine .call (hfree _ _ trivial) ?_
  rintro _ c ⟨rfl, rfl⟩
  rw [always_ite]
  refine ⟨fun hnone => hunloaded ((Bool.not_eq_true' _).mp hnone), fun hloaded => ?_⟩
  replace hloaded : c.view.coreLoaded = true := (Bool.not_not_eq ..).mp hloaded
  replace hpost := fun r c' => hpost r c' hloaded
  refine .call (hfree _ _ trivial) ?_
  rintro _ _ rfl
  refine .call (hfree _ _ trivial) ?_
  rintro _ _ ⟨rfl, rfl⟩
  rw [always_ite]
  refine ⟨fun hpresenting => ?_, fun hother => ?_⟩
  · refine .call (hfree _ _ trivial) ?_
    rintro _ _ ⟨rfl, rfl⟩
    rw [always_ite]
    refine ⟨fun _ => hpost _ _ (.unasked nofun), fun hrequires => ?_⟩
    replace hrequires : c.view.requiresContent = true := (Bool.not_not_eq ..).mp hrequires
    refine askContent_rule (hload hloaded) hpost ?_
    refine .call (hfree _ _ trivial) ?_
    rintro _ _ rfl
    refine .call (hfree _ _ trivial) ?_
    rintro _ _ ⟨rfl, rfl⟩
    -- Both ways on, started now or before, open the audio at the end.
    have haudio : ∀ c₁, (∀ c', Asked c₁ c' → P .ok c') →
        Always (Op.Step tables) guard P Script.contentAudio c₁ := by
      intro c₁ hc₁
      refine .call (hfree _ _ trivial) ?_
      rintro ⟨r, av⟩ c₂ hstep
      rw [always_ite]
      refine ⟨fun _ => .call (hfree _ _ trivial) ?_, fun _ => hc₁ _ (.of_step hstep)⟩
      rintro _ _ rfl
      exact hc₁ _ (.of_step hstep)
    rw [always_ite]
    refine ⟨fun hidle => ?_, fun hstarted => haudio _ fun c' hasked => ?_⟩
    · -- The core has waited for its content.
      refine .call (hstart hloaded hpresenting hrequires hidle) fun r c₂ hstep => ?_
      have hlaunched : Launched _ r c₂ := .of_step hstep
      rw [always_ite]
      refine ⟨fun hr => hpost _ _ (.stuck hpresenting hr hidle hlaunched), fun hr => ?_⟩
      obtain rfl : r = .ok := not_not.mp hr
      exact haudio _ fun c' hasked => hpost _ _ (.launched hpresenting hidle hlaunched hasked)
    · exact hpost _ _ (.running hpresenting (not_not.mp hstarted) hasked)
  · refine .call (hfree _ _ trivial) ?_
    rintro _ _ ⟨rfl, rfl⟩
    rw [always_ite]
    refine ⟨fun _ => hpost _ _ (.unasked nofun), fun hdriven => ?_⟩
    replace hdriven : c.view.coreType = .driven := not_not.mp hdriven
    refine askContent_rule (hload hloaded) hpost ?_
    refine .call (hfree _ _ trivial) ?_
    rintro ⟨r, av⟩ c₂ hstep
    have hasked : Asked (given path c) c₂ := .of_step hstep
    rw [always_ite, always_ite, always_ite]
    -- Content whose geometry cannot be used does not count as loaded, but the core has it.
    refine ⟨fun _ => hpost _ _ (.unusable hdriven nofun hasked), fun _ =>
      ⟨fun _ => hpost _ _ (.unusable hdriven nofun hasked), fun _ =>
        ⟨fun _ => hpost _ _ (.unusable hdriven nofun hasked), fun _ => ?_⟩⟩⟩
    refine .call (hfree _ _ trivial) ?_
    rintro _ _ rfl
    refine .call (hfree _ _ trivial) ?_
    rintro _ _ rfl
    refine .call (hfree _ _ trivial) ?_
    rintro _ _ rfl
    exact hpost _ _ (.driven hdriven hasked)

/-- The module of a loaded core is loaded again and a new instance created. -/
theorem reinstance_rule (hfree : ∀ i c, i.Harmless c → guard i c) {module : Bool}
    {k : Script RpResult}
    {c : Control} (hloaded : c.view.coreLoaded = true)
    (hvacant : ∀ c', Vacant c'.view → P .internal c')
    (hk : ∀ c₀, c₀.view.loader.state = .created → Always (Op.Step tables) guard P k c₀) :
    Always (Op.Step tables) guard P
      (do
        let r ← Script.op (.load module)
        if r ≠ .ok then Script.unloadWith .internal
        else
          let r ← Script.op .create
          if r ≠ .ok then Script.unloadWith .internal
          else k) c := by
  refine .call (hfree _ _ trivial) fun r c₁ hload => ?_
  -- Neither call changes whether a core is loaded.
  have hc₁ : c₁.view.coreLoaded = true := by
    by_cases hr : r = .ok
    · obtain ⟨-, -, abi, -, rfl⟩ := (if_pos hr).mp hload
      exact hloaded
    · obtain rfl := (if_neg hr).mp hload
      exact hloaded
  rw [always_ite]
  refine ⟨fun _ => unloadWith_rule hfree hc₁ hvacant, fun _ => ?_⟩
  refine .call (hfree _ _ trivial) fun r c₂ hcreate => ?_
  have hc₂ : c₂.view.coreLoaded = true ∧ (r = .ok → c₂.view.loader.state = .created) := by
    by_cases hcan : c₁.view.loader.state = .loaded ∧ c₁.view.loader.table.create = true
    · obtain ⟨p, hp, rfl⟩ := (if_pos hcan).mp hcreate
      exact ⟨hc₁, fun hok => if_neg (hp.mp hok)⟩
    · obtain ⟨hr, rfl⟩ := (if_neg hcan).mp hcreate
      exact ⟨hc₁, fun hok => (hr hok).elim⟩
  rw [always_ite]
  refine ⟨fun _ => unloadWith_rule hfree hc₂.1 hvacant, fun hr => ?_⟩
  exact hk c₂ (hc₂.2 (not_not.mp hr))

/-- A core is rebooted: after its new instance is ready its content is loaded again. -/
theorem reset_rule (hfree : ∀ i c, i.Harmless c → guard i c) {c : Control} (hc : Settled c.view)
    (hkept : P .ok c) (hvacant : ∀ r c', Vacant c'.view → P r c')
    (hfinish : ∀ c₀, c₀.view.loader.state = .created →
      Always (Op.Step tables) guard
        (fun r c' =>
          (r ≠ .ok → P r c') ∧
          (r = .ok → c.view.contentLoaded ≠ true → P r c') ∧
          (r = .ok → c.view.contentLoaded = true →
            Always (Op.Step tables) guard P (Script.loadPath c.view.contentPath)
              (edited (.contentPath c.view.contentPath) c')))
        (Script.finishLoadCore c.view.coreType) c₀) :
    Always (Op.Step tables) guard P Script.reset c := by
  refine .call (hfree _ _ trivial) ?_
  rintro _ c ⟨rfl, rfl⟩
  rw [always_ite]
  refine ⟨fun hunloaded => .call (hfree _ _ trivial) ?_, fun hloaded => ?_⟩
  · rintro _ _ rfl
    exact hkept
  replace hloaded : c.view.coreLoaded = true := (Bool.not_not_eq ..).mp hloaded
  refine .call (hfree _ _ trivial) ?_
  rintro _ _ rfl
  refine .call (hfree _ _ trivial) ?_
  rintro _ _ ⟨rfl, rfl⟩
  refine .call (hfree _ _ trivial) ?_
  rintro _ _ rfl
  refine .call (hfree _ _ trivial) ?_
  rintro _ _ ⟨_, rfl⟩
  -- The old instance is gone and its module released.
  refine reinstance_rule hfree hloaded (hvacant _) fun c₀ hcreated => ?_
  refine (hfinish c₀ hcreated).bind fun r c' hpost => ?_
  rw [always_ite, always_ite]
  -- The content is loaded again only if some was loaded before.
  refine ⟨hpost.1, fun hok => ?_⟩
  obtain rfl : r = .ok := not_not.mp hok
  refine ⟨fun hcontent => .call (hfree _ _ trivial) ?_, fun hnone => hpost.2.1 rfl hnone⟩
  rintro _ _ rfl
  exact hpost.2.2 rfl hcontent

/-- A presenting core is started on its new surfaces. -/
theorem resize_rule (hfree : ∀ i c, i.Harmless c → guard i c) (width height : UInt32) {c : Control}
    (hkept : ∀ r, P r c)
    (hbackend : ∀ r initOk, c.view.coreLoaded = false →
      P r { c with view := { c.view with initOk } })
    (hrebuilt : ∀ d r c', c.view.coreLoaded = true → Stopped c d → NewSurfaces d r c' →
      (r ≠ .ok ∨ ¬(d.view.coreType = .presenting ∧ d.view.loader.state = .created) → P r c') ∧
      (r = .ok → d.view.coreType = .presenting → d.view.loader.state = .created →
        guard .start c' ∧ ∀ r c'', Launched c' r c'' → P r c'')) :
    Always (Op.Step tables) guard P (Script.resize width height) c := by
  refine .call (hfree _ _ trivial) ?_
  rintro _ c ⟨rfl, rfl⟩
  rw [always_ite]
  refine ⟨fun _ => hkept _, fun _ => ?_⟩
  refine .call (hfree _ _ trivial) ?_
  rintro _ _ rfl
  refine .call (hfree _ _ trivial) ?_
  rintro _ c ⟨rfl, rfl⟩
  rw [always_ite]
  refine ⟨fun hunloaded => ⟨hfree _ _ trivial, ?_⟩, fun hloaded => ?_⟩
  · -- Without a core only the backend is made again.
    rintro r _ rfl
    exact hbackend r _ ((Bool.not_eq_true' _).mp hunloaded)
  replace hloaded : c.view.coreLoaded = true := (Bool.not_not_eq ..).mp hloaded
  refine .call (hfree _ _ trivial) ?_
  rintro _ c ⟨rfl, rfl⟩
  rw [always_ite]
  refine ⟨fun _ => hkept _, fun _ => ?_⟩
  refine (rebuildSurfaces_rule hfree (P := fun r c' => ∃ d, Stopped c d ∧ NewSurfaces d r c')
    fun d r c' hstopped hnew => ⟨d, hstopped, hnew⟩).bind ?_
  rintro r c' ⟨d, hstopped, hnew⟩
  have hrebuilt := hrebuilt d r c' hloaded hstopped hnew
  rw [always_ite]
  refine ⟨fun hr => hrebuilt.1 (.inl hr), fun hr => ?_⟩
  obtain rfl : r = .ok := not_not.mp hr
  refine .call (hfree _ _ trivial) ?_
  rintro _ c' ⟨rfl, rfl⟩
  rw [always_ite, hnew.view]
  refine ⟨fun hstart => ?_, fun hother => hrebuilt.1 (.inr hother)⟩
  obtain ⟨hguard, hpost⟩ := hrebuilt.2 rfl hstart.1 hstart.2
  exact ⟨hguard, fun r c'' hstep => hpost r c'' (.of_step hstep)⟩

/-- A call of a public method: what the methods that manage the core's life may do, and nothing
else. -/
theorem call_rule {P : Control → Prop} (hfree : ∀ i c, i.Harmless c → guard i c) {a : ApiCall}
    {c : Control} (hc : Settled c.view) (hquiet : ∀ c', Control.Quiet c c' → P c')
    (hvacant : ∀ c', Vacant c'.view → P c')
    (hstart : ∀ type c₀ c₁, NewSurfaces (edited (.enter type) c₀) .ok c₁ →
      c₀.view.loader.hasLoadContent = false → guard .start c₁)
    (hbooted : ∀ type c₀ c', c₀.view.loader.state = .created → Booted type c₀ c' → P c')
    (hload : ∀ path, a = .loadContent path →
      Always (Op.Step tables) guard (fun _ => P) (Script.loadPath (path.getD "")) c)
    (hreload : ∀ type c₀ c', a = .reset → c₀.view.loader.state = .created → Booted type c₀ c' →
      Always (Op.Step tables) guard (fun _ => P) (Script.loadPath c.view.contentPath)
        (edited (.contentPath c.view.contentPath) c'))
    (hresize : ∀ width height, a = .resize width height →
      Always (Op.Step tables) guard (fun _ => P) (Script.resize width height) c) :
    Always (Op.Step tables) guard (fun _ => P) (Script.call a) c := by
  have hkept : P c := hquiet c (.refl c)
  -- The three ways to load end alike.
  have hfinish : ∀ type c₀, c₀.view.loader.state = .created →
      Always (Op.Step tables) guard (fun _ => P) (Script.finishLoadCore type) c₀ :=
    fun type c₀ hcreated => finishLoadCore_rule hfree hcreated
      (fun c₁ hnew _ hrequires => hstart type c₀ c₁ hnew hrequires) (fun _ c' _ => hvacant c')
      (hbooted type c₀ · hcreated)
  cases a with
  | loadCore dir =>
    exact (loadCore_rule hfree dir hc (fun _ => hkept) (fun _ => hvacant) hfinish).bind fun _ _ h =>
      h
  | loadStaticCore id =>
    exact (loadStaticCore_rule hfree id hc (fun _ => hkept) (fun _ => hvacant) hfinish).bind
      fun _ _ h => h
  | unloadCore =>
    exact (unloadCore_rule hfree (P := fun _ => P) (fun hunloaded _ => hc.vacant hunloaded)
      hvacant).bind fun _ _ h => h
  | loadContent path => exact (hload path rfl).bind fun _ _ h => h
  | resize width height => exact (hresize width height rfl).bind fun _ _ h => h
  | reset =>
    refine (reset_rule hfree (P := fun _ => P) hc hkept (fun _ => hvacant) ?_).bind fun _ _ h => h
    intro c₀ hcreated
    refine finishLoadCore_rule hfree hcreated (fun c₁ hnew _ => hstart _ c₀ c₁ hnew) ?_ ?_
    · intro r c' hr hc'
      exact ⟨fun _ => hvacant c' hc', fun hok => (hr hok).elim, fun hok => (hr hok).elim⟩
    · intro c' hc'
      have hc'' := hbooted _ c₀ c' hcreated hc'
      exact ⟨fun _ => hc'', fun _ _ => hc'', fun _ _ => hreload _ c₀ c' rfl hcreated hc'⟩
  -- The other methods leave the life of the core alone.
  | _ => exact ⟨hfree _ _ rfl, fun _ c' hstep => hquiet c' (hstep rfl)⟩

end Rules

end Runtime

end RetroPark
