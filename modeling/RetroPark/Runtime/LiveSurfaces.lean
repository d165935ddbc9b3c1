import RetroPark.Runtime.Settled
import RetroPark.Cores.DiscCore

/-!
# Cores are started on live surfaces

A presenting core is handed the surfaces the backend has allocated and is started on them. A resize
that fails leaves it stopped, with surfaces that no longer exist, and `load_content` starts a
stopped core whatever became of its surfaces. `starts_live` shows that nothing else goes wrong: in
every run in which no content is given to a core after such a failure, a presenting core is started
only when it has accepted the surfaces of the newest allocation.
-/

namespace RetroPark

namespace Runtime

open Program

/-- Whether the newest allocation succeeded. -/
def lastAllocateOk : List Event → Bool
  | [] => false
  | .allocateSurfaces r :: _ => r = .ok
  | _ :: es => lastAllocateOk es

/-- Whether the newest allocation succeeded and the instance has accepted its surfaces. An instance
is handed surfaces between its creation and the next one. -/
def surfacesAccepted (core : CorePtr) : List Event → Bool
  | [] | .allocateSurfaces _ :: _ | .abi (.create _) :: _ => false
  | .abi (.setSurfaces c r) :: es =>
      (c = core && r = .ok && lastAllocateOk es) || surfacesAccepted core es
  | _ :: es => surfacesAccepted core es

/-- Whether the newest allocation, or hand-over of surfaces after it, failed. -/
def surfacesFailed : List Event → Bool
  | [] => false
  | .allocateSurfaces r :: _ | .abi (.setSurfaces _ r) :: _ => r ≠ .ok
  | _ :: es => surfacesFailed es

/-- The core in a state is a presenting core that `CoreLoader::start` calls into. -/
def StartsPresenting (v : View) : Prop :=
  v.coreType = .presenting ∧ v.loader.state = .created ∧ v.loader.table.start = true

instance (v : View) : Decidable (StartsPresenting v) :=
  inferInstanceAs (Decidable (_ ∧ _ ∧ _))

variable {κ β : Type} {env : Env κ β}

/-- Whenever the call starts a presenting core, that core has accepted the newest surfaces. -/
def StartsLive (env : Env κ β) (w : World κ β) (a : ApiCall) : Prop :=
  ∀ v, MakesCall env w a .start v → StartsPresenting v.rt.view →
    surfacesAccepted v.rt.loader.core v.control.calls = true

/-- No content is given to a stopped presenting core whose surfaces were not replaced. -/
def NotAfterFailure (c : Control) : ApiCall → Prop
  | .loadContent _ =>
      c.view.coreLoaded = true → c.view.coreType = .presenting → c.view.requiresContent = true →
        c.view.loader.state ≠ .started → surfacesFailed c.calls = false
  | _ => True

instance (c : Control) (a : ApiCall) : Decidable (NotAfterFailure c a) :=
  match a with
  | .loadContent _ => inferInstanceAs (Decidable (_ → _))
  | .loadCore _ | .loadStaticCore _ | .unloadCore | .resize _ _ | .setInput _ _ | .present _ |
    .advance _ | .render _ | .serializeSize | .saveState _ _ | .loadState _ | .setRewind _ _ |
    .rewind | .pause | .resume | .reset | .coreThread _ => isTrue trivial

/-! ### The surfaces of the loaded core -/

/-- A presenting core that is loaded takes surfaces, and has accepted the newest unless they
failed. -/
structure SurfacesInv (c : Control) : Prop where
  table : c.view.coreLoaded = true → c.view.coreType = .presenting →
    c.view.loader.table.setSurfaces = true
  accepted : c.view.coreLoaded = true → c.view.coreType = .presenting →
    surfacesFailed c.calls = false →
    surfacesAccepted c.view.loader.core c.calls = true

/-- A call that serves the core leaves the state of its surfaces alone. -/
theorem surfaces_cons {e : Event} (he : Serves e) (core : CorePtr) (es : List Event) :
    surfacesAccepted core (e :: es) = surfacesAccepted core es ∧
      surfacesFailed (e :: es) = surfacesFailed es := by
  cases e with
  | abi call => cases call <;> first | exact he.elim | exact ⟨rfl, rfl⟩
  | allocateSurfaces r => exact he.elim
  | _ => exact ⟨rfl, rfl⟩

/-- The same for any number of such calls. -/
theorem surfaces_append {es' : List Event} (he : ∀ e ∈ es', Serves e) (core : CorePtr)
    (es : List Event) :
    surfacesAccepted core (es' ++ es) = surfacesAccepted core es ∧
      surfacesFailed (es' ++ es) = surfacesFailed es := by
  induction es' with
  | nil => exact ⟨rfl, rfl⟩
  | cons e es' ih =>
    obtain ⟨haccepted, hfailed⟩ := ih fun e h => he e (List.mem_cons_of_mem _ h)
    have hcons := surfaces_cons (he e (List.mem_cons_self ..)) core (es' ++ es)
    exact ⟨hcons.1.trans haccepted, hcons.2.trans hfailed⟩

/-- What continues the core keeps the invariant. -/
theorem SurfacesInv.of_same {c c' : Control} (h : SurfacesInv c) (hsame : Continues c c') :
    SurfacesInv c' := by
  obtain ⟨hcore, es, hcalls, hkeeps⟩ := hsame
  obtain ⟨haccepted, hfailed⟩ := surfaces_append hkeeps c.view.loader.core c.calls
  refine ⟨fun hloaded htype => ?_, fun hloaded htype hok => ?_⟩
  · rw [hcore.table]
    exact h.table (hcore.coreLoaded ▸ hloaded) (hcore.coreType ▸ htype)
  · rw [hcore.core, hcalls, haccepted]
    rw [hcalls, hfailed] at hok
    exact h.accepted (hcore.coreLoaded ▸ hloaded) (hcore.coreType ▸ htype) hok

/-- Without a core the invariant holds. -/
theorem SurfacesInv.vacant {c : Control} (h : Vacant c.view) : SurfacesInv c :=
  ⟨fun hloaded => (h.not_loaded hloaded).elim, fun hloaded => (h.not_loaded hloaded).elim⟩

/-- Surfaces that were handed over successfully have been accepted. -/
theorem NewSurfaces.accepted {c c' : Control} (h : NewSurfaces c .ok c')
    (hpresenting : c.view.coreType = .presenting) (hcreated : c.view.loader.state = .created) :
    c.view.loader.table.setSurfaces = true ∧
      surfacesAccepted c.view.loader.core c'.calls = true := by
  cases h with
  | refused hr => exact (hr rfl).elim
  | handed _ _ htable => exact ⟨htable, by simp [Control.push, surfacesAccepted, lastAllocateOk]⟩
  | missing _ _ _ hr => exact (hr rfl).elim
  | kept hother => exact (hother ⟨hpresenting, hcreated⟩).elim

/-- A failure to replace the surfaces shows in the log. -/
theorem NewSurfaces.failed {c c' : Control} {r : RpResult} (h : NewSurfaces c r c') (hr : r ≠ .ok)
    (htable : c.view.loader.table.setSurfaces = true) : surfacesFailed c'.calls = true := by
  cases h with
  | refused _ => exact decide_eq_true hr
  | handed _ _ _ => exact decide_eq_true hr
  | missing _ _ hnone _ => exact (hnone htable).elim
  | kept _ => exact (hr rfl).elim

/-- The guard of `starts_live`. -/
def LiveStart (i : Op) (c : Control) : Prop :=
  i = .start → StartsPresenting c.view → surfacesAccepted c.view.loader.core c.calls = true

/-- Calls that start nothing meet the guard. -/
theorem liveStart_harmless (i : Op) (c : Control) (h : i.Harmless c) : LiveStart i c := by
  rintro rfl
  exact h.elim

/-- A core that has been booted has accepted its surfaces if it presents. -/
theorem Booted.surfacesInv {type : CoreType} {c c' : Control} (h : Booted type c c')
    (hcreated : c.view.loader.state = .created) :
    SurfacesInv c' ∧ (c'.view.coreType = .presenting →
      surfacesAccepted c'.view.loader.core c'.calls = true) := by
  -- A presenting core that comes past its surfaces has accepted them.
  have hnew : ∀ c₁, NewSurfaces (edited (.enter type) c) .ok c₁ → SurfacesInv c₁ ∧
      (c₁.view.coreType = .presenting → surfacesAccepted c₁.view.loader.core c₁.calls = true) := by
    intro c₁ hnew
    have haccepted : c₁.view.coreType = .presenting → c₁.view.loader.table.setSurfaces = true ∧
        surfacesAccepted c₁.view.loader.core c₁.calls = true := by
      rw [hnew.view]
      exact fun hpresenting => hnew.accepted hpresenting hcreated
    exact ⟨⟨fun _ h => (haccepted h).1, fun _ h _ => (haccepted h).2⟩, fun h => (haccepted h).2⟩
  cases h with
  | content hdriven =>
    subst hdriven
    exact ⟨⟨nofun, nofun⟩, nofun⟩
  | driven hdriven _ hasked =>
    subst hdriven
    have htype : c'.view.coreType = .driven := hasked.continues.core.coreType
    have hother : c'.view.coreType ≠ .presenting := htype ▸ nofun
    exact ⟨⟨fun _ h => (hother h).elim, fun _ h => (hother h).elim⟩, fun h => (hother h).elim⟩
  | waiting _ hsurfaces => exact hnew c' hsurfaces
  | started _ hsurfaces _ hlaunched =>
    obtain ⟨hinv, haccepted⟩ := hnew _ hsurfaces
    have hcontinues := hlaunched.continues
    refine ⟨hinv.of_same hcontinues, fun hpresenting => ?_⟩
    obtain ⟨hcore, es, hcalls, hserves⟩ := hcontinues
    rw [hcore.core, hcalls, (surfaces_append hserves _ _).1]
    exact haccepted (hcore.coreType ▸ hpresenting)

variable {tables : CoreAbi → Prop}

/-- `resize` starts a core only on the surfaces it has accepted. -/
theorem resize_live {width height : UInt32} {c : Control} (hc : Settled c.view)
    (hi : SurfacesInv c) :
    Always (Op.Step tables) LiveStart (fun _ c' => SurfacesInv c')
      (Script.resize width height) c := by
  refine resize_rule liveStart_harmless width height (fun _ => hi) ?_ ?_
  · exact fun _ _ _ => ⟨hi.table, hi.accepted⟩
  · intro d r c' hloaded hstopped hnew
    have hd : SurfacesInv d := hi.of_same hstopped.continues
    have hcreated : d.view.loader.state = .created := hstopped.created (hc.hasInstance hloaded)
    have hinv : SurfacesInv c' := by
      refine ⟨?_, ?_⟩
      · rw [hnew.view]
        exact hd.table
      · rw [hnew.view]
        intro hloaded hpresenting hok
        -- A core that refuses the new surfaces has not been handed them as accepted.
        by_cases hr : r = .ok
        · subst hr
          exact (hnew.accepted hpresenting hcreated).2
        · have hfailed := hnew.failed hr (hd.table hloaded hpresenting)
          exact nomatch hfailed.symm.trans hok
    refine ⟨fun _ => hinv, ?_⟩
    rintro rfl hpresenting -
    refine ⟨fun _ _ => ?_, fun r c'' hlaunched => hinv.of_same hlaunched.continues⟩
    rw [hnew.view]
    exact (hnew.accepted hpresenting hcreated).2

/-- `load_content` starts a core only on the surfaces it has accepted, if it has. -/
theorem loadPath_live {path : String} {c : Control} (hi : SurfacesInv c)
    (haccepted : c.view.coreLoaded = true → c.view.coreType = .presenting →
      c.view.requiresContent = true → c.view.loader.state ≠ .started →
        surfacesAccepted c.view.loader.core c.calls = true) :
    Always (Op.Step tables) LiveStart (fun _ c' => SurfacesInv c') (Script.loadPath path) c := by
  refine loadPath_rule liveStart_harmless path (fun _ => nofun) ?_ (fun _ => hi)
    fun _ _ _ hload => hi.of_same hload.continues
  intro hloaded hpresenting hrequires hidle _ _
  exact haccepted hloaded hpresenting hrequires hidle

/-- No call that meets the condition starts a core on other surfaces. -/
theorem call_live {a : ApiCall} {c : Control} (hc : Settled c.view) (hi : SurfacesInv c)
    (hcovered : NotAfterFailure c a) :
    Always (Op.Step tables) LiveStart (fun _ c' => SurfacesInv c') (Script.call a) c := by
  refine call_rule liveStart_harmless hc (fun c' hquiet => hi.of_same (quiet_continues hquiet))
    (fun _ => SurfacesInv.vacant) ?_
      (fun _ _ _ hcreated hbooted => (hbooted.surfacesInv hcreated).1)
    ?_ ?_ fun _ _ _ => resize_live hc hi
  · rintro type c₀ c₁ hnew - - ⟨hpresenting, hcreated, -⟩
    rw [hnew.view] at hpresenting hcreated ⊢
    exact (hnew.accepted hpresenting hcreated).2
  · rintro path rfl
    refine loadPath_live hi fun hloaded hpresenting hrequires hidle => ?_
    exact hi.accepted hloaded hpresenting (hcovered hloaded hpresenting hrequires hidle)
  · intro type c₀ c' _ hcreated hbooted
    obtain ⟨hinv, haccepted⟩ := hbooted.surfacesInv hcreated
    exact loadPath_live ⟨hinv.table, hinv.accepted⟩ fun _ hpresenting _ _ => haccepted hpresenting

/-- In a run in which no content is given to a stopped presenting core whose surfaces were not
replaced, a presenting core is started only when it has accepted the surfaces of the newest
allocation. -/
theorem starts_live (api : GraphicsApi) (nativeWindow : ℕ) (core : κ) (gpu : β) {as : List ApiCall}
    {w : World κ β}
    (hrun : Machine.Run (host env) (fun w a => NotAfterFailure w.control a)
      (new env api nativeWindow core gpu) as w) :
    Machine.Run (host env) (StartsLive env) (new env api nativeWindow core gpu) as w := by
  have hvacant := (new_control env api nativeWindow core gpu).1
  have hlive :=
    host_run (I := SurfacesInv) (provides_any env) (fun a c => call_live) hvacant.settled
    (.vacant hvacant) hrun
  exact hlive.1.weaken fun w a hguard v hmakes => hguard .start v hmakes rfl

/-! ### Runs of a core that plays discs -/

/-- The core on a backend whose second allocation fails. -/
def secondFails : Env Unit ℕ := DiscCore.env DiscCore.fullTable (fun _ => true) (fun n => n = 1)

/-- A resize fails, and the core is rebooted before it is given its disc. -/
def rebooted : List ApiCall := [.loadCore "disc", .resize 32 32, .reset, .loadContent (some "game")]

/-- A core whose resize failed is rebooted before it is given its disc. -/
theorem starts_live_rebooted :
    ∃ w, Machine.Run (host secondFails) (fun w a => NotAfterFailure w.control a)
        (new secondFails 0 0 () 0) rebooted w ∧ w.rt.loader.state = .started ∧
      Machine.Run (host secondFails) (StartsLive secondFails)
        (new secondFails 0 0 () 0) rebooted w := by
  have hend : ∃ w, Machine.Run (host secondFails)
      (fun w a => NotAfterFailure w.control a) (new secondFails 0 0 () 0) rebooted w ∧
        w.rt.loader.state = .started :=
    Machine.exists_run (by decide +kernel)
  obtain ⟨w, hrun, hstarted⟩ := hend
  exact ⟨w, hrun, hstarted, starts_live 0 0 () 0 hrun⟩

/-- A resize has just failed. -/
def resizeFailed : World Unit ℕ :=
  ((call secondFails (.resize 32 32)).run
    ((call secondFails (.loadCore "disc")).run (new secondFails 0 0 () 0)).2).2

/-- The content given to the core starts it although its surfaces no longer exist. -/
theorem started_on_dead_surfaces :
    Machine.Run (host secondFails) Machine.always (new secondFails 0 0 () 0)
        [.loadCore "disc", .resize 32 32] resizeFailed ∧
      ¬StartsLive secondFails resizeFailed (.loadContent (some "game")) := by
  refine ⟨.cons trivial rfl (.cons trivial rfl (.nil _)), fun hlive => ?_⟩
  obtain ⟨v, hmakes, hpresenting, hdead⟩ := exists_start secondFails resizeFailed
    (.loadContent (some "game"))
    (fun v => StartsPresenting v.rt.view ∧
      surfacesAccepted v.rt.loader.core v.control.calls = false)
    (by decide +kernel)
  exact nomatch hdead.symm.trans (hlive v hmakes hpresenting)

end Runtime

end RetroPark
