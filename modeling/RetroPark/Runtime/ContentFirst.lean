import RetroPark.Runtime.Settled
import RetroPark.Cores.DiscCore

/-!
# Cores that take content are started with it

`finish_load_core` leaves a presenting core that takes content stopped, and `load_content` starts it
once it has its content. `resize` starts a stopped presenting core without asking for its content.
`starts_after_content` shows that this is the only way: in every run in which no core is resized
before it has its content, a presenting core that takes content is started only after it has been
given some.
-/

namespace RetroPark

namespace Runtime

open Program

/-- Whether the newest instance `core` has been given content. -/
def contentGiven (core : CorePtr) : List Event → Bool
  | [] | .abi (.create _) :: _ => false
  | .abi (.loadContent c r) :: es => (c = core && r = .ok) || contentGiven core es
  | _ :: es => contentGiven core es

/-- The core in a state is a presenting core with `load_content` that `CoreLoader::start` calls
into. -/
def StartsContent (v : View) : Prop :=
  v.coreType = .presenting ∧ v.loader.table.loadContent = true ∧ v.loader.state = .created ∧
    v.loader.table.start = true

instance (v : View) : Decidable (StartsContent v) := inferInstanceAs (Decidable (_ ∧ _ ∧ _ ∧ _))

variable {κ β : Type} {env : Env κ β}

/-- Whenever the call starts a presenting core that takes content, that core has been given some. -/
def StartsAfterContent (env : Env κ β) (w : World κ β) (a : ApiCall) : Prop :=
  ∀ v, MakesCall env w a .start v → StartsContent v.rt.view →
    contentGiven v.rt.loader.core v.control.calls = true

/-- No presenting core that takes content is resized before it has it. -/
def NotBeforeContent (c : Control) : ApiCall → Prop
  | .resize _ _ =>
      c.view.coreLoaded = true → c.view.coreType = .presenting →
        c.view.loader.table.loadContent = true → c.view.contentLoaded = true
  | _ => True

instance (c : Control) (a : ApiCall) : Decidable (NotBeforeContent c a) :=
  match a with
  | .resize _ _ => inferInstanceAs (Decidable (_ → _))
  | .loadCore _ | .loadStaticCore _ | .unloadCore | .loadContent _ | .setInput _ _ | .present _ |
    .advance _ | .render _ | .serializeSize | .saveState _ _ | .loadState _ | .setRewind _ _ |
    .rewind | .pause | .resume | .reset | .coreThread _ => isTrue trivial

/-! ### The content of the loaded core -/

/-- A presenting core whose content counts as loaded has been given it. -/
def ContentInv (c : Control) : Prop :=
  c.view.coreType = .presenting → c.view.contentLoaded = true →
    contentGiven c.view.loader.core c.calls = true

/-- A core that has been given content has been given it after any call but a creation. -/
theorem contentGiven_cons {e : Event} (he : ∀ p, e ≠ .abi (.create p)) {core : CorePtr}
    {es : List Event}
    (h : contentGiven core es = true) : contentGiven core (e :: es) = true := by
  cases e with
  | abi call =>
    cases call with
    | create p => exact (he p rfl).elim
    | loadContent c r => simp [contentGiven, h]
    | _ => exact h
  | _ => exact h

/-- The same after any calls that serve the core. -/
theorem contentGiven_append {es' : List Event} (hserves : ∀ e ∈ es', Serves e) {core : CorePtr}
    {es : List Event} (h : contentGiven core es = true) : contentGiven core (es' ++ es) = true := by
  induction es' with
  | nil => exact h
  | cons e es' ih =>
    refine contentGiven_cons ?_ (ih fun e he => hserves e (List.mem_cons_of_mem _ he))
    rintro p rfl
    exact hserves _ (List.mem_cons_self ..)

/-- A core that is continued has the content it was given. -/
theorem Continues.contentGiven {c c' : Control} (h : Continues c c')
    (hgiven : contentGiven c.view.loader.core c.calls = true) :
    contentGiven c'.view.loader.core c'.calls = true := by
  obtain ⟨hcore, es, hcalls, hserves⟩ := h
  rw [hcore.core, hcalls]
  exact contentGiven_append hserves hgiven

/-- What continues the core and leaves the content mark alone keeps the invariant. -/
theorem ContentInv.of_continues {c c' : Control} (h : ContentInv c) (hcontinues : Continues c c')
    (hcontent : c'.view.contentLoaded = c.view.contentLoaded) : ContentInv c' := by
  intro htype hloaded
  rw [hcontinues.core.coreType] at htype
  exact hcontinues.contentGiven (h htype (hcontent ▸ hloaded))

/-- A core with new surfaces has the content it was given. -/
theorem NewSurfaces.contentGiven {c c' : Control} {r : RpResult} (h : NewSurfaces c r c')
    (hgiven : contentGiven c.view.loader.core c.calls = true) :
    contentGiven c'.view.loader.core c'.calls = true := by
  cases h with
  | handed => exact contentGiven_cons (by simp) (contentGiven_cons (by simp) hgiven)
  | refused | missing | kept => exact contentGiven_cons (by simp) hgiven

/-- A core that is given content has been given content. -/
theorem given_contentGiven (path : String) (c : Control) :
    contentGiven (given path c).view.loader.core (given path c).calls = true := by
  simp [given, Control.push, contentGiven, Edit.contentPath]

/-- Content that counts as loaded was loaded before or has just been given. -/
theorem ContentLoad.contentInv {path : String} {c c' : Control} {r : RpResult}
    (h : ContentLoad path c r c') (hi : ContentInv c) : ContentInv c' := by
  have hgiven := given_contentGiven path c
  cases h with
  | unasked => exact hi
  | refused => exact fun htype hloaded => contentGiven_cons (by simp) (hi htype hloaded)
  | unusable _ _ hasked => exact fun _ _ => hasked.continues.contentGiven hgiven
  | stuck _ _ _ hlaunched => exact fun _ _ => hlaunched.continues.contentGiven hgiven
  | launched _ _ hlaunched hasked =>
    exact fun _ _ => hasked.continues.contentGiven (hlaunched.continues.contentGiven hgiven)
  | running _ _ hasked => exact fun _ _ => hasked.continues.contentGiven hgiven
  | driven _ hasked => exact fun _ _ => hasked.continues.contentGiven hgiven

/-! ### The scripts -/

/-- The guard of `starts_after_content`. -/
def ContentStart (i : Op) (c : Control) : Prop :=
  i = .start → StartsContent c.view → contentGiven c.view.loader.core c.calls = true

/-- Calls that start nothing meet the guard. -/
theorem contentStart_harmless (i : Op) (c : Control) (h : i.Harmless c) : ContentStart i c := by
  rintro rfl
  exact h.elim

variable {tables : CoreAbi → Prop}

/-- A `resize` that is not before its content starts no core without content. -/
theorem resize_contentFirst {width height : UInt32} {c : Control} (hi : ContentInv c)
    (hcovered : NotBeforeContent c (.resize width height)) :
    Always (Op.Step tables) ContentStart (fun _ c' => ContentInv c')
      (Script.resize width height) c := by
  refine resize_rule contentStart_harmless width height (fun _ => hi) (fun _ _ _ => hi) ?_
  intro d r c' hloaded hstopped hnew
  have hview : d.view.contentLoaded = c.view.contentLoaded := by
    cases hstopped <;> rfl
  have hd : ContentInv d := hi.of_continues hstopped.continues hview
  have hinv : ContentInv c' := by
    intro htype hcontent
    rw [hnew.view] at htype hcontent
    exact hnew.contentGiven (hd htype hcontent)
  refine ⟨fun _ => hinv, fun _ hpresenting _ => ⟨?_, fun r c'' hlaunched => ?_⟩⟩
  · -- The core is started again: if it takes content, it was given some before the resize.
    rintro - ⟨-, htable, -⟩
    rw [hnew.view, hstopped.continues.core.table] at htable
    rw [hstopped.continues.core.coreType] at hpresenting
    have hcontent := hcovered hloaded hpresenting htable
    exact hnew.contentGiven (hstopped.continues.contentGiven (hi hpresenting hcontent))
  · refine hinv.of_continues hlaunched.continues ?_
    cases hlaunched <;> rfl

/-- `load_content` starts a core only after it has given it the content. -/
theorem loadPath_contentFirst {path : String} {c : Control} (hi : ContentInv c) :
    Always (Op.Step tables) ContentStart (fun _ c' => ContentInv c') (Script.loadPath path) c :=
  loadPath_rule contentStart_harmless path (fun _ => nofun)
    (fun _ _ _ _ _ _ => given_contentGiven path c) (fun _ => hi) fun _ _ _ hload =>
      hload.contentInv hi

/-- No call that meets the condition starts a core without content. -/
theorem call_contentFirst {a : ApiCall} {c : Control} (hc : Settled c.view) (hi : ContentInv c)
    (hcovered : NotBeforeContent c a) :
    Always (Op.Step tables) ContentStart (fun _ c' => ContentInv c') (Script.call a) c := by
  refine call_rule contentStart_harmless hc ?_ ?_ ?_ ?_ (fun _ _ => loadPath_contentFirst hi) ?_ ?_
  · exact fun c' hquiet => hi.of_continues (quiet_continues hquiet) (hquiet.1 ▸ rfl)
  · exact fun c' hvacant _ hcontent => nomatch hvacant.contentLoaded.symm.trans hcontent
  · rintro type c₀ c₁ hnew hrequires - ⟨-, htable, -⟩
    rw [hnew.view] at htable
    rw [CoreLoader.hasLoadContent_eq] at hrequires
    exact nomatch hrequires.symm.trans htable
  · exact fun type c₀ c' _ hbooted _ hcontent => nomatch hbooted.contentLoaded.symm.trans hcontent
  · intro type c₀ c' _ _ hbooted
    exact loadPath_contentFirst fun _ hcontent => nomatch hbooted.contentLoaded.symm.trans hcontent
  · rintro width height rfl
    exact resize_contentFirst hi hcovered

/-- In a run in which no presenting core is resized before it has its content, such a core is
started only after it has been given content. -/
theorem starts_after_content (api : GraphicsApi) (nativeWindow : ℕ) (core : κ) (gpu : β)
    {as : List ApiCall} {w : World κ β}
    (hrun : Machine.Run (host env) (fun w a => NotBeforeContent w.control a)
      (new env api nativeWindow core gpu) as w) :
    Machine.Run (host env) (StartsAfterContent env) (new env api nativeWindow core gpu) as w := by
  have hvacant := (new_control env api nativeWindow core gpu).1
  have hfirst := host_run (I := ContentInv) (provides_any env) (fun a c => call_contentFirst)
    hvacant.settled (fun _ hcontent => nomatch hvacant.contentLoaded.symm.trans hcontent) hrun
  exact hfirst.1.weaken fun w a hguard v hmakes => hguard .start v hmakes rfl

/-! ### Runs of a core that plays discs -/

/-- The core on a backend that always allocates. -/
def discPlayer : Env Unit ℕ :=
  DiscCore.env DiscCore.fullTable (fun path => path = "game") (fun _ => false)

/-- A disc is refused, another is played, and the window is resized while it plays. -/
def playDisc : List ApiCall :=
  [.loadCore "disc", .loadContent (some "scratched"), .loadContent (some "game"), .resize 32 32]

/-- A disc is given to the core before it is started, and before it is resized. -/
theorem starts_after_content_playDisc :
    ∃ w, Machine.Run (host discPlayer) (fun w a => NotBeforeContent w.control a)
        (new discPlayer 0 0 () 0) playDisc w ∧ w.rt.loader.state = .started ∧
      Machine.Run (host discPlayer) (StartsAfterContent discPlayer)
        (new discPlayer 0 0 () 0) playDisc w := by
  have hend : ∃ w, Machine.Run (host discPlayer)
      (fun w a => NotBeforeContent w.control a) (new discPlayer 0 0 () 0) playDisc w ∧
        w.rt.loader.state = .started :=
    Machine.exists_run (by decide +kernel)
  obtain ⟨w, hrun, hstarted⟩ := hend
  exact ⟨w, hrun, hstarted, starts_after_content 0 0 () 0 hrun⟩

/-- The core is loaded and waits for its disc. -/
def waitingForDisc : World Unit ℕ :=
  ((call discPlayer (.loadCore "disc")).run (new discPlayer 0 0 () 0)).2

/-- A resize starts the core without a disc. -/
theorem resized_before_content :
    Machine.Run (host discPlayer) Machine.always (new discPlayer 0 0 () 0) [.loadCore "disc"]
        waitingForDisc ∧
      ¬StartsAfterContent discPlayer waitingForDisc (.resize 32 32) := by
  refine ⟨.cons trivial rfl (.nil _), fun hfirst => ?_⟩
  obtain ⟨v, hmakes, hstarts, hnone⟩ := exists_start discPlayer waitingForDisc (.resize 32 32)
    (fun v => StartsContent v.rt.view ∧ contentGiven v.rt.loader.core v.control.calls = false)
    (by decide +kernel)
  exact nomatch hnone.symm.trans (hfirst v hmakes hstarts)

end Runtime

end RetroPark
