import RetroPark.Runtime.ContentFirst

/-!
# What a reset reboots

`reset` destroys the loaded core, creates it again and loads again the content that counts as
loaded. That content is `content_path_` if `content_loaded_` is set, and `load_content` writes both
as it goes: the path before it asks the core, the flag once the core has taken the content, and a
presenting core may still fail to start after that. `loadContent_run` says what a call leaves, and
`reset_reboots_last` under which calls the content is that of the last `load_content` that
succeeded.
-/

namespace RetroPark

namespace Runtime

open Program

/-- The content that a reset loads again, if any. -/
def View.resetPath (v : View) : Option String :=
  if v.contentLoaded then some v.contentPath else none

namespace Script

/-- `Runtime::reset` of a loaded core up to its content. -/
def reboot : Script RpResult := do
  op (.edit .reboot)
  let v ← op .view
  op (.edit (.contentLoaded false))
  op .destroy
  let r ← op (.load v.module)
  if r ≠ .ok then unloadWith .internal
  else
    let r ← op .create
    if r ≠ .ok then unloadWith .internal
    else finishLoadCore v.coreType

/-- The core is given the content it had. -/
def reload : Option String → Script RpResult
  | some path => do
      op (.edit (.contentPath path))
      loadContent (some path)
  | none => return .ok

/-- A reboot of the loaded core, with `content`. -/
def rebootWith (content : Option String) : Script RpResult := do
  let r ← reboot
  if r ≠ .ok then return r
  reload content

end Script

variable {κ β : Type} (env : Env κ β)

theorem unloadWith_bind {α : Type} (r : RpResult) (k : RpResult → RuntimeM κ β α) :
    (unloadWith env r >>= k) = (unloadCore env >>= fun _ => k r) := by
  unfold unloadWith
  simp only [bind_assoc, pure_bind]

theorem runIn_reload (content : Option String) :
    (Script.reload content).runIn (Op.exec env) =
      match content with
      | some path => do
          update (Edit.contentPath path).write
          loadContent env (some path)
      | none => pure .ok := by
  cases content with
  | some path => rw [Script.reload, Program.runIn_bind, runIn_loadContent]; rfl
  | none => rfl

/-- A reset reboots the loaded core with the content that counts as loaded. -/
theorem reset_run {w : World κ β} (hloaded : w.rt.coreLoaded = true) :
    (reset env).run w = ((Script.rebootWith w.rt.view.resetPath).runIn (Op.exec env)).run w := by
  rw [← runIn_reset]
  unfold Script.reset Script.rebootWith Script.reboot
  simp only [Program.runIn_bind, Program.runIn_ask, Program.runIn_ite, Program.runIn_pure, Op.exec,
    bind_assoc, pure_bind, runIn_unloadWith, runIn_finishLoadCore, runIn_loadContent, runIn_reload]
  rw [get_bind_run, if_neg (by simp [view, hloaded]), update_bind_run, get_bind_run,
    update_bind_run,
    update_bind_run, get_bind_run, update_bind_run]
  -- The two programs go on alike, and a failed load or create leaves nothing to reload.
  refine congrArg (fun m : RuntimeM κ β RpResult => m.run _) ?_
  refine bind_congr fun _ => bind_congr fun r => ?_
  by_cases hload : r ≠ .ok
  · rw [if_pos hload, if_pos hload, unloadWith_bind]
    rfl
  · rw [if_neg hload, if_neg hload, bind_assoc]
    refine bind_congr fun r => ?_
    by_cases hcreate : r ≠ .ok
    · rw [if_pos hcreate, if_pos hcreate, unloadWith_bind]
      rfl
    · rw [if_neg hcreate, if_neg hcreate]
      refine bind_congr fun r => ?_
      -- Rebooting changes no field of `View`.
      change (if r ≠ .ok then pure r
        else if w.rt.contentLoaded = true then
          update (Edit.contentPath w.rt.contentPath).write >>= fun _ =>
            loadContent env (some w.rt.contentPath)
        else pure .ok) = _
      unfold View.resetPath
      cases hcontent : w.rt.contentLoaded <;> simp [view, hcontent]

/-! ### What a call of `load_content` leaves -/

section Content

/-- The core takes the content. -/
abbrev Takes (v : View) (k : κ) (path : String) : Prop :=
  (v.loader.loadContent env.core path k).value = .ok

/-- The geometry of a driven core that has been given the content can be used. -/
def Usable (v : View) (k : κ) (path : String) : Prop :=
  let out := v.loader.getAvInfo env.core (v.loader.loadContent env.core path k).core
  out.value.1 = .ok ∧ ¬(out.value.2.baseWidth = 0 ∨ out.value.2.baseHeight = 0) ∧
    out.value.2.pixelFormat = 0

/-- `load_content` sets `content_loaded_`. -/
def Marks (v : View) (k : κ) (path : String) : Prop :=
  (v.coreType = .presenting ∧ v.requiresContent = true ∧ Takes env v k path) ∨
    (v.coreType = .driven ∧ Takes env v k path ∧ Usable env v k path)

/-- The core runs once it has its content. -/
def Runs (v : View) (k : κ) (path : String) : Prop :=
  v.coreType = .presenting → v.loader.state ≠ .started →
    (v.loader.start env.core (v.loader.loadContent env.core path k).core).value = .ok

instance (v : View) (k : κ) (path : String) : Decidable (Marks env v k path) := by
  unfold Marks Usable
  infer_instance

instance (v : View) (k : κ) (path : String) : Decidable (Runs env v k path) := by
  unfold Runs
  infer_instance

/-- What `load_content` answers and leaves once it has set the path. -/
structure Loads (v : View) (k : κ) (path : String) (r : RpResult) (v' : View) : Prop where
  ok : r = .ok ↔ Marks env v k path ∧ Runs env v k path
  coreLoaded : v'.coreLoaded = v.coreLoaded
  contentPath : v'.contentPath = v.contentPath
  contentLoaded : v'.contentLoaded = true ↔ v.contentLoaded = true ∨ Marks env v k path

variable {env} in
/-- A call that does not mark the core leaves it as it was. -/
theorem Loads.unmarked {v v' : View} {k : κ} {path : String} {r : RpResult} (hr : r ≠ .ok)
    (hnot : ¬Marks env v k path) (hview : v' = v) : Loads env v k path r v' where
  ok := ⟨fun h => (hr h).elim, fun h => (hnot h.1).elim⟩
  coreLoaded := by rw [hview]
  contentPath := by rw [hview]
  contentLoaded := by rw [hview, or_iff_left hnot]

variable {env} in
theorem Loads.complete {v v' : View} {k : κ} {path : String} (hmarks : Marks env v k path)
    (hruns : Runs env v k path) (hview : v' = { v with contentLoaded := true }) :
    Loads env v k path .ok v' where
  ok := ⟨fun _ => ⟨hmarks, hruns⟩, fun _ => rfl⟩
  coreLoaded := by rw [hview]
  contentPath := by rw [hview]
  contentLoaded := by
    rw [hview]
    exact ⟨fun _ => .inr hmarks, fun _ => rfl⟩

theorem view_bind_run {γ : Type} (f : View → RuntimeM κ β γ) (w : World κ β) :
    (Op.exec env .view >>= f).run w = (f w.rt.view).run w := rfl

theorem edit_run (e : Edit) (w : World κ β) :
    ∃ w', (Op.exec env (.edit e)).run w = ((), w') ∧ w'.rt.view = e.effect w.rt.view ∧
      w'.core = w.core := ⟨_, rfl, e.view_write w.rt, rfl⟩

/-- A loader method, with what it leaves of the fields that decide what the methods do. -/
theorem callLoader_run {α : Type} (f : CoreLoader → κ → LoaderOutcome κ α) (w : World κ β) :
    ∃ w', (callLoader env f).run w = ((f w.rt.loader w.core).value, w') ∧
      w'.rt.view = { w.rt.view with loader := (f w.rt.loader w.core).loader } ∧
      w'.core = (f w.rt.loader w.core).core := by
  refine ⟨_, rfl, congrArg Control.view (callLoader_control env f w), ?_⟩
  exact (hostCalls_steady env _ _).1

/-- Giving content to the core leaves the loader alone. -/
theorem loadContent_loader (l : CoreLoader) (k : κ) (path : String) :
    (l.loadContent env.core path k).loader = l := by
  unfold CoreLoader.loadContent
  split_ifs <;> rfl

/-- Asking for the geometry leaves the loader alone. -/
theorem getAvInfo_loader (l : CoreLoader) (k : κ) : (l.getAvInfo env.core k).loader = l := by
  unfold CoreLoader.getAvInfo
  split_ifs <;> rfl

/-- The core is asked to load the content. -/
theorem giveContent_run (w : World κ β) (path : String) :
    ∃ w', (Op.exec env (.loadContent path)).run w =
        ((w.rt.view.loader.loadContent env.core path w.core).value, w') ∧ w'.rt.view = w.rt.view ∧
      w'.core = (w.rt.view.loader.loadContent env.core path w.core).core := by
  obtain ⟨w', hrun, hview, hcore⟩ := callLoader_run env (·.loadContent env.core path ·) w
  rw [loadContent_loader] at hview
  exact ⟨w', hrun, hview, hcore⟩

/-- The core is asked for its geometry and sample rate. -/
theorem askAvInfo_run (w : World κ β) :
    ∃ w', (Op.exec env .getAvInfo).run w =
      ((w.rt.view.loader.getAvInfo env.core w.core).value, w') ∧
      w'.rt.view = w.rt.view := by
  obtain ⟨w', hrun, hview, -⟩ := callLoader_run env (·.getAvInfo env.core ·) w
  rw [getAvInfo_loader] at hview
  exact ⟨w', hrun, hview⟩

/-- The core is started. -/
theorem start_run (w : World κ β) :
    ∃ w', (Op.exec env .start).run w = ((w.rt.view.loader.start env.core w.core).value, w') ∧
      w'.rt.view =
        { w.rt.view with loader := (w.rt.view.loader.start env.core w.core).loader } := by
  obtain ⟨w', hrun, hview, -⟩ := callLoader_run env (·.start env.core ·) w
  exact ⟨w', hrun, hview⟩

/-- Opening the audio output leaves the view alone. -/
theorem openAudio_run (av : AvInfo) (w : World κ β) :
    ∃ w', (Op.exec env (.openAudio av)).run w = ((), w') ∧ w'.rt.view = w.rt.view :=
  ⟨_, rfl, congrArg Control.view (openAudio_control env av w)⟩

/-- The audio part of `load_content` leaves the view alone and succeeds. -/
theorem contentAudio_run (w : World κ β) :
    ∃ w', (Script.contentAudio.runIn (Op.exec env)).run w = (.ok, w') ∧ w'.rt.view = w.rt.view := by
  unfold Script.contentAudio
  simp only [Program.runIn_bind, Program.runIn_ask, Program.runIn_ite, Program.runIn_pure]
  obtain ⟨w₁, hrun₁, hview₁⟩ := askAvInfo_run env w
  rw [run_bind_of_eq hrun₁]
  split_ifs
  · obtain ⟨w₂, hrun₂, hview₂⟩ :=
      openAudio_run env (w.rt.view.loader.getAvInfo env.core w.core).value.2 w₁
    rw [run_bind_of_eq hrun₂]
    exact ⟨w₂, rfl, hview₂.trans hview₁⟩
  · exact ⟨w₁, rfl, hview₁⟩

/-- A presenting core is marked as soon as it has taken the content, before it is started. -/
theorem loadPresenting_run {w : World κ β} (hpresenting : w.rt.view.coreType = .presenting)
    (path : String) :
    ∃ r w', ((Script.loadPresenting path).runIn (Op.exec env)).run w = (r, w') ∧
      Loads env w.rt.view w.core path r w'.rt.view := by
  have hmarks : Marks env w.rt.view w.core path ↔
      w.rt.view.requiresContent = true ∧ Takes env w.rt.view w.core path := by
    simp [Marks, hpresenting]
  unfold Script.loadPresenting
  simp only [Program.runIn_bind, Program.runIn_ask, Program.runIn_ite, Program.runIn_pure]
  rw [view_bind_run]
  by_cases hrequires : w.rt.view.requiresContent = true
  · rw [if_neg (by simp [hrequires])]
    obtain ⟨w₁, hrun₁, hview₁, hcore₁⟩ := giveContent_run env w path
    rw [run_bind_of_eq hrun₁]
    by_cases htakes : Takes env w.rt.view w.core path
    · rw [if_neg (not_not_intro htakes)]
      have hmarked := hmarks.mpr ⟨hrequires, htakes⟩
      obtain ⟨w₂, hrun₂, hview₂, hcore₂⟩ := edit_run env (.contentLoaded true) w₁
      rw [hview₁] at hview₂
      rw [run_bind_of_eq hrun₂, view_bind_run]
      have hloader₂ : w₂.rt.view.loader = w.rt.view.loader :=
        (congrArg View.loader hview₂).trans (Edit.effect_loader _ _)
      rw [hloader₂]
      by_cases hidle : w.rt.view.loader.state ≠ .started
      · rw [if_pos hidle]
        obtain ⟨w₃, hrun₃, hview₃⟩ := start_run env w₂
        -- Whether it starts or not, the content counts as loaded from here on.
        have hleft : w₃.rt.view.coreLoaded = w.rt.view.coreLoaded ∧
            w₃.rt.view.contentPath = w.rt.view.contentPath ∧ w₃.rt.view.contentLoaded = true := by
          rw [hview₃, hview₂]
          exact ⟨rfl, rfl, rfl⟩
        have hruns : Runs env w.rt.view w.core path ↔
            (w₂.rt.view.loader.start env.core w₂.core).value = .ok := by
          rw [hloader₂, hcore₂, hcore₁]
          exact ⟨fun h => h hpresenting hidle, fun h _ _ => h⟩
        rw [run_bind_of_eq hrun₃]
        by_cases hok : (w₂.rt.view.loader.start env.core w₂.core).value = .ok
        · rw [if_neg (not_not_intro hok)]
          obtain ⟨w₄, hrun₄, hview₄⟩ := contentAudio_run env w₃
          exact ⟨_, w₄, hrun₄, ⟨fun _ => ⟨hmarked, hruns.mpr hok⟩, fun _ => rfl⟩, hview₄ ▸ hleft.1,
            hview₄ ▸ hleft.2.1, hview₄ ▸ ⟨fun _ => .inr hmarked, fun _ => hleft.2.2⟩⟩
        · rw [if_pos hok]
          exact ⟨_, w₃, rfl, ⟨fun h => (hok h).elim, fun h => (hok (hruns.mp h.2)).elim⟩, hleft.1,
            hleft.2.1, ⟨fun _ => .inr hmarked, fun _ => hleft.2.2⟩⟩
      · rw [if_neg hidle]
        obtain ⟨w₃, hrun₃, hview₃⟩ := contentAudio_run env w₂
        have hruns : Runs env w.rt.view w.core path := fun _ h => (hidle h).elim
        exact ⟨_, w₃, hrun₃, Loads.complete hmarked hruns (hview₃.trans hview₂)⟩
    · rw [if_pos htakes]
      exact ⟨_, w₁, rfl, Loads.unmarked htakes (fun h => htakes (hmarks.mp h).2) hview₁⟩
  · rw [if_pos (by simp [hrequires])]
    exact ⟨_, w, rfl, Loads.unmarked nofun (fun h => hrequires (hmarks.mp h).1) rfl⟩

/-- A driven core is marked once its geometry is known. -/
theorem loadDriven_run {w : World κ β} (hdriven : w.rt.view.coreType = .driven) (path : String) :
    ∃ r w', ((Script.loadDriven path).runIn (Op.exec env)).run w = (r, w') ∧
      Loads env w.rt.view w.core path r w'.rt.view := by
  have hmarks : Marks env w.rt.view w.core path ↔
      Takes env w.rt.view w.core path ∧ Usable env w.rt.view w.core path := by
    simp [Marks, hdriven]
  have hruns : Runs env w.rt.view w.core path :=
    fun hpresenting => nomatch hdriven.symm.trans hpresenting
  unfold Script.loadDriven
  simp only [Program.runIn_bind, Program.runIn_ask, Program.runIn_ite, Program.runIn_pure]
  obtain ⟨w₁, hrun₁, hview₁, hcore₁⟩ := giveContent_run env w path
  rw [run_bind_of_eq hrun₁]
  by_cases htakes : Takes env w.rt.view w.core path
  · rw [if_neg (not_not_intro htakes)]
    obtain ⟨w₂, hrun₂, hview₂⟩ := askAvInfo_run env w₁
    rw [run_bind_of_eq hrun₂]
    rw [hview₁] at hview₂ ⊢
    rw [hcore₁]
    have husable : Marks env w.rt.view w.core path → Usable env w.rt.view w.core path :=
      fun h => (hmarks.mp h).2
    -- Each of the three tests that fails leaves the content unmarked.
    split_ifs with hav hsize hformat
    · exact ⟨_, w₂, rfl, Loads.unmarked nofun (fun h => hav (husable h).1) hview₂⟩
    · exact ⟨_, w₂, rfl, Loads.unmarked nofun (fun h => (husable h).2.1 hsize) hview₂⟩
    · exact ⟨_, w₂, rfl, Loads.unmarked nofun (fun h => hformat (husable h).2.2) hview₂⟩
    · obtain ⟨w₃, hrun₃, hview₃, -⟩ := edit_run env
        (.geometry (w.rt.view.loader.getAvInfo env.core
          (w.rt.view.loader.loadContent env.core path w.core).core).value.2) w₂
      obtain ⟨w₄, hrun₄, hview₄, -⟩ := edit_run env (.contentLoaded true) w₃
      obtain ⟨w₅, hrun₅, hview₅⟩ := openAudio_run env
        (w.rt.view.loader.getAvInfo env.core
          (w.rt.view.loader.loadContent env.core path w.core).core).value.2 w₄
      rw [run_bind_of_eq hrun₃, run_bind_of_eq hrun₄, run_bind_of_eq hrun₅]
      have hmarked := hmarks.mpr ⟨htakes, not_not.mp hav, hsize, not_not.mp hformat⟩
      refine ⟨_, w₅, rfl, Loads.complete hmarked hruns ?_⟩
      rw [hview₅, hview₄, hview₃, hview₂]
      rfl
  · rw [if_pos htakes]
    exact ⟨_, w₁, rfl, Loads.unmarked htakes (fun h => htakes (hmarks.mp h).1) hview₁⟩

/-- `load_content` answers `RP_OK` when the core is marked and runs, and leaves the path it was
given either way. -/
theorem loadContent_run {w : World κ β} (hloaded : w.rt.view.coreLoaded = true)
    (path : Option String) :
    ∃ r w', (loadContent env path).run w = (r, w') ∧
      Loads env { w.rt.view with contentPath := path.getD "" } w.core
        (path.getD "") r w'.rt.view := by
  rw [← runIn_loadContent]
  unfold Script.loadContent Script.loadPath
  simp only [Program.runIn_bind, Program.runIn_ask, Program.runIn_ite, Program.runIn_pure]
  generalize path.getD "" = path
  rw [view_bind_run, if_neg (by simp [hloaded])]
  obtain ⟨w₁, hrun₁, hview₁, hcore₁⟩ := edit_run env (.contentPath path) w
  rw [run_bind_of_eq hrun₁, view_bind_run, ← hcore₁]
  change ∃ r w', _ = (r, w') ∧ Loads env ((Edit.contentPath path).effect w.rt.view) _ _ _ _
  rw [← hview₁]
  by_cases hpresenting : w₁.rt.view.coreType = .presenting
  · rw [if_pos hpresenting]
    exact loadPresenting_run env hpresenting path
  rw [if_neg hpresenting, view_bind_run]
  by_cases hdriven : w₁.rt.view.coreType = .driven
  · rw [if_neg (not_not_intro hdriven)]
    exact loadDriven_run env hdriven path
  · rw [if_pos hdriven]
    exact ⟨_, w₁, rfl, Loads.unmarked nofun (fun h => h.elim (hpresenting ·.1) (hdriven ·.1)) rfl⟩

end Content

/-! ### Rebooting -/

/-- A core that has been rebooted has no content until it is loaded again. -/
theorem reboot_rule {tables : CoreAbi → Prop} {c : Control} (hloaded : c.view.coreLoaded = true) :
    Always (Op.Step tables) Op.Calm
      (fun r c' => (r ≠ .ok → Vacant c'.view) ∧
        (r = .ok → c'.view.coreLoaded = true ∧ c'.view.contentLoaded = false)) Script.reboot c := by
  refine .call trivial ?_
  rintro _ _ rfl
  refine .call trivial ?_
  rintro _ _ ⟨rfl, rfl⟩
  refine .call trivial ?_
  rintro _ _ rfl
  refine .call trivial ?_
  rintro _ _ ⟨_, rfl⟩
  refine reinstance_rule (fun _ _ h => h.calm) hloaded (fun _ h => ⟨fun _ => h, nofun⟩)
    fun c₀ hcreated => ?_
  refine finishLoadCore_rule (fun _ _ h => h.calm) hcreated (fun _ _ _ _ => trivial) ?_ ?_
  · exact fun r c' hr hc' => ⟨fun _ => hc', fun hok => (hr hok).elim⟩
  · intro c' hbooted
    exact ⟨fun hr => (hr rfl).elim, fun _ => ⟨hbooted.same.coreLoaded, hbooted.contentLoaded⟩⟩

/-- What the reboot of a loaded core answers and leaves, before its content is loaded again. -/
def afterReboot (w : World κ β) : RpResult × World κ β := (Script.reboot.runIn (Op.exec env)).run w

/-- A reboot leaves no core, or a core whose content is not loaded. -/
theorem afterReboot_view {w : World κ β} (hloaded : w.rt.coreLoaded = true) :
    ((afterReboot env w).1 ≠ .ok → Vacant (afterReboot env w).2.rt.view) ∧
      ((afterReboot env w).1 = .ok → (afterReboot env w).2.rt.view.coreLoaded = true ∧
        (afterReboot env w).2.rt.view.contentLoaded = false) := by
  have hpost := (reboot_rule (c := w.control) hloaded).runIn (f := World.control)
    (exec_step env (provides_any env))
  unfold afterReboot
  generalize (Script.reboot.runIn (Op.exec env)).run w = out at hpost ⊢
  exact hpost

/-! ### Sessions of a host program -/

/-- A runtime, and the content of the last `load_content` that succeeded on its core. -/
structure Session (κ β : Type) where
  world : World κ β
  last : Option String

/-- A load that the device is ready for replaces the core, and an unload drops it. -/
def Replaces (v : View) : ApiCall → Bool
  | .loadCore _ | .loadStaticCore _ => v.initOk
  | .unloadCore => true
  | _ => false

/-- A host program calls the methods. -/
def played : Machine (Session κ β) ApiCall where
  step s a :=
    some
      { world := ((call env a).run s.world).2
        last :=
          match a with
          | .loadContent path =>
              if ((loadContent env path).run s.world).1 = .ok then some (path.getD "") else s.last
          | a => if Replaces s.world.rt.view a then none else s.last }

/-- A failed `load_content` is given the content that is loaded, or finds none loaded and marks
nothing. A core that is rebooted is marked again with its content. -/
def Retains (s : Session κ β) : ApiCall → Prop
  | .loadContent path =>
      s.world.rt.coreLoaded = true →
        (Marks env s.world.rt.view s.world.core (path.getD "") ∧
            Runs env s.world.rt.view s.world.core (path.getD "")) ∨
          if s.world.rt.contentLoaded then s.world.rt.contentPath = path.getD ""
          else ¬Marks env s.world.rt.view s.world.core (path.getD "")
  | .reset =>
      s.world.rt.coreLoaded = true → s.world.rt.contentLoaded = true →
        (afterReboot env s.world).1 = .ok →
          Marks env (afterReboot env s.world).2.rt.view (afterReboot env s.world).2.core
            s.world.rt.contentPath
  | _ => True

instance (s : Session κ β) (a : ApiCall) : Decidable (Retains env s a) :=
  match a with
  | .loadContent _ | .reset => inferInstanceAs (Decidable (_ → _))
  | .loadCore _ | .loadStaticCore _ | .unloadCore | .resize _ _ | .setInput _ _ | .present _ |
    .advance _ | .render _ | .serializeSize | .saveState _ _ | .loadState _ | .setRewind _ _ |
    .rewind | .pause | .resume | .coreThread _ => isTrue trivial

/-- A reset would reload the content that was loaded last. -/
def RecallsLast (s : Session κ β) : Prop :=
  s.world.rt.coreLoaded = true → s.world.rt.view.resetPath = s.last

section Content

variable {env} {v v' : View} {k : κ} {path : String} {r : RpResult}

theorem Loads.resetPath (h : Loads env { v with contentPath := path } k path r v') :
    v'.resetPath = if v.contentLoaded = true ∨ Marks env v k path then some path else none := by
  have hpath : v'.contentPath = path := h.contentPath
  unfold View.resetPath
  rw [hpath]
  exact if_congr h.contentLoaded rfl rfl

/-- When a failed `load_content` leaves what a reset reloads. -/
theorem Loads.kept_iff (h : Loads env { v with contentPath := path } k path r v') :
    (r ≠ .ok → v'.contentLoaded = v.contentLoaded ∧ v'.resetPath = v.resetPath) ↔
      (Marks env v k path ∧ Runs env v k path) ∨
        if v.contentLoaded then v.contentPath = path else ¬Marks env v k path := by
  have hok : r = .ok ↔ Marks env v k path ∧ Runs env v k path := h.ok
  have hcontent : v'.contentLoaded = true ↔ v.contentLoaded = true ∨ Marks env v k path :=
    h.contentLoaded
  rw [h.resetPath, Ne, hok, View.resetPath, Bool.eq_iff_iff, hcontent]
  by_cases hcomplete : Marks env v k path ∧ Runs env v k path
  · simp [hcomplete]
  · cases v.contentLoaded with
    | true => simp [hcomplete, eq_comm]
    | false => simp [hcomplete]

end Content

/-- Without a core `load_content` fails and does nothing. -/
theorem loadContent_unloaded {w : World κ β} (hunloaded : w.rt.coreLoaded = false)
    (path : Option String) :
    (loadContent env path).run w = (.internal, w) := by
  unfold loadContent
  rw [get_bind_run, if_pos (by simp [hunloaded])]
  rfl

/-- Without a core `reset` ends a pause and succeeds. -/
theorem reset_unloaded {w : World κ β} (hunloaded : w.rt.coreLoaded = false) :
    (reset env).run w = (.ok, { w with rt := { w.rt with paused := false } }) := by
  unfold reset
  rw [get_bind_run, if_pos (by simp [hunloaded])]
  rfl

/-- A core that is marked with the content it is given would be given it again. -/
theorem reload_run {w : World κ β} (hloaded : w.rt.view.coreLoaded = true)
    (hnone : w.rt.view.contentLoaded = false) {content : Option String}
    (hmarks : ∀ path, content = some path → Marks env w.rt.view w.core path) :
    ∃ r w', ((Script.reload content).runIn (Op.exec env)).run w = (r, w') ∧
      w'.rt.view.resetPath = content := by
  cases content with
  | none => exact ⟨_, w, rfl, if_neg (Bool.eq_false_iff.mp hnone)⟩
  | some path =>
    unfold Script.reload
    rw [Program.runIn_bind, Program.runIn_ask, runIn_loadContent]
    obtain ⟨w₁, hrun₁, hview₁, hcore₁⟩ := edit_run env (.contentPath path) w
    have hloaded₁ : w₁.rt.view.coreLoaded = true := hview₁ ▸ hloaded
    obtain ⟨r, w₂, hrun₂, hloads⟩ := loadContent_run env hloaded₁ (some path)
    rw [run_bind_of_eq hrun₁]
    refine ⟨r, w₂, hrun₂, hloads.resetPath.trans (if_pos (.inr ?_))⟩
    rw [hview₁, hcore₁]
    exact hmarks path rfl

/-- After a reset that reloads its content, the same content would be reloaded. -/
theorem reset_resetPath {w : World κ β} (hloaded : w.rt.coreLoaded = true)
    (hmarks : w.rt.contentLoaded = true → (afterReboot env w).1 = .ok →
      Marks env (afterReboot env w).2.rt.view (afterReboot env w).2.core w.rt.contentPath)
    (hleft : ((reset env).run w).2.rt.coreLoaded = true) :
    ((reset env).run w).2.rt.view.resetPath = w.rt.view.resetPath := by
  obtain ⟨hfailed, hbooted⟩ := afterReboot_view env hloaded
  rcases hreboot : afterReboot env w with ⟨r, w₁⟩
  rw [hreboot] at hmarks hfailed hbooted
  unfold afterReboot at hreboot
  -- A reset is a reboot and, when that succeeds, the content again.
  have hrun : (reset env).run w = ((if r ≠ .ok then pure r
      else (Script.reload w.rt.view.resetPath).runIn (Op.exec env)) : RuntimeM κ β RpResult).run
        w₁ := by
    rw [reset_run env hloaded, Script.rebootWith, Program.runIn_bind, run_bind_of_eq hreboot,
      ← Program.runIn_pure (Op.exec env), ← Program.runIn_ite]
  rw [hrun] at hleft ⊢
  by_cases hok : r = .ok
  · rw [if_neg (not_not_intro hok)]
    obtain ⟨hloaded₁, hnone⟩ := hbooted hok
    have hmarked : ∀ path, w.rt.view.resetPath = some path → Marks env w₁.rt.view w₁.core path := by
      intro path hpath
      obtain ⟨hcontent, hsame⟩ := Option.ite_none_right_eq_some.mp hpath
      rw [← Option.some.inj hsame]
      exact hmarks hcontent hok
    obtain ⟨r', w₂, hrun, hpath⟩ := reload_run env hloaded₁ hnone hmarked
    rw [hrun]
    exact hpath
  · rw [if_pos hok] at hleft
    exact ((hfailed hok).not_loaded hleft).elim

/-! ### The calls of a session -/

/-- The content after a call that does not load or reboot it: a new core has none, any other keeps
its own. -/
def KeepsContent (v : View) (a : ApiCall) (v' : View) : Prop :=
  if Replaces v a then v'.coreLoaded = true → v'.contentLoaded = false
  else v'.coreLoaded = v.coreLoaded ∧ v'.contentLoaded = v.contentLoaded ∧
    v'.contentPath = v.contentPath

theorem KeepsContent.refl {v : View} {a : ApiCall} (h : Replaces v a = false) :
    KeepsContent v a v := by
  rw [KeepsContent, if_neg (Bool.eq_false_iff.mp h)]
  exact ⟨rfl, rfl, rfl⟩

theorem KeepsContent.fresh {v v' : View} {a : ApiCall} (h : Replaces v a = true)
    (hv' : v'.coreLoaded = true → v'.contentLoaded = false) : KeepsContent v a v' := by
  rwa [KeepsContent, if_pos h]

section Calls

variable {tables : CoreAbi → Prop} {c : Control}

/-- Nothing is loaded while the device is not ready. -/
theorem loadCore_notReady (hready : c.view.initOk = false) (dir : String) :
    Always (Op.Step tables) Op.Calm (fun _ c' => c' = c) (Script.loadCore dir) c := by
  refine .call trivial ?_
  rintro _ c ⟨rfl, rfl⟩
  rw [always_ite]
  exact ⟨fun _ => rfl, fun hinit => (hinit ((Bool.not_eq_true' _).mpr hready)).elim⟩

theorem loadStaticCore_notReady (hready : c.view.initOk = false) (id : String) :
    Always (Op.Step tables) Op.Calm (fun _ c' => c' = c) (Script.loadStaticCore id) c := by
  refine .call trivial ?_
  rintro _ c ⟨rfl, rfl⟩
  rw [always_ite]
  exact ⟨fun _ => rfl, fun hinit => (hinit ((Bool.not_eq_true' _).mpr hready)).elim⟩

theorem resize_keepsContent (width height : UInt32) :
    Always (Op.Step tables) Op.Calm (fun _ c' => KeepsContent c.view (.resize width height) c'.view)
      (Script.resize width height) c := by
  refine resize_rule (fun _ _ h => h.calm) width height (fun _ => .refl rfl) ?_ ?_
  · exact fun _ _ _ => ⟨rfl, rfl, rfl⟩
  · intro d r c' _ hstopped hnew
    have hkept : KeepsContent c.view (.resize width height) c'.view := by
      rw [hnew.view, hstopped.view]
      split_ifs <;> exact ⟨rfl, rfl, rfl⟩
    refine ⟨fun _ => hkept, fun _ _ _ => ⟨trivial, fun r c'' hlaunched => ?_⟩⟩
    cases hlaunched <;> exact hkept

/-- Calls other than `load_content` and `reset` keep the content or replace the core. -/
theorem call_keepsContent (hc : Settled c.view) {a : ApiCall}
    (hload : ∀ path, a ≠ .loadContent path)
    (hreset : a ≠ .reset) :
    Always (Op.Step tables) Op.Calm (fun _ c' => KeepsContent c.view a c'.view)
      (Script.call a) c := by
  have hfree : ∀ (i : Op) (c : Control), i.Harmless c → i.Calm c := fun _ _ h => h.calm
  -- A core that is made ready has no content, and a load that fails leaves no core.
  have hfinish : ∀ type c₀, c₀.view.loader.state = .created →
      Always (Op.Step tables) Op.Calm
        (fun _ c' => c'.view.coreLoaded = true → c'.view.contentLoaded = false)
        (Script.finishLoadCore type) c₀ := fun type c₀ hcreated =>
    finishLoadCore_rule hfree hcreated (fun _ _ _ _ => trivial)
      (fun _ _ _ hvacant _ => hvacant.contentLoaded) fun _ hbooted _ => hbooted.contentLoaded
  have hvacant : ∀ (r : RpResult) (c' : Control), Vacant c'.view →
      c'.view.coreLoaded = true → c'.view.contentLoaded = false :=
    fun _ _ hvacant _ => hvacant.contentLoaded
  cases a with
  | loadCore dir =>
    cases hready : c.view.initOk with
    | false =>
      refine (loadCore_notReady hready dir).bind ?_
      rintro _ _ rfl
      exact .refl hready
    | true =>
      refine (loadCore_rule hfree dir hc (fun hnot => ?_) hvacant hfinish).bind fun _ _ h =>
        .fresh hready h
      exact nomatch hready.symm.trans hnot
  | loadStaticCore id =>
    cases hready : c.view.initOk with
    | false =>
      refine (loadStaticCore_notReady hready id).bind ?_
      rintro _ _ rfl
      exact .refl hready
    | true =>
      refine (loadStaticCore_rule hfree id hc (fun hnot => ?_) hvacant hfinish).bind
        fun _ _ h => .fresh hready h
      exact nomatch hready.symm.trans hnot
  | unloadCore =>
    refine (unloadCore_rule hfree (P := fun _ c' => Vacant c'.view) (fun hnone _ => hc.vacant hnone)
      fun _ h => h).bind fun r c' h => .fresh rfl (hvacant r c' h)
  | resize width height => exact (resize_keepsContent width height).bind fun _ _ h => h
  | loadContent path => exact (hload path rfl).elim
  | reset => exact (hreset rfl).elim
  | _ => exact ⟨rfl, fun _ c' hstep => (hstep rfl).1 ▸ .refl rfl⟩

end Calls

variable {env}

/-- A core that keeps its content keeps what a reset reloads. -/
theorem KeepsContent.resetPath {v v' : View} {a : ApiCall} {last : Option String}
    (h : KeepsContent v a v') (hlast : v.coreLoaded = true → v.resetPath = last)
    (hloaded' : v'.coreLoaded = true) : v'.resetPath = if Replaces v a then none else last := by
  unfold KeepsContent at h
  split_ifs at h ⊢ with hreplaces
  · exact if_neg (Bool.eq_false_iff.mp (h hloaded'))
  · obtain ⟨hloaded, hcontent, hpath⟩ := h
    rw [← hlast (hloaded.symm.trans hloaded'), View.resetPath, View.resetPath, hcontent, hpath]

section Step

variable {s : Session κ β}

/-- A `load_content` that meets `Retains` keeps what a reset reloads in step. -/
theorem RecallsLast.loadContent (h : RecallsLast s) {path : Option String}
    (hretains : Retains env s (.loadContent path))
    (hloaded' : ((Runtime.loadContent env path).run s.world).2.rt.coreLoaded = true) :
    ((Runtime.loadContent env path).run s.world).2.rt.view.resetPath =
      if ((Runtime.loadContent env path).run s.world).1 = .ok then some (path.getD "")
      else s.last := by
  by_cases hloaded : s.world.rt.coreLoaded = true
  · obtain ⟨r, w', hrun, hloads⟩ := loadContent_run env hloaded path
    rw [hrun]
    by_cases hok : r = .ok
    · rw [if_pos hok, hloads.resetPath]
      exact if_pos (.inr (hloads.ok.mp hok).1)
    · rw [if_neg hok, (hloads.kept_iff.mpr (hretains hloaded) hok).2]
      exact h hloaded
  · rw [loadContent_unloaded env ((Bool.not_eq_true _).mp hloaded)] at hloaded'
    exact (hloaded hloaded').elim

/-- A reset that meets `Retains` keeps what a reset reloads in step. -/
theorem RecallsLast.reset (h : RecallsLast s) (hretains : Retains env s .reset)
    (hloaded' : ((Runtime.reset env).run s.world).2.rt.coreLoaded = true) :
    ((Runtime.reset env).run s.world).2.rt.view.resetPath = s.last := by
  by_cases hloaded : s.world.rt.coreLoaded = true
  · exact (reset_resetPath env hloaded (hretains hloaded) hloaded').trans (h hloaded)
  · rw [reset_unloaded env ((Bool.not_eq_true _).mp hloaded)] at hloaded'
    exact (hloaded hloaded').elim

/-- What a reset reloads is what was loaded last, after a call that retains it. -/
theorem RecallsLast.step (h : RecallsLast s) {s' : Session κ β} {a : ApiCall}
    (hsettled : Settled s.world.rt.view) (hretains : Retains env s a)
    (hstep : (played env).step s a = some s') : RecallsLast s' := by
  obtain rfl := Option.some.inj hstep
  intro hloaded'
  by_cases hother : (∃ path, a = .loadContent path) ∨ a = .reset
  · obtain ⟨path, rfl⟩ | rfl := hother
    · exact h.loadContent hretains hloaded'
    · exact h.reset hretains hloaded'
  · obtain ⟨hload, hreset⟩ := not_or.mp hother
    have hkeeps :=
      (call_keepsContent (c := s.world.control) hsettled (not_exists.mp hload) hreset).runIn
      (f := World.control) (exec_step env (provides_any env))
    rw [runIn_call] at hkeeps
    have hpath := KeepsContent.resetPath hkeeps h hloaded'
    cases a with
    | loadContent path => exact (hload ⟨path, rfl⟩).elim
    | _ => exact hpath

end Step

/-- In every state of a run whose calls all meet `Retains`, a reset of a loaded core reboots it with
the content of the last `load_content` that succeeded, and a `load_content` that fails leaves what
is loaded and what a reset reloads exactly if it meets `Retains`. -/
theorem reset_reboots_last (api : GraphicsApi) (nativeWindow : ℕ) (core : κ) (gpu : β)
    {as : List ApiCall}
    {s : Session κ β}
    (hrun : Machine.Run (played env) (Retains env) ⟨new env api nativeWindow core gpu, none⟩ as s)
    (hloaded : s.world.rt.coreLoaded = true) :
    (reset env).run s.world = ((Script.rebootWith s.last).runIn (Op.exec env)).run s.world ∧
      ∀ path, (((loadContent env path).run s.world).1 ≠ .ok →
          ((loadContent env path).run s.world).2.rt.contentLoaded = s.world.rt.contentLoaded ∧
            ((loadContent env path).run s.world).2.rt.view.resetPath = s.last) ↔
        Retains env s (.loadContent path) := by
  have hvacant := (new_control env api nativeWindow core gpu).1
  have hinv : Settled s.world.control.view ∧ RecallsLast s := by
    refine hrun.invariant (I := fun s => Settled s.world.control.view ∧ RecallsLast s)
      ⟨hvacant.settled, fun hloaded => (hvacant.not_loaded hloaded).elim⟩ ?_
    rintro s a s' ⟨hsettled, hrecalls⟩ hretains hstep
    refine ⟨?_, hrecalls.step hsettled hretains hstep⟩
    obtain rfl := Option.some.inj hstep
    have hpost :=
      (call_settled a hsettled).runIn (f := World.control) (exec_step env (provides_any env))
    rwa [runIn_call] at hpost
  have hlast : s.world.rt.view.resetPath = s.last := hinv.2 hloaded
  refine ⟨by rw [← hlast, reset_run env hloaded], fun path => ?_⟩
  obtain ⟨r, w', hload, hloads⟩ := loadContent_run env hloaded path
  rw [hload, ← hlast]
  exact hloads.kept_iff.trans ⟨fun h _ => h, fun h => h hloaded⟩

/-! ### Runs of a core that plays discs -/

/-- A disc is refused, another is played in a window of its own size, and the core is reset. -/
def playAgain : List ApiCall :=
  [.loadCore "disc", .loadContent (some "scratched"), .loadContent (some "game"),
    .resize 32 32, .reset]

/-- A disc is refused, and the one played after it is what a reset reloads. -/
theorem reset_reboots_last_playAgain :
    ∃ s, Machine.Run (played discPlayer) (Retains discPlayer) ⟨new discPlayer 0 0 () 0, none⟩
        playAgain s ∧
      s.world.rt.coreLoaded = true ∧ s.last = some "game" ∧
      (reset discPlayer).run s.world =
        ((Script.rebootWith s.last).runIn (Op.exec discPlayer)).run s.world := by
  have hend : ∃ s, Machine.Run (played discPlayer) (Retains discPlayer)
      ⟨new discPlayer 0 0 () 0, none⟩ playAgain s ∧
        s.world.rt.coreLoaded = true ∧ s.last = some "game" :=
    Machine.exists_run (by decide +kernel)
  obtain ⟨s, hrun, hloaded, hlast⟩ := hend
  exact ⟨s, hrun, hloaded, hlast, (reset_reboots_last 0 0 () 0 hrun hloaded).1⟩

/-- A disc is played and another one refused. -/
def playTwo : List ApiCall :=
  [.loadCore "disc", .loadContent (some "game"), .loadContent (some "scratched")]

/-- A reset reloads the disc that was refused, and not the one that is being played. -/
theorem reset_reloads_refused :
    ∃ s, Machine.Run (played discPlayer) Machine.always ⟨new discPlayer 0 0 () 0, none⟩ playTwo s ∧
      s.world.rt.coreLoaded = true ∧ s.last = some "game" ∧
      s.world.rt.view.resetPath = some "scratched" ∧
      ((reset discPlayer).run s.world).1 = .notFound ∧
      (((Script.rebootWith s.last).runIn (Op.exec discPlayer)).run s.world).1 = .ok :=
  Machine.exists_run (by decide +kernel)

end Runtime

end RetroPark
