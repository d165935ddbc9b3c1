import RetroPark.Runtime.ContentFirst
import RetroPark.Runtime.ShownFrames

/-!
# Stale frames

`unload_core` leaves the surface ring as it is, and so does a resize whose `allocate_surfaces`
fails: the next `render` shows a frame of a core that is gone, or of surfaces that no longer exist.
`Attended` is the condition on the calls under which this does not happen, read off the log of what
has been called so far, and `shows_current` says that under it every frame shown is current.

What a state says of the log is `Consistent`: the frames it may show are backed (`Backed`), the
presenting core that is loaded has been there since the newest allocation (`Tenured`), and a runtime
without a core has released its module (`Moored`).
-/

namespace RetroPark

/-- An instance is created or destroyed. -/
def Event.replacesCore : Event → Bool
  | .abi (.create _) | .abi (.destroy _) => true
  | _ => false

/-- A frame is accepted. -/
def Event.accepts : Event → Bool
  | .submitFrame _ _ _ accepted => accepted
  | _ => false

/-- A type that `rp_core_type` declares. -/
def CoreType.declared : CoreType → Bool
  | .presenting | .driven => true
  | .other _ => false

namespace Runtime

open Program

variable {κ β : Type} {env : Env κ β}

/-! ### The instance that is loaded -/

/-- The instance of a presenting core that is loaded has been there since before the newest
allocation. -/
def Tenured (c : Control) : Prop :=
  c.view.coreLoaded = true → c.view.coreType = .presenting →
    ∀ e ∈ sinceAllocation c.calls, e.replacesCore = false

/-- A call that serves the core allocates nothing and replaces no core. -/
theorem Serves.plain {e : Event} (h : Serves e) : e.isAllocation = false ∧
    e.replacesCore = false := by
  cases e with
  | abi call => cases call <;> first | exact h.elim | exact ⟨rfl, rfl⟩
  | allocateSurfaces r => exact h.elim
  | _ => exact ⟨rfl, rfl⟩

/-- What continues the core keeps its tenure. -/
theorem Tenured.of_same {c c' : Control} (h : Tenured c) (hsame : Continues c c') : Tenured c' := by
  obtain ⟨hcore, es, hcalls, hserves⟩ := hsame
  intro hloaded hpresenting e he
  rw [hcalls, sinceAllocation_append fun e he => (hserves e he).plain.1] at he
  rcases List.mem_append.mp he with he | he
  · exact (hserves e he).plain.2
  · exact h (hcore.coreLoaded ▸ hloaded) (hcore.coreType ▸ hpresenting) e he

/-- Without a core there is nothing to hold. -/
theorem Tenured.vacant {c : Control} (h : Vacant c.view) : Tenured c :=
  fun hloaded => (h.not_loaded hloaded).elim

/-- After an allocation the instance has not been replaced. -/
theorem NewSurfaces.tenured {c c' : Control} {r : RpResult} (h : NewSurfaces c r c') :
    Tenured c' := by
  intro _ _ e he
  cases h with
  | handed =>
    obtain rfl := List.mem_singleton.mp he
    rfl
  | refused | missing | kept => exact absurd he List.not_mem_nil

/-- A core that has been booted has its tenure. -/
theorem Booted.tenured {type : CoreType} {c c' : Control} (h : Booted type c c') : Tenured c' := by
  cases h with
  | content hdriven => subst hdriven; exact fun _ => nofun
  | driven hdriven _ hasked =>
    subst hdriven
    have htype : c'.view.coreType = .driven := hasked.continues.core.coreType
    exact fun _ hpresenting => nomatch htype.symm.trans hpresenting
  | waiting _ hnew _ => exact hnew.tenured
  | started _ hnew _ hlaunched => exact hnew.tenured.of_same hlaunched.continues

variable {tables : CoreAbi → Prop}

/-- `load_content` keeps the tenure of the core. -/
theorem loadPath_tenured {path : String} {c : Control} (hc : Tenured c) :
    Always (Op.Step tables) Op.Calm (fun _ c' => Tenured c') (Script.loadPath path) c :=
  loadPath_rule (fun _ _ h => h.calm) path (fun _ => trivial) (fun _ _ _ _ => trivial) (fun _ => hc)
    fun _ _ _ hload => hc.of_same hload.continues

/-- `resize` keeps the tenure of the core. -/
theorem resize_tenured {width height : UInt32} {c : Control} (hc : Tenured c) :
    Always (Op.Step tables) Op.Calm (fun _ c' => Tenured c') (Script.resize width height) c := by
  refine resize_rule (fun _ _ h => h.calm) width height (fun _ => hc) (fun _ _ _ => hc) ?_
  intro d r c' _ _ hnew
  exact ⟨fun _ => hnew.tenured, fun _ _ _ => ⟨trivial, fun _ _ hlaunched =>
    hnew.tenured.of_same hlaunched.continues⟩⟩

/-- Every call keeps the tenure of the core, or replaces it. -/
theorem call_tenured (a : ApiCall) {c : Control} (hc : Settled c.view) (ht : Tenured c) :
    Always (Op.Step tables) Op.Calm (fun _ c' => Tenured c') (Script.call a) c := by
  refine call_rule (fun _ _ h => h.calm) hc (fun c' hquiet => ht.of_same (quiet_continues hquiet))
    (fun _ => Tenured.vacant) (fun _ _ _ _ _ => trivial) (fun _ _ _ _ hbooted => hbooted.tenured)
    (fun _ _ => loadPath_tenured ht) ?_ fun _ _ _ => resize_tenured ht
  intro type c₀ c' _ _ hbooted
  exact loadPath_tenured hbooted.tenured

/-- The tracked calls since the newest allocation are those of the log. -/
theorem sinceAllocation_tracked (log : List Event) :
    sinceAllocation (log.filter Event.tracked) = (sinceAllocation log).filter Event.tracked := by
  induction log with
  | nil => rfl
  | cons e log ih =>
    unfold sinceAllocation at ih ⊢
    cases halloc : e.isAllocation with
    | true =>
      have htracked : e.tracked = true := by
        cases e with
        | allocateSurfaces r => rfl
        | _ => exact nomatch halloc
      rw [List.filter_cons_of_pos htracked, List.takeWhile_cons_of_neg (by simp [halloc]),
        List.takeWhile_cons_of_neg (by simp [halloc])]
      rfl
    | false =>
      rw [List.takeWhile_cons_of_pos (by simp [halloc])]
      by_cases htracked : e.tracked = true
      · rw [List.filter_cons_of_pos htracked, List.filter_cons_of_pos htracked,
          List.takeWhile_cons_of_pos (by simp [halloc]), ih]
      · rw [List.filter_cons_of_neg htracked, List.filter_cons_of_neg htracked, ih]

/-- No instance has been created or destroyed since the newest allocation. -/
theorem Tenured.log {w : World κ β} (h : Tenured w.control) (hloaded : w.rt.coreLoaded = true)
    (hpresenting : w.rt.coreType = .presenting) : ∀ e ∈ sinceAllocation w.log,
      e.replacesCore = false := by
  intro e he
  by_contra hreplaces
  have htracked : e.tracked = true := by
    unfold Event.replacesCore at hreplaces
    split at hreplaces <;> first | rfl | exact (hreplaces rfl).elim
  refine hreplaces (h hloaded hpresenting e ?_)
  change e ∈ sinceAllocation (w.log.filter Event.tracked)
  rw [sinceAllocation_tracked]
  exact List.mem_filter.mpr ⟨he, htracked⟩

/-! ### The module -/

/-- The newest of the events that open or release a module opened it. A load opens the module of its
core, and `unload_core`, a load that fails and a reset that fails release it. -/
def holdsModule : List Event → Bool
  | [] | .releaseModule :: _ => false
  | .openModule :: _ => true
  | _ :: log => holdsModule log

/-- The module of the runtime is the one the trace tells of. -/
def Moored (c : Control) : Prop := holdsModule c.calls = c.view.module

/-- Which events are not tracked does not matter for the module. -/
theorem holdsModule_tracked (log : List Event) :
    holdsModule (log.filter Event.tracked) = holdsModule log := by
  induction log with
  | nil => rfl
  | cons e log ih =>
    by_cases htracked : e.tracked = true
    · rw [List.filter_cons_of_pos htracked]
      cases e with
      | openModule | releaseModule => rfl
      | _ => exact ih
    · rw [List.filter_cons_of_neg htracked, ih]
      cases e with
      | openModule | releaseModule => exact (htracked rfl).elim
      | _ => rfl

/-- Calls that serve the core leave its module alone. -/
theorem holdsModule_append {es : List Event} (he : ∀ e ∈ es, Serves e) (log : List Event) :
    holdsModule (es ++ log) = holdsModule log := by
  induction es with
  | nil => rfl
  | cons e es ih =>
    have hrest := ih fun e h => he e (List.mem_cons_of_mem _ h)
    have hhead := he e (List.mem_cons_self ..)
    cases e with
    | openModule | releaseModule => exact hhead.elim
    | _ => exact hrest

/-- Calls that open and release no module keep the runtime moored. -/
theorem Moored.step {i : Op} {c c' : Control} {r : i.Answer} (h : Moored c) (hcalm : i.Calm c)
    (hstep : Op.Step tables i c r c') : Moored c' := by
  cases i with
  | edit e =>
    obtain rfl := hstep
    exact h.trans (e.effect_module c.view).symm
  | view =>
    obtain ⟨-, rfl⟩ := hstep
    exact h
  | holdModule =>
    obtain rfl := hstep
    rfl
  | resetModule =>
    simp only [Op.Step] at hstep
    split_ifs at hstep
    · subst hstep
      rfl
    · exact hstep ▸ h
  -- From here on the steps are the loader's and the backend's, which have no module of their own.
  | load module =>
    simp only [Op.Step] at hstep
    split_ifs at hstep
    · obtain ⟨-, -, abi, -, rfl⟩ := hstep
      exact h
    · exact hstep ▸ h
  | create =>
    simp only [Op.Step] at hstep
    split_ifs at hstep
    · obtain ⟨p, -, rfl⟩ := hstep
      exact h
    · exact hstep.2 ▸ h
  | handSurfaces descs =>
    simp only [Op.Step] at hstep
    split_ifs at hstep
    · subst hstep
      exact h
    · exact hstep.2 ▸ h
    · exact hstep.2 ▸ h
  | start =>
    have hlaunched : Launched c r c' := .of_step hstep
    cases hlaunched with
    | started | failed | missing => exact h
  | stop =>
    simp only [Op.Step] at hstep
    split_ifs at hstep <;> exact hstep ▸ h
  | destroy =>
    obtain ⟨r, rfl⟩ := hstep
    refine Eq.trans ?_ h
    show holdsModule (_ ++ c.calls) = holdsModule c.calls
    split_ifs <;> rfl
  | getAvInfo =>
    simp only [Op.Step] at hstep
    split_ifs at hstep <;> exact hstep.2 ▸ h
  | loadContent path =>
    simp only [Op.Step] at hstep
    split_ifs at hstep
    · exact hstep ▸ h
    · exact hstep.2 ▸ h
  | initBackend width height =>
    obtain rfl := hstep
    exact h
  | allocateSurfaces =>
    obtain rfl := hstep
    exact h
  | quiet a =>
    have hquiet := hstep hcalm
    obtain ⟨-, es, hcalls, hserves⟩ := quiet_continues hquiet
    rw [Moored, hcalls, holdsModule_append hserves, hquiet.1]
    exact h
  | _ => exact hstep ▸ h

/-! ### Current frames -/

/-- The frame was submitted by the presenting core that is loaded, for the surfaces of the newest
allocation, which succeeded. -/
structure Current (w : World κ β) (f : ℕ × ℕ) : Prop where
  coreLoaded : w.rt.coreLoaded = true
  presenting : w.rt.coreType = .presenting
  allocated : lastAllocateOk w.log = true
  submitted : .submitFrame f.1 w.rt.ring.generation f.2 true ∈ sinceAllocation w.log
  sameCore : ∀ e ∈ sinceAllocation w.log, e.replacesCore = false

/-- Whatever the call passes to `composite_and_present` as a frame is current. -/
def ShowsCurrent (env : Env κ β) (w : World κ β) (a : ApiCall) : Prop :=
  ∀ fs, shownFrames ((call env a).run w).2.log = fs ++ shownFrames w.log → ∀ f ∈ fs, Current w f

/-- A frame has been accepted since the newest allocation that succeeded; while the runtime is
paused, one has been shown since. -/
def frameAtHand (w : World κ β) : Bool :=
  (sinceSurfaces w.log).any fun e => if w.rt.paused then e.shown?.isSome else e.accepts

/-- The calls that show a picture. -/
def ApiCall.renders : ApiCall → Bool
  | .render _ | .present _ => true
  | _ => false

/-- The call shows a picture when there is a frame at hand, and not that of a driven core. -/
def Redraws (w : World κ β) (a : ApiCall) : Prop :=
  a.renders = true ∧ frameAtHand w = true ∧
    ¬(w.rt.coreLoaded = true ∧ w.rt.coreType = .driven)

instance (w : World κ β) (a : ApiCall) : Decidable (Redraws w a) :=
  inferInstanceAs (Decidable (_ ∧ _ ∧ _))

/-- The call does not redraw between an unloading and the next load that succeeds, nor between an
allocation that fails and the next that succeeds, nor for a core of a type that is not declared. -/
def Attended (w : World κ β) (a : ApiCall) : Prop :=
  Redraws w a → holdsModule w.log = true ∧ lastAllocateOk w.log = true ∧
    w.rt.coreType.declared = true

instance (w : World κ β) (a : ApiCall) : Decidable (Attended w a) :=
  inferInstanceAs (Decidable (_ → _))

/-- Only a call that redraws shows a frame, which is the latest ready one or, while the runtime is
paused, the one it has kept. -/
theorem redraws_of_shows {w : World κ β} (hbacked : Backed w.rt.showable w.log) {a : ApiCall}
    {f : ℕ × ℕ} (h : shows w.rt a = some f) :
    Redraws w a ∧ (w.rt.ring.latestReady = some f ∨ w.rt.showable.2 = some f) := by
  obtain ⟨hrenders, hrendered⟩ : a.renders = true ∧ w.rt.rendered = some f := by
    cases a with
    | render out => exact ⟨rfl, h⟩
    | present out => exact ⟨rfl, h⟩
    | _ => exact nomatch h
  have htarget := renderTarget_eq w.rt
  unfold rendered at hrendered
  split_ifs at hrendered with hbackend hdriven hhas
  rw [if_pos hhas, hrendered] at htarget
  -- What may be shown is on record.
  refine ⟨⟨hrenders, List.any_eq_true.mpr ?_, hdriven⟩, ?_⟩
  · cases hpaused : w.rt.paused with
    | true =>
      rw [if_pos hpaused] at htarget
      exact ⟨_, hbacked.shown f.1 f.2 htarget, rfl⟩
    | false =>
      rw [if_neg (hpaused ▸ Bool.false_ne_true)] at htarget
      exact ⟨_, hbacked.accepted f.1 f.2 (.inl htarget), rfl⟩
  · split_ifs at htarget with hpaused hkept
    · exact .inr ((if_pos hkept).trans htarget)
    · exact .inl htarget

/-! ### Runs -/

/-- What holds of every state a host program reaches. -/
structure Consistent (w : World κ β) : Prop where
  settled : Settled w.control.view
  tenured : Tenured w.control
  moored : Moored w.control
  backed : Backed w.rt.showable w.log

/-- A new runtime is consistent. -/
theorem Consistent.new (api : GraphicsApi) (nativeWindow : ℕ) (core : κ) (gpu : β) :
    Consistent (new env api nativeWindow core gpu) := by
  obtain ⟨hvacant, hcalls, -⟩ := new_control env api nativeWindow core gpu
  refine ⟨hvacant.settled, .vacant hvacant, ?_, ?_⟩
  · rw [Moored, hcalls, hvacant.module]
    rfl
  · unfold Runtime.new
    dsimp only
    split_ifs <;> exact ⟨fun _ _ h => h.elim nofun nofun, nofun⟩

/-- Every call keeps the runtime consistent. -/
theorem Consistent.step {w w' : World κ β} {a : ApiCall} (h : Consistent w)
    (hstep : (host env).step w a = some w') : Consistent w' := by
  obtain rfl := Option.some.inj hstep
  have hsettled : Always (Op.Step fun _ => True) Op.Calm (fun _ c' => Settled c'.view)
      (Script.call a) w.control := call_settled a h.settled
  have hmoored := hsettled.keep h.moored fun _ _ _ _ hcalm hc hstep => hc.step hcalm hstep
  have hpost := (hmoored.and (call_tenured a h.settled h.tenured)).runIn
    (f := World.control) (exec_step env (provides_any env))
  rw [runIn_call] at hpost
  exact ⟨hpost.1.1, hpost.2, hpost.1.2, (call_shown env ⟨h.backed, rfl⟩ a).1⟩

/-- A core is loaded as long as its module is held. -/
theorem Consistent.coreLoaded {w : World κ β} (h : Consistent w)
    (hheld : holdsModule w.log = true) :
    w.rt.coreLoaded = true := by
  by_contra hunloaded
  have hreleased := (h.settled.vacant ((Bool.not_eq_true _).mp hunloaded)).module
  have hmoored : holdsModule (w.log.filter Event.tracked) = w.control.view.module := h.moored
  rw [holdsModule_tracked, hheld, hreleased] at hmoored
  exact Bool.false_ne_true hmoored.symm

/-- A call that is attended shows nothing but current frames. -/
theorem Consistent.showsCurrent {w : World κ β} (h : Consistent w) {a : ApiCall}
    (hattended : Attended w a) : ShowsCurrent env w a := by
  intro fs hfs f hf
  rw [(call_shown env ⟨h.backed, rfl⟩ a).2] at hfs
  obtain rfl := List.append_cancel_right hfs
  have hshows : shows w.rt a = some f := by simpa using hf
  obtain ⟨hredraws, hshowable⟩ := redraws_of_shows h.backed hshows
  obtain ⟨hheld, hallocated, hdeclared⟩ := hattended hredraws
  have hloaded := h.coreLoaded hheld
  -- The core is no driven one, so it is a presenting one.
  have hpresenting : w.rt.coreType = .presenting := by
    have hother := hredraws.2.2
    cases htype : w.rt.coreType with
    | presenting => rfl
    | driven => exact (hother ⟨hloaded, htype⟩).elim
    | other raw => exact nomatch (htype ▸ hdeclared : (CoreType.other raw).declared = true)
  have hsubmitted := h.backed.accepted f.1 f.2 hshowable
  rw [sinceSurfaces_eq hallocated] at hsubmitted
  exact ⟨hloaded, hpresenting, hallocated, hsubmitted, h.tenured.log hloaded hpresenting⟩

/-- In every run of a host program whose calls are attended, all frames shown are current. -/
theorem shows_current (api : GraphicsApi) (nativeWindow : ℕ) (core : κ) (gpu : β)
    {as : List ApiCall} {w : World κ β}
    (hrun : Machine.Run (host env) Attended (new env api nativeWindow core gpu) as w) :
    Machine.Run (host env) (ShowsCurrent env) (new env api nativeWindow core gpu) as w :=
  hrun.strengthen (I := Consistent) (.new api nativeWindow core gpu) (fun _ _ _ h _ => h.step)
    fun _ _ _ h hattended _ => h.showsCurrent hattended

/-! ### Runs of a core that plays discs -/

/-- A game shows a frame, which is kept while it is paused and forgotten when the window is
resized. -/
def keptPlay : List ApiCall :=
  [.loadCore "disc", .loadContent (some "game"), .coreThread [.submitFrame 0 1 5],
    .render true, .pause,
    .render true, .resize 32 32, .render true]

/-- A frame is shown, and shown again while the runtime is paused. -/
theorem shows_current_keptPlay :
    ∃ w, Machine.Run (host discPlayer) (ShowsCurrent discPlayer)
      (new discPlayer 0 0 () 0) keptPlay w ∧
      shownFrames w.log = [(0, 5), (0, 5)] := by
  have hend : ∃ w, Machine.Run (host discPlayer) Attended (new discPlayer 0 0 () 0) keptPlay w ∧
      shownFrames w.log = [(0, 5), (0, 5)] := Machine.exists_run (by decide +kernel)
  obtain ⟨w, hrun, hshown⟩ := hend
  exact ⟨w, shows_current 0 0 () 0 hrun, hshown⟩

/-- A game shows a frame and is unloaded. -/
def unloadedPlay : List ApiCall :=
  [.loadCore "disc", .loadContent (some "game"), .coreThread [.submitFrame 0 1 5], .unloadCore]

/-- A game shows a frame and is resized. -/
def resizedPlay : List ApiCall :=
  [.loadCore "disc", .loadContent (some "game"), .coreThread [.submitFrame 0 1 5], .resize 32 32]

/-- The frame of a core that has been unloaded is shown, and after a resize whose allocation failed
the frame of the surfaces before it. -/
theorem shows_stale_frame :
    (∃ w, Machine.Run (host discPlayer) Machine.always (new discPlayer 0 0 () 0) unloadedPlay w ∧
      w.rt.coreLoaded = false ∧ shows w.rt (.render true) = some (0, 5) ∧
      ¬ShowsCurrent discPlayer w (.render true)) ∧
    ∃ w, Machine.Run (host secondFails) Machine.always (new secondFails 0 0 () 0) resizedPlay w ∧
      w.rt.coreLoaded = true ∧ lastAllocateOk w.log = false ∧
        shows w.rt (.render true) = some (0, 5) ∧
      ¬ShowsCurrent secondFails w (.render true) := by
  constructor
  · have hend : ∃ w, Machine.Run (host discPlayer) Machine.always
        (new discPlayer 0 0 () 0) unloadedPlay w ∧ w.rt.coreLoaded = false ∧
          shows w.rt (.render true) = some (0, 5) ∧
          shownFrames ((call discPlayer (.render true)).run w).2.log = [(0, 5)] ++
            shownFrames w.log :=
      Machine.exists_run (by decide +kernel)
    obtain ⟨w, hrun, hloaded, hshows, hlog⟩ := hend
    refine ⟨w, hrun, hloaded, hshows, fun hcurrent => ?_⟩
    have h := (hcurrent _ hlog _ List.mem_cons_self).coreLoaded
    exact nomatch hloaded.symm.trans h
  · have hend : ∃ w, Machine.Run (host secondFails) Machine.always
        (new secondFails 0 0 () 0) resizedPlay w ∧ w.rt.coreLoaded = true ∧
          lastAllocateOk w.log = false ∧ shows w.rt (.render true) = some (0, 5) ∧
          shownFrames ((call secondFails (.render true)).run w).2.log = [(0, 5)] ++
            shownFrames w.log :=
      Machine.exists_run (by decide +kernel)
    obtain ⟨w, hrun, hloaded, hfailed, hshows, hlog⟩ := hend
    refine ⟨w, hrun, hloaded, hfailed, hshows, fun hcurrent => ?_⟩
    have h := (hcurrent _ hlog _ List.mem_cons_self).allocated
    exact nomatch hfailed.symm.trans h

end Runtime

end RetroPark
