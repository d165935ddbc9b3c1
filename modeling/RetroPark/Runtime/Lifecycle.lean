import RetroPark.Runtime.Settled
import RetroPark.Cores.DiscCore

/-!
# The life of an instance

`Phase` follows the calls a host program makes through a core's table: which instance exists and
whether it is started. A trace that breaks the order of these calls has no phase. `lifecycle` shows
that the trace of every run has one, that the loader's state is this phase, and that the destructor
leaves no instance.

A core that has `start` and no `stop` is started again without having been stopped:
`CoreLoader::stop` takes a missing entry point for a stop that succeeded.
-/

namespace RetroPark

/-- The instance that exists, and whether it is started. -/
inductive Phase
  | gone
  | created (core : CorePtr)
  | started (core : CorePtr)
  deriving DecidableEq, Repr

namespace Phase

/-- The instance exists. -/
def holds (core : CorePtr) : Phase → Bool
  | .gone => false
  | .created c | .started c => c = core

/-- What a call makes of a phase, or `none` if it may not be made in it. -/
def next (ph : Phase) : Event → Option Phase
  | .abi (.create core) =>
      if ph = .gone then some (if core = 0 then .gone else .created core) else none
  | .abi (.destroy core) => if ph = .created core then some .gone else none
  | .abi (.setSurfaces core _) => if ph = .created core then some ph else none
  | .abi (.start core r) =>
      if ph = .created core then some (if r = .ok then .started core else ph) else none
  | .abi (.stop core _) => if ph = .started core then some (.created core) else none
  | .abi (.getAvInfo core) | .abi (.runFrame core _ _) | .abi (.serializeSize core)
  | .abi (.serialize core _) | .abi (.unserialize core _) | .abi (.loadContent core _) =>
      if ph.holds core then some ph else none
  | .releaseModule => if ph = .gone then some .gone else none
  | .abi .resolve | .abi .getCoreAbi | .abi .getInfo | .openModule | .submitFrame _ _ _ _
  | .allocateSurfaces _ | .composite _ _ _ => some ph

/-- The phase after the calls of a log, newest first. -/
def ofLog : List Event → Option Phase
  | [] => some .gone
  | e :: es => (ofLog es).bind (·.next e)

theorem next_untracked {e : Event} (he : e.tracked = false) (ph : Phase) : ph.next e = some ph := by
  cases e with
  | abi call => cases call <;> first | rfl | exact nomatch he
  | submitFrame | composite => rfl
  | _ => exact nomatch he

theorem ofLog_filter (es : List Event) : ofLog (es.filter Event.tracked) = ofLog es := by
  induction es with
  | nil => rfl
  | cons e es ih =>
    cases he : e.tracked with
    | true => rw [List.filter_cons_of_pos he, ofLog, ofLog, ih]
    | false =>
      rw [List.filter_cons_of_neg (he ▸ Bool.false_ne_true), ih, ofLog]
      cases ofLog es with
      | none => rfl
      | some ph => exact (next_untracked he ph).symm

/-- Only `create` and `destroy` change which instance exists. -/
theorem holds_next {ph ph' : Phase} {e : Event} (h : ph.next e = some ph') {core : CorePtr}
    (hcore : core ≠ 0) :
    (if e = .abi (.create core) then 1 else 0) + (if ph.holds core then 1 else 0) =
      (if e = .abi (.destroy core) then 1 else 0) + if ph'.holds core then 1 else 0 := by
  cases e with
  | abi call =>
    cases call with
    | create c =>
      -- Nothing exists before a `create`, and `c` alone after it.
      simp only [next, Option.ite_none_right_eq_some, Option.some.injEq] at h
      obtain ⟨rfl, rfl⟩ := h
      by_cases hc : c = core
      · subst hc
        simp [holds, hcore]
      · split_ifs <;> simp_all [holds]
    | destroy c =>
      simp only [next, Option.ite_none_right_eq_some, Option.some.injEq] at h
      obtain ⟨rfl, rfl⟩ := h
      simp [holds]
    | start c r =>
      simp only [next, Option.ite_none_right_eq_some, Option.some.injEq] at h
      obtain ⟨rfl, rfl⟩ := h
      split_ifs <;> simp_all [holds]
    | stop c r =>
      simp only [next, Option.ite_none_right_eq_some, Option.some.injEq] at h
      obtain ⟨rfl, rfl⟩ := h
      simp [holds]
    | resolve | getCoreAbi | getInfo =>
      obtain rfl := Option.some.inj h
      simp
    | _ =>
      simp only [next, Option.ite_none_right_eq_some, Option.some.injEq] at h
      obtain ⟨-, rfl⟩ := h
      simp
  | releaseModule =>
    simp only [next, Option.ite_none_right_eq_some, Option.some.injEq] at h
    obtain ⟨rfl, rfl⟩ := h
    simp
  | _ =>
    obtain rfl := Option.some.inj h
    simp

/-- Every instance that was created has been destroyed once, or still exists. -/
theorem count_create {es : List Event} {ph : Phase} (h : ofLog es = some ph) {core : CorePtr}
    (hcore : core ≠ 0) :
    es.count (.abi (.create core)) =
      es.count (.abi (.destroy core)) + if ph.holds core then 1 else 0 := by
  induction es generalizing ph with
  | nil =>
    obtain rfl := Option.some.inj h
    rfl
  | cons e es ih =>
    obtain ⟨ph₀, h₀, hnext⟩ := Option.bind_eq_some_iff.mp h
    have hholds := holds_next hnext hcore
    rw [List.count_cons, List.count_cons, ih h₀]
    simp only [beq_iff_eq]
    omega

end Phase

namespace CoreLoader

/-- The phase a loader takes its core to be in. -/
def phase (l : CoreLoader) : Phase :=
  match l.state with
  | .unloaded | .loaded => .gone
  | .created => .created l.core
  | .started => .started l.core

/-- The loader's instance and table fit its state. -/
structure Tidy (tables : CoreAbi → Prop) (l : CoreLoader) : Prop where
  noInstance : l.hasInstance = false → l.core = 0
  hasInstance : l.hasInstance = true → l.core ≠ 0
  table : l.state ≠ .unloaded → l.abi.isSome = true ∧ tables l.table
  started : l.state = .started → l.table.start = true

/-- A created loader takes its core to be created. -/
theorem phase_eq_created {l : CoreLoader} (h : l.state = .created) : l.phase = .created l.core := by
  simp [phase, h]

/-- A started loader takes its core to be started. -/
theorem phase_eq_started {l : CoreLoader} (h : l.state = .started) : l.phase = .started l.core := by
  simp [phase, h]

/-- A loader without an instance takes it to be gone. -/
theorem phase_eq_gone {l : CoreLoader} (h : l.hasInstance = false) : l.phase = .gone := by
  cases hstate : l.state <;> simp_all [phase, hasInstance]

/-- A loader with an instance takes it to exist. -/
theorem phase_holds {l : CoreLoader} (h : l.hasInstance = true) : l.phase.holds l.core = true := by
  cases hstate : l.state <;> simp_all [phase, hasInstance, Phase.holds]

end CoreLoader

namespace Runtime

open Program

/-- A table with `create` and `destroy`, and with `stop` if it has `start`. -/
def Complete (abi : CoreAbi) : Prop :=
  abi.create = true ∧ abi.destroy = true ∧ (abi.start = true → abi.stop = true)

/-- The trace is in order, and the loader knows the phase it is in. -/
structure InOrder (c : Control) : Prop where
  tidy : c.view.loader.Tidy Complete
  phase : Phase.ofLog c.calls = some c.view.loader.phase

/-- A call of the trace in the loader's phase. -/
theorem InOrder.push {c : Control} (h : InOrder c) {e : Event} {ph : Phase}
    (hnext : c.view.loader.phase.next e = some ph) : Phase.ofLog (e :: c.calls) = some ph := by
  rw [Phase.ofLog, h.phase]
  exact hnext

/-- Quiet calls keep the trace in order. -/
theorem InOrder.quiet {c c' : Control} (h : InOrder c) (hquiet : Control.Quiet c c') :
    InOrder c' := by
  obtain ⟨hview, es, hcalls, huses⟩ := hquiet
  refine ⟨hview ▸ h.tidy, ?_⟩
  rw [hcalls, hview]
  clear hcalls hview
  induction es with
  | nil => exact h.phase
  | cons e es ih =>
    have hes := ih fun e he => huses e (List.mem_cons_of_mem _ he)
    obtain ⟨hinstance, he⟩ := huses e (List.mem_cons_self ..)
    rw [List.cons_append, Phase.ofLog, hes]
    have hholds := CoreLoader.phase_holds hinstance
    rcases he with ⟨_, _, rfl⟩ | rfl | ⟨_, rfl⟩ | ⟨_, rfl⟩ <;> exact if_pos hholds

/-- `CoreLoader::destroy` stops a started instance and destroys it. -/
theorem InOrder.destroyed {c : Control} (h : InOrder c) (r : RpResult) :
    Phase.ofLog
        ((if c.view.loader.core ≠ 0 && c.view.loader.abi.isSome && c.view.loader.table.destroy then
            [.abi (.destroy c.view.loader.core)] else []) ++
          (if c.view.loader.state = .started ∧ c.view.loader.table.stop = true then
            [.abi (.stop c.view.loader.core r)] else []) ++ c.calls) = some .gone := by
  cases hstate : c.view.loader.state with
  -- No instance: neither of the two calls is made.
  | unloaded | loaded =>
    have hnone : c.view.loader.hasInstance = false := by simp [CoreLoader.hasInstance, hstate]
    have hphase := h.phase.trans (congrArg some (CoreLoader.phase_eq_gone hnone))
    simpa [h.tidy.noInstance hnone] using hphase
  | created =>
    have hcore := h.tidy.hasInstance (by simp [CoreLoader.hasInstance, hstate])
    obtain ⟨habi, -, hdestroy, -⟩ := h.tidy.table (by simp [hstate])
    have hphase : c.view.loader.phase.next (.abi (.destroy c.view.loader.core)) = some .gone :=
      if_pos (CoreLoader.phase_eq_created hstate)
    simpa [hcore, habi, hdestroy] using h.push hphase
  -- The instance is stopped first, so the destroy comes in phase `created`.
  | started =>
    have hcore := h.tidy.hasInstance (by simp [CoreLoader.hasInstance, hstate])
    obtain ⟨habi, -, hdestroy, hstop⟩ := h.tidy.table (by simp [hstate])
    have hstopped : c.view.loader.phase.next (.abi (.stop c.view.loader.core r)) =
        some (.created c.view.loader.core) := if_pos (CoreLoader.phase_eq_started hstate)
    have hphase : Phase.ofLog (.abi (.destroy c.view.loader.core) ::
        .abi (.stop c.view.loader.core r) :: c.calls) = some .gone := by
      rw [Phase.ofLog, h.push hstopped]
      exact if_pos rfl
    simpa [hcore, habi, hdestroy, hstop (h.tidy.started hstate)] using hphase

/-- A core that is loaded has no instance yet. -/
theorem InOrder.load {c c' : Control} {module : Bool} {r : RpResult} (h : InOrder c)
    (hstep : Op.Step Complete (.load module) c r c') : InOrder c' := by
  by_cases hr : r = .ok
  · obtain ⟨hunloaded, -, abi, habi, rfl⟩ := (if_pos hr).mp hstep
    have hnone : c.view.loader.hasInstance = false := by simp [CoreLoader.hasInstance, hunloaded]
    refine ⟨⟨fun _ => h.tidy.noInstance hnone, by rintro ⟨⟩, fun _ => ⟨rfl, habi⟩, by rintro ⟨⟩⟩,
      ?_⟩
    exact h.phase.trans (congrArg some (CoreLoader.phase_eq_gone hnone))
  · obtain rfl := (if_neg hr).mp hstep
    exact h

/-- An instance is created only where there is none. -/
theorem InOrder.create {c c' : Control} {r : RpResult} (h : InOrder c)
    (hstep : Op.Step Complete .create c r c') : InOrder c' := by
  by_cases hcan : c.view.loader.state = .loaded ∧ c.view.loader.table.create = true
  · obtain ⟨p, -, rfl⟩ := (if_pos hcan).mp hstep
    have hgone : c.view.loader.phase = .gone :=
      CoreLoader.phase_eq_gone (by simp [CoreLoader.hasInstance, hcan.1])
    have htable := h.tidy.table (by simp [hcan.1])
    -- A core may return a null instance; the loader then stays `loaded`.
    refine ⟨⟨?_, ?_, fun _ => htable, ?_⟩, (h.push (e := .abi (.create p)) (if_pos hgone)).trans ?_⟩
    all_goals by_cases hp : p = 0 <;>
      simp [hp, CoreLoader.hasInstance, CoreLoader.phase, Control.push, Control.withLoader]
  · obtain ⟨-, rfl⟩ := (if_neg hcan).mp hstep
    exact h

/-- A created instance is started, or stays created. -/
theorem InOrder.start {c c' : Control} {r : RpResult} (h : InOrder c)
    (hstep : Op.Step Complete .start c r c') : InOrder c' := by
  have hlaunched : Launched c r c' := .of_step hstep
  cases hlaunched with
  | started hcreated htable =>
    have hinstance : c.view.loader.hasInstance = true := by simp [CoreLoader.hasInstance, hcreated]
    refine ⟨⟨by rintro ⟨⟩, fun _ => h.tidy.hasInstance hinstance, fun _ => ?_, fun _ => htable⟩, ?_⟩
    · exact h.tidy.table (by simp [hcreated])
    · exact h.push (if_pos (CoreLoader.phase_eq_created hcreated))
  -- A start that fails leaves the instance created, and so does the trace.
  | failed hr hcreated _ =>
    have hnext : c.view.loader.phase.next (.abi (.start c.view.loader.core r)) =
        some c.view.loader.phase := by
      simp [Phase.next, CoreLoader.phase_eq_created hcreated, hr]
    exact ⟨h.tidy, h.push hnext⟩
  | missing => exact h

/-- A started instance has a `stop`, for its table is complete. -/
theorem InOrder.stop {c c' : Control} {r : RpResult} (h : InOrder c)
    (hstep : Op.Step Complete .stop c r c') : InOrder c' := by
  by_cases hstarted : c.view.loader.state = .started
  · have hinstance : c.view.loader.hasInstance = true := by simp [CoreLoader.hasInstance, hstarted]
    obtain ⟨habi, htable⟩ := h.tidy.table (by simp [hstarted])
    have hstop : c.view.loader.table.stop = true := htable.2.2 (h.tidy.started hstarted)
    replace hstep := (if_pos hstarted).mp hstep
    rw [if_pos hstop] at hstep
    subst hstep
    refine ⟨⟨by rintro ⟨⟩, fun _ => h.tidy.hasInstance hinstance, fun _ => ⟨habi, htable⟩,
      by rintro ⟨⟩⟩, ?_⟩
    exact h.push (if_pos (CoreLoader.phase_eq_started hstarted))
  · obtain rfl := (if_neg hstarted).mp hstep
    exact h

/-- Surfaces are handed to a created instance. -/
theorem InOrder.handSurfaces {c c' : Control} {descs : List SurfaceDesc} {r : RpResult}
    (h : InOrder c)
    (hstep : Op.Step Complete (.handSurfaces descs) c r c') : InOrder c' := by
  by_cases hpresenting : c.view.coreType = .presenting ∧ c.view.loader.state = .created
  · replace hstep := (if_pos hpresenting).mp hstep
    by_cases htable : c.view.loader.table.setSurfaces = true
    · obtain rfl := (if_pos htable).mp hstep
      exact ⟨h.tidy, h.push (if_pos (CoreLoader.phase_eq_created hpresenting.2))⟩
    · obtain ⟨-, rfl⟩ := (if_neg htable).mp hstep
      exact h
  · obtain ⟨-, rfl⟩ := (if_neg hpresenting).mp hstep
    exact h

/-- Every call that leaves the module alone while an instance lives keeps the trace in order. -/
theorem InOrder.step {i : Op} {c c' : Control} {r : i.Answer} (h : InOrder c) (hcalm : i.Calm c)
    (hstep : Op.Step Complete i c r c') : InOrder c' := by
  cases i with
  | edit e =>
    obtain rfl := hstep
    have hloader := e.effect_loader c.view
    exact ⟨by rw [hloader]; exact h.tidy, by rw [hloader]; exact h.phase⟩
  | view =>
    obtain ⟨-, rfl⟩ := hstep
    exact h
  | holdModule =>
    obtain rfl := hstep
    exact ⟨h.tidy, h.push rfl⟩
  -- Only the module is released here; `hcalm` says that no instance is left behind it.
  | resetModule =>
    have hgone := CoreLoader.phase_eq_gone hcalm
    simp only [Op.Step] at hstep
    split_ifs at hstep
    · subst hstep
      exact ⟨h.tidy, (h.push (e := .releaseModule) (if_pos hgone)).trans (congrArg some hgone.symm)⟩
    · exact hstep ▸ h
  | load module => exact h.load hstep
  | create => exact h.create hstep
  | handSurfaces descs => exact h.handSurfaces hstep
  | start => exact h.start hstep
  | stop => exact h.stop hstep
  | destroy =>
    obtain ⟨r, rfl⟩ := hstep
    exact ⟨⟨fun _ => rfl, by rintro ⟨⟩, fun hstate => (hstate rfl).elim, by rintro ⟨⟩⟩,
      h.destroyed r⟩
  | getAvInfo =>
    by_cases hcan : c.view.loader.hasInstance = true ∧ c.view.loader.table.getAvInfo = true
    · obtain ⟨-, rfl⟩ := (if_pos hcan).mp hstep
      exact ⟨h.tidy, h.push (if_pos (CoreLoader.phase_holds hcan.1))⟩
    · obtain ⟨-, rfl⟩ := (if_neg hcan).mp hstep
      exact h
  | loadContent path =>
    by_cases hcan : c.view.loader.hasInstance = true ∧ c.view.loader.table.loadContent = true
    · obtain rfl := (if_pos hcan).mp hstep
      exact ⟨h.tidy, h.push (if_pos (CoreLoader.phase_holds hcan.1))⟩
    · obtain ⟨-, rfl⟩ := (if_neg hcan).mp hstep
      exact h
  | initBackend width height =>
    obtain rfl := hstep
    exact ⟨h.tidy, h.phase⟩
  | allocateSurfaces =>
    obtain rfl := hstep
    exact ⟨h.tidy, h.push rfl⟩
  | quiet a => exact h.quiet (hstep hcalm)
  -- The other operations neither call the core nor touch the loader.
  | _ => exact hstep ▸ h

variable {κ β : Type} {env : Env κ β}

/-- Every call of the runtime keeps the trace in order. -/
theorem call_inOrder (a : ApiCall) {c : Control} (hc : Settled c.view) (h : InOrder c) :
    Always (Op.Step Complete) Op.Calm (fun _ c' => InOrder c') (Script.call a) c :=
  ((call_settled a hc).keep h fun _ _ _ _ hcalm h hstep => h.step hcalm hstep).mono fun _ _ h => h.2

/-- In every run the trace is in order and a core is loaded exactly when its instance exists; after
the destructor's `unload_core` no instance is left, and each that was created has been destroyed
once. -/
theorem lifecycle (htables : Provides env Complete) (api : GraphicsApi)
    (nativeWindow : ℕ) (core : κ)
    (gpu : β) {as : List ApiCall} {w : World κ β}
    (hrun : Machine.Run (host env) Machine.always (new env api nativeWindow core gpu) as w) :
    (Phase.ofLog w.log = some w.rt.loader.phase ∧
        (w.rt.coreLoaded = true ↔ w.rt.loader.state = .created ∨ w.rt.loader.state = .started)) ∧
      Phase.ofLog ((call env .unloadCore).run w).2.log = some .gone ∧
      ∀ p ≠ 0, ((call env .unloadCore).run w).2.log.count (.abi (.create p)) =
        ((call env .unloadCore).run w).2.log.count (.abi (.destroy p)) := by
  obtain ⟨hvacant, hcalls, hloader⟩ := new_control env api nativeWindow core gpu
  have hstart : InOrder (new env api nativeWindow core gpu).control := by
    refine ⟨?_, ?_⟩
    · rw [hloader]
      exact ⟨fun _ => rfl, nofun, fun hstate => (hstate rfl).elim, nofun⟩
    · rw [hloader, hcalls]
      rfl
  -- The scripts of all calls keep the trace in order.
  have hinv : ∀ {as w}, Machine.Run (host env) (fun _ _ => True)
      (new env api nativeWindow core gpu) as w → Settled w.rt.view ∧ InOrder w.control :=
    fun hrun => (host_run (C := fun _ _ => True) htables (fun a c hc h _ => call_inOrder a hc h)
      hvacant.settled hstart hrun).2
  have hrun' : Machine.Run (host env) (fun _ _ => True) (new env api nativeWindow core gpu) as w :=
    hrun.weaken fun _ _ _ => trivial
  obtain ⟨hsettled, horder⟩ := hinv hrun'
  refine ⟨⟨?_, ?_⟩, ?_⟩
  · exact (Phase.ofLog_filter w.log).symm.trans horder.phase
  · rw [← CoreLoader.hasInstance_iff]
    refine ⟨hsettled.hasInstance, fun hinstance => ?_⟩
    -- An unloaded runtime has no instance.
    by_contra hunloaded
    have hnone := (hsettled.vacant ((Bool.not_eq_true _).mp hunloaded)).noInstance
    exact nomatch hnone.symm.trans hinstance
  · have hend : InOrder ((call env .unloadCore).run w).2.control :=
      (hinv (hrun'.append (.cons trivial rfl (.nil _)))).2
    have hgone : Phase.ofLog ((call env .unloadCore).run w).2.log = some .gone := by
      rw [← Phase.ofLog_filter]
      exact hend.phase.trans
        (congrArg some (CoreLoader.phase_eq_gone (unloadCore_vacant htables hsettled).noInstance))
    exact ⟨hgone, fun p hp => Phase.count_create hgone hp⟩

/-! ### Runs of a core that plays discs -/

/-- The core with all entry points, on a backend that always allocates. -/
def completePlayer : Env Unit ℕ :=
  DiscCore.env DiscCore.fullTable (fun path => path = "game") (fun _ => false)

/-- A disc is played, the window is resized, and the core is rebooted. -/
def playAndReboot : List ApiCall :=
  [.loadCore "disc", .loadContent (some "game"), .resize 32 32, .reset]

/-- The core with all entry points is complete. -/
theorem provides_complete : Provides completePlayer Complete := by
  rintro k abi habi
  obtain rfl := Option.some.inj habi
  exact ⟨rfl, rfl, fun _ => rfl⟩

/-- A rebooted core is started, in the phase of its trace. -/
theorem lifecycle_playAndReboot :
    ∃ w, Machine.Run (host completePlayer) Machine.always (new completePlayer 0 0 () 0)
      playAndReboot w ∧
      w.rt.loader.state = .started ∧ Phase.ofLog w.log = some w.rt.loader.phase := by
  have hend : ∃ w, Machine.Run (host completePlayer) Machine.always
      (new completePlayer 0 0 () 0) playAndReboot w ∧ w.rt.loader.state = .started :=
    Machine.exists_run (by decide +kernel)
  obtain ⟨w, hrun, hstarted⟩ := hend
  exact ⟨w, hrun, hstarted, (lifecycle provides_complete 0 0 () 0 hrun).1.1⟩

/-- A core with `create`, `destroy` and `start`, and without `stop`. -/
def unstoppable : Env Unit ℕ :=
  DiscCore.env { DiscCore.fullTable with stop := false, loadContent := false } (fun _ => false)
    (fun _ => false)

/-- A resize hands it surfaces and starts it while it is started. -/
theorem started_twice :
    Provides unstoppable (fun abi => abi.create = true ∧ abi.destroy = true) ∧
      ∃ w, Machine.Run (host unstoppable) Machine.always (new unstoppable 0 0 () 0)
          [.loadCore "disc", .resize 32 32] w ∧
        w.log.take 5 = [.abi (.start 1 .ok), .abi (.setSurfaces 1 .ok), .allocateSurfaces .ok,
          .abi (.start 1 .ok), .abi (.setSurfaces 1 .ok)] ∧
        Phase.ofLog w.log = none := by
  refine ⟨?_, _,
    .cons trivial rfl (.cons trivial rfl (.nil _)), by decide +kernel, by decide +kernel⟩
  rintro k abi habi
  obtain rfl := Option.some.inj habi
  exact ⟨rfl, rfl⟩

end Runtime

end RetroPark
