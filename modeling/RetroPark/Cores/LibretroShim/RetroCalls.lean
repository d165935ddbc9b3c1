import RetroPark.Cores.LibretroShim.Callbacks

/-!
# The calls of the shim

`libretro.h` says in which order the functions of a libretro core may be called: the environment
before `retro_init`, the other callbacks before a game is run, one game at a time, the geometry only
while there is a game, and the game is unloaded before `retro_deinit`. A core that draws with OpenGL
may use its context between `context_reset` and `context_destroy` and must find it current.

* `RetroState` follows the log of the shim and has no next state for a call that breaks these rules.
  The shim goes on when its context cannot be made current: `RetroState.excusing` lets that pass;
* `Makes es m` says that a program of the shim makes the calls `es`, whatever the libretro core does
  in between, and `shRunFrame_calls` and its like what calls each function of the shim makes;
* `Loads` says what is left behind where content is loaded, or fails to be.
-/

namespace RetroPark.LibretroShim

/-- What has been done with the libretro core. -/
structure RetroState where
  /-- The library is loaded. -/
  loaded : Bool := false
  /-- It has the environment callback, and these others. -/
  environment : Bool := false
  callbacks : List Symbol := []
  initialised : Bool := false
  game : Bool := false
  /-- There is an OpenGL context for the game, and the core has been told. -/
  context : Bool := false
  told : Bool := false
  /-- The context is current. -/
  current : Bool := false
  deriving DecidableEq

namespace RetroState

/-- The callbacks other than the environment. -/
def otherCallbacks : List Symbol :=
  [.setVideoRefresh, .setInputPoll, .setInputState, .setAudioSample, .setAudioSampleBatch]

def ready (s : RetroState) : Bool := otherCallbacks.all (· ∈ s.callbacks)

/-- The core finds its context. -/
def inContext (s : RetroState) : Bool := !s.context || s.current

/-- The state after a call, or `none` if the call may not be made. -/
def next (s : RetroState) : RetroEvent → Option RetroState
  -- The host may have made its own context current.
  | .called => some { s with current := false }
  | .loadLibrary => if !s.loaded then some { loaded := true } else none
  | .freeLibrary => if s.loaded && !s.initialised && !s.game then some {} else none
  | .missing _ => none
  | .apiVersion | .getSystemInfo => if s.loaded then some s else none
  | .setEnvironment =>
      if s.loaded && !s.initialised then some { s with environment := true } else none
  | .setCallback c => if s.loaded then some { s with callbacks := c :: s.callbacks } else none
  | .init =>
      if s.loaded && s.environment && !s.initialised then some { s with initialised := true }
      else none
  | .deinit =>
      if s.initialised && !s.game && s.inContext then some { s with initialised := false } else none
  | .getSystemAvInfo => if s.game then some s else none
  | .loadGame loaded =>
      if s.initialised && s.ready && !s.game then some { s with game := loaded } else none
  | .unloadGame => if s.game && !s.told && s.inContext then some { s with game := false } else none
  | .run => if s.game && s.ready && s.inContext then some s else none
  | .serializeSize | .serialize | .unserialize => if s.initialised then some s else none
  | .setup done =>
      if s.game && !s.context then some { s with context := done, current := done } else none
  | .makeCurrent done => if s.context then some { s with current := done } else none
  | .contextReset =>
      if s.context && s.current && !s.told then some { s with told := true } else none
  | .contextDestroy =>
      if s.context && s.current && s.told then some { s with told := false } else none
  | .video _ => some s

/-- The state after the calls of a log, the newest first. -/
def after (s : RetroState) : List RetroEvent → Option RetroState
  | [] => some s
  | e :: es => (s.after es).bind (·.next e)

/-- The state after two logs is the state the second leads to from the first. -/
theorem after_append (s : RetroState) (es es' : List RetroEvent) :
    s.after (es' ++ es) = (s.after es).bind (·.after es') := by
  induction es' with
  | nil => exact (Option.bind_fun_some _).symm
  | cons e es' ih =>
    rw [List.cons_append, after, ih, Option.bind_assoc]
    rfl

end RetroState

/-- The call, had the context been made current. -/
def RetroEvent.excused : RetroEvent → RetroEvent
  | .makeCurrent _ => .makeCurrent true
  | e => e

namespace RetroState

/-- The state after the calls of a log, where the shim is excused if its context could not be made
current. -/
def excusing (s : RetroState) (es : List RetroEvent) : Option RetroState :=
  s.after (es.map .excused)

/-- The same for the state that excuses a context that is not current. -/
theorem excusing_append (s : RetroState) (es es' : List RetroEvent) :
    s.excusing (es' ++ es) = (s.excusing es).bind (·.excusing es') := by
  rw [excusing, List.map_append, after_append]
  rfl

/-- There is nothing to excuse if the context could always be made current. -/
theorem excusing_of_current (s : RetroState) {es : List RetroEvent}
    (h : .makeCurrent false ∉ es) : s.excusing es = s.after es := by
  refine congrArg s.after ((List.map_congr_left fun e he => ?_).trans (List.map_id es))
  cases e with
  | makeCurrent done =>
    cases done with
    | false => exact absurd he h
    | true => rfl
  | _ => rfl

/-- Frames do not matter. -/
theorem excusing_videos (s : RetroState) (fs : List VideoFrame) :
    s.excusing (fs.map RetroEvent.video) = some s := by
  induction fs with
  | nil => rfl
  | cons f fs ih =>
    rw [List.map_cons, ← List.singleton_append, excusing_append, ih]
    rfl

/-- The state of a core that the shim has initialised. -/
def running (game context current : Bool) : RetroState :=
  { loaded := true, environment := true, callbacks := otherCallbacks.reverse,
    initialised := true, game, context, told := context, current }

end RetroState

variable {Λ α γ : Type} {P : Platform Λ}

/-- Between `s` and `s'` the shim has logged the calls `es`, the newest first, and maybe some
frames. Whether its context could be made current is left open. -/
def Logged (es : List RetroEvent) (s s' : Frontend Λ) : Prop :=
  ∃ es₀, s'.log = es₀ ++ s.log ∧ ∀ st : RetroState, st.excusing es₀ = st.excusing es

/-- One log after another is logged. -/
theorem Logged.trans {es es' : List RetroEvent} {s s' s'' : Frontend Λ} (h : Logged es s s')
    (h' : Logged es' s' s'') : Logged (es' ++ es) s s'' := by
  obtain ⟨es₀, hlog, hes⟩ := h
  obtain ⟨es₁, hlog', hes'⟩ := h'
  refine ⟨es₁ ++ es₀, ?_, fun st => ?_⟩
  · rw [hlog', hlog, List.append_assoc]
  · rw [RetroState.excusing_append, RetroState.excusing_append, hes]
    exact congrArg _ (funext hes')

/-- It has kept its game and its framebuffer, too. -/
structure Calls (es : List RetroEvent) (s s' : Frontend Λ) : Prop where
  logged : Logged es s s'
  gameLoaded : s'.inst.gameLoaded = s.inst.gameLoaded
  hw : s'.inst.hw.isSome = s.inst.hw.isSome

/-- Wherever it starts, the shim makes the calls `es`. -/
def Makes (es : List RetroEvent) (m : FrontendM Λ α) : Prop := ∀ s, Calls es s (m.run s).2

namespace Calls

variable {es es' : List RetroEvent} {s s' s'' : Frontend Λ}

/-- No call is made in no time. -/
theorem refl (s : Frontend Λ) : Calls [] s s := ⟨⟨[], rfl, fun _ => rfl⟩, rfl, rfl⟩

/-- The calls of two parts are made one after another. -/
theorem trans (h : Calls es s s') (h' : Calls es' s' s'') : Calls (es' ++ es) s s'' :=
  ⟨h.logged.trans h'.logged, h'.gameLoaded.trans h.gameLoaded, h'.hw.trans h.hw⟩

/-- Callbacks are no calls. -/
theorem of_served (h : Served s s') : Calls [] s s' := by
  obtain ⟨fs, -, hlog, -⟩ := h.delivered
  exact ⟨⟨_, hlog, fun st => st.excusing_videos fs⟩, h.gameLoaded, h.hw⟩

/-- A call that is noted is made. -/
theorem note (e : RetroEvent) (s : Frontend Λ) : Calls [e] s { s with log := e :: s.log } :=
  ⟨⟨[e], rfl, fun _ => rfl⟩, rfl, rfl⟩

/-- The attempt to make the context current is made. -/
theorem makeCurrent (done : Bool) (s : Frontend Λ) :
    Calls [.makeCurrent true] s { s with log := .makeCurrent done :: s.log } :=
  ⟨⟨[.makeCurrent done], rfl, fun _ => rfl⟩, rfl, rfl⟩

end Calls

namespace Makes

variable {es es' : List RetroEvent}

/-- A program that returns makes no calls. -/
theorem pure (a : α) : Makes [] (pure a : FrontendM Λ α) := Calls.refl

/-- Noting a call makes it. -/
theorem note (e : RetroEvent) : Makes [e] (note e : FrontendM Λ Unit) := Calls.note e

/-- Making the context current makes that attempt. -/
theorem makeCurrent : Makes [.makeCurrent true] (makeCurrent P) :=
  fun s => Calls.makeCurrent (P.makeCurrent s.log) s

/-- A function of the libretro core makes no calls of the shim. -/
theorem runEntry (ports : Option (InputState × InputState)) (entry : Entry Λ α) :
    Makes [] (runEntry P ports entry) :=
  fun s => .of_served (runEntry_served P ports entry s)

/-- A program makes the calls of its parts. -/
theorem bind {m : FrontendM Λ α} {f : α → FrontendM Λ γ} (h : Makes es m)
    (hf : ∀ a, Makes es' (f a)) : Makes (es' ++ es) (m >>= f) :=
  fun s => (h s).trans (hf (m.run s).1 (m.run s).2)

/-- A function that is noted and run makes its own call. -/
theorem runNoted (entry : Entry Λ Unit) (e : RetroEvent) : Makes [e] (runNoted P entry e) :=
  (runEntry none entry).bind fun _ => note e

/-- `sh_get_av_info` asks for the geometry. -/
theorem shGetAvInfo : Makes [.getSystemAvInfo] (shGetAvInfo P) :=
  (runEntry none P.library.getSystemAvInfo).bind fun _ => (note _).bind fun _ => pure _

/-- `sh_serialize_size` asks for the size of a savestate. -/
theorem shSerializeSize (h : ∀ s, P.library.exports s = true) :
    Makes [.serializeSize] (shSerializeSize P) := by
  simp only [LibretroShim.shSerializeSize, h, if_true]
  exact (runEntry none P.library.serializeSize).bind fun _ => (note _).bind fun _ => pure _

/-- `sh_serialize` takes a savestate. -/
theorem shSerialize (h : ∀ s, P.library.exports s = true) (size : ℕ) :
    Makes [.serialize] (shSerialize P size) := by
  simp only [LibretroShim.shSerialize, h, if_true]
  exact (runEntry none (P.library.serialize size)).bind fun _ => (note _).bind fun _ => pure _

/-- `sh_unserialize` restores a savestate. -/
theorem shUnserialize (h : ∀ s, P.library.exports s = true) (data : Blob) :
    Makes [.unserialize] (shUnserialize P data) := by
  simp only [LibretroShim.shUnserialize, h, if_true]
  exact (runEntry none (P.library.unserialize data)).bind fun _ => (note _).bind fun _ => pure _

/-- The calls of `sh_create`. -/
theorem shCreate (h : ∀ s, P.library.exports s = true) :
    Makes (if P.library.isComplete then
        .init :: RetroState.otherCallbacks.reverse.map .setCallback ++
          [.setEnvironment, .apiVersion, .loadLibrary]
      else [.freeLibrary, .apiVersion, .loadLibrary]) (shCreate P) := by
  simp only [LibretroShim.shCreate, h, if_true, setCallback]
  by_cases hcomplete : P.library.isComplete = true
  · simp only [hcomplete, if_true, Bool.not_true, Bool.false_eq_true, if_false]
    exact (note _).bind fun _ => (note _).bind fun _ => (runNoted _ _).bind fun _ =>
      (note _).bind fun _ => (note _).bind fun _ => (note _).bind fun _ => (note _).bind fun _ =>
        (note _).bind fun _ => (runNoted _ _).bind fun _ => pure _
  · simp only [hcomplete, Bool.not_false, if_true, Bool.false_eq_true, if_false]
    exact (note _).bind fun _ => (note _).bind fun _ => (note _).bind fun _ => pure _

/-- The core, if it wants to know, is told of its context. -/
theorem told {k : FrontendM Λ α} (hk : Makes es k) (entry : Entry Λ Unit)
    (e : RetroEvent) (c : Prop)
    [Decidable c] : Makes (es ++ [e])
      (if c then do
        LibretroShim.runEntry P none entry
        LibretroShim.note e
        k
      else do
        LibretroShim.note e
        k) := by
  have hnote : Makes (es ++ [e]) (do LibretroShim.note e; k) := (Makes.note e).bind fun _ => hk
  split_ifs
  · exact List.append_nil (es ++ [e]) ▸ (Makes.runEntry none entry).bind fun _ => hnote
  · exact hnote

end Makes

/-! ### The functions of the shim -/

/-- A program that reads the state first makes the calls it then makes. -/
theorem calls_get {es : List RetroEvent} {f : Frontend Λ → FrontendM Λ α} {s : Frontend Λ}
    (h : Calls es s ((f s).run s).2) : Calls es s ((get >>= f).run s).2 := h

/-- The calls of `sh_run_frame`. -/
def runFrameCalls (game context : Bool) : List RetroEvent :=
  if game then .run :: if context then [.makeCurrent true] else [] else []

/-- The calls of a frame are in order and leave a game and a context as they were. -/
theorem after_runFrameCalls {game context : Bool} (h : context = true → game = true) :
    ∃ current, (RetroState.running game context false).excusing (runFrameCalls game context) =
      some (.running game context current) := by
  cases game with
  | false =>
    cases context with
    | false => exact ⟨false, rfl⟩
    | true => cases h rfl
  | true =>
    cases context with
    | false => exact ⟨false, rfl⟩
    | true => exact ⟨true, rfl⟩

/-- What `sh_run_frame` calls. -/
theorem shRunFrame_calls (port0 port1 : InputState) (s : Frontend Λ) :
    Calls (runFrameCalls s.inst.gameLoaded s.inst.hw.isSome) s
      ((shRunFrame P port0 port1).run s).2 := by
  have hrun : Makes [.run] (do runEntry P (some (port0, port1)) P.library.run; note .run) :=
    (Makes.runEntry _ P.library.run).bind fun _ => .note _
  cases hgame : s.inst.gameLoaded with
  | false =>
    rw [shRunFrame_idle P hgame]
    exact .refl s
  | true =>
    rw [shRunFrame_run P hgame, Frontend.current]
    cases s.inst.hw.isSome with
    | false => exact hrun s
    | true => exact (Calls.makeCurrent (P.makeCurrent s.log) s).trans (hrun _)

/-- The calls of `sh_destroy`. -/
def destroyCalls (game context : Bool) : List RetroEvent :=
  [.freeLibrary, .deinit] ++ ((if game then [.unloadGame] else []) ++
    if context then [.contextDestroy, .makeCurrent true] else [])

/-- Nothing is left of the core. -/
theorem after_destroyCalls {game context : Bool} (h : context = true → game = true) :
    (RetroState.running game context false).excusing (destroyCalls game context) = some {} := by
  cases game with
  | false =>
    cases context with
    | false => rfl
    | true => cases h rfl
  | true => cases context <;> rfl

/-- What `sh_destroy` calls. -/
theorem shDestroy_calls (h : ∀ s, P.library.exports s = true) (s : Frontend Λ) :
    Calls (destroyCalls s.inst.gameLoaded s.inst.hw.isSome) s ((shDestroy P).run s).2 := by
  have hlast : Makes [.freeLibrary, .deinit] (do
      runNoted P P.library.deinit .deinit
      note .freeLibrary) :=
    (Makes.runNoted _ _).bind fun _ => .note _
  have hunload : Makes [.freeLibrary, .deinit, .unloadGame] (do
      runNoted P P.library.unloadGame .unloadGame
      runNoted P P.library.deinit .deinit
      note .freeLibrary) :=
    (Makes.runNoted _ _).bind fun _ => hlast
  simp only [shDestroy, h, if_true, Bool.and_true]
  refine calls_get ?_
  cases s.inst.gameLoaded <;> cases s.inst.hw.isSome <;>
    simp only [if_true, if_false, Bool.false_eq_true]
  · exact hlast s
  · exact Makes.makeCurrent.bind (fun _ => hlast.told _ _ _) s
  · exact hunload s
  · exact Makes.makeCurrent.bind (fun _ => hunload.told _ _ _) s

/-- How the context is set up for a game that was just loaded. -/
inductive SetsUp (s : Frontend Λ) (r : RpResult × Frontend Λ) : Prop
  | failed (hr : r.1 = .device)
      (hlogged : Logged [.unloadGame, .setup false, .getSystemAvInfo] s r.2)
      (hgame : r.2.inst.gameLoaded = false) (hhw : r.2.inst.hw = none)
  | done (hr : r.1 = .ok)
      (hlogged : Logged [.contextReset, .makeCurrent true, .setup true, .getSystemAvInfo] s r.2)
      (hgame : r.2.inst.gameLoaded = true) (hhw : r.2.inst.hw.isSome = true)

/-- What holds of the rest of a program after its head holds of the program. -/
theorem run_bind {p : γ × Frontend Λ → Prop} {m : FrontendM Λ α} {f : α → FrontendM Λ γ}
    {s : Frontend Λ} (h : p ((f (m.run s).1).run (m.run s).2)) : p ((m >>= f).run s) := h

/-- What the set-up of a context calls, and when it succeeds. -/
theorem setupHw_setsUp (h : ∀ s, P.library.exports s = true) {s : Frontend Λ}
    (hgame : s.inst.gameLoaded = true) : SetsUp s ((setupHw P).run s) := by
  have hav := Makes.shGetAvInfo (P := P) s
  simp only [setupHw, h, if_true]
  refine run_bind (p := SetsUp s) (run_bind (p := SetsUp s) ?_)
  show SetsUp s (StateT.run (_ : FrontendM Λ RpResult) ((shGetAvInfo P).run s).2)
  generalize ((shGetAvInfo P).run s).2 = s₁ at hav ⊢
  generalize P.setupHw _ _ _ = framebuffer
  cases framebuffer with
  | none =>
    -- Without a framebuffer the game is unloaded again.
    have hunload := (Calls.note (.setup false) s₁).trans
      (Makes.runNoted (P := P) P.library.unloadGame .unloadGame _)
    exact .failed rfl (hav.trans hunload).logged rfl rfl
  | some hw =>
    let s₂ : Frontend Λ :=
      { s₁ with
        inst := { s₁.inst with hw := some hw }
        log := .makeCurrent (P.makeCurrent (.setup true :: s₁.log)) :: .setup true :: s₁.log }
    have hmade : Logged [.makeCurrent true, .setup true] s₁ s₂ :=
      ⟨[.makeCurrent (P.makeCurrent (.setup true :: s₁.log)), .setup true], rfl, fun _ => rfl⟩
    have htold := (Makes.pure RpResult.ok).told (P := P) P.library.contextReset .contextReset
      (s₂.inst.hwCb.contextReset = true) s₂
    refine .done ?_ (hav.logged.trans (hmade.trans htold.logged)) ?_ ?_
    · show (StateT.run (if s₂.inst.hwCb.contextReset = true then _ else _ : FrontendM Λ RpResult)
        s₂).1 = _
      split_ifs <;> rfl
    · exact htold.gameLoaded.trans (hav.gameLoaded.trans hgame)
    · exact htold.hw

/-- Content is loaded, or not, while there is no game. -/
structure Loads (s : Frontend Λ) (r : RpResult × Frontend Λ) : Prop where
  logged : ∃ es current, Logged es s r.2 ∧ (RetroState.running false false false).excusing es =
    some (.running r.2.inst.gameLoaded r.2.inst.hw.isSome current)
  gameLoaded : r.2.inst.hw.isSome = true → r.2.inst.gameLoaded = true
  ok : r.1 = .ok → r.2.inst.gameLoaded = true

/-- What `sh_load_content` calls, and when it succeeds. -/
theorem shLoadContent_loads (h : ∀ s, P.library.exports s = true) {s : Frontend Λ}
    (hgame : s.inst.gameLoaded = false) (hhw : s.inst.hw = none) (path : String) :
    Loads s ((shLoadContent P path).run s) := by
  have hnone : ∀ {r : RpResult}, r ≠ .ok → Loads s (r, s) := fun hr =>
    ⟨⟨[], false, (Calls.refl s).logged, by rw [hgame, hhw]; rfl⟩, by simp [hhw],
      fun hok => (hr hok).elim⟩
  unfold shLoadContent
  by_cases hpath : path = ""
  · rw [if_pos hpath]
    exact hnone (by decide)
  rw [if_neg hpath]
  cases P.files path with
  | none => exact hnone (by decide)
  | some rom =>
    let s₁ : Frontend Λ :=
      { s with inst := { s.inst with rom }, log := .getSystemInfo :: s.log }
    let game : GameInfo := { path, data := if P.library.needFullpath then none else some rom }
    have hinfo : Calls [.getSystemInfo] s s₁ := ⟨⟨_, rfl, fun _ => rfl⟩, rfl, rfl⟩
    let r := (runEntry P none (P.library.loadGame game)).run s₁
    have hentry : Calls [.getSystemInfo] s r.2 :=
      hinfo.trans (Makes.runEntry (P := P) none (P.library.loadGame game) s₁)
    show Loads s (StateT.run (do
        if !r.1 then return .unsupported
        edit fun i => { i with gameLoaded := true }
        if (← get).inst.hwRequested then setupHw P else return .ok)
      { r.2 with log := .loadGame r.1 :: r.2.log })
    clear_value r
    obtain ⟨loaded, s₂⟩ := r
    have hload := hentry.trans (Calls.note (.loadGame loaded) s₂)
    cases loaded with
    -- The core refuses the game.
    | false =>
      refine ⟨⟨_, false, hload.logged, ?_⟩, fun hsome => ?_, fun hok => by cases hok⟩
      · show _ = some (RetroState.running s₂.inst.gameLoaded s₂.inst.hw.isSome false)
        rw [hentry.gameLoaded, hentry.hw, hgame, hhw]
        rfl
      · have hsome' : s₂.inst.hw.isSome = true := hsome
        rw [hentry.hw, hhw] at hsome'
        cases hsome'
    | true =>
      let s₃ : Frontend Λ :=
        { s₂ with inst := { s₂.inst with gameLoaded := true }, log := .loadGame true :: s₂.log }
      show Loads s (StateT.run (if s₃.inst.hwRequested = true then setupHw P else pure .ok) s₃)
      have hloaded : Logged _ s s₃ := hload.logged
      -- A game that draws with OpenGL is unloaded again if it cannot have a context.
      split_ifs
      · cases setupHw_setsUp h (s := s₃) rfl with
        | failed hr hlogged hgame' hhw' =>
          refine ⟨⟨_, false, hloaded.trans hlogged, ?_⟩, fun hsome => ?_, fun hok => ?_⟩
          · rw [hgame', hhw']
            rfl
          · rw [hhw'] at hsome
            cases hsome
          · cases hr.symm.trans hok
        | done hr hlogged hgame' hhw' =>
          refine ⟨⟨_, true, hloaded.trans hlogged, ?_⟩, fun _ => hgame', fun _ => hgame'⟩
          rw [hgame', hhw']
          rfl
      · refine ⟨⟨_, false, hloaded, ?_⟩, fun _ => rfl, fun _ => rfl⟩
        show _ = some (RetroState.running true s₂.inst.hw.isSome false)
        rw [hentry.hw, hhw]
        rfl

end RetroPark.LibretroShim
