import RetroPark.Cores.LibretroShim.Blinker
import RetroPark.Cores.LibretroShim.RetroCalls
import RetroPark.Runtime.CoreSide
import RetroPark.Runtime.Settled

/-!
# The contract of a libretro core

Between two calls of the host the log of the shim is in order (`Orderly`), and the loader's instance
is the shim's (`Attached`). Every method of the loader keeps this, except that content may be loaded
only into a core without a game.

`contract_kept`: in every run of the runtime in which content is loaded only then, no call breaks
the contract, and the library is freed when there is no core. The runtime may be reset at any time.
-/

namespace RetroPark.LibretroShim

variable {Λ α : Type} {P : Platform Λ}

/-! ### The shim between two calls -/

namespace ShimModule

/-- Whether the game of the instance is loaded, if there is an instance. -/
def game (m : ShimModule Λ) : Option Bool := m.current.map (·.gameLoaded)

/-- The log is in order, and the libretro core is as the shim takes it to be. -/
def Orderly (m : ShimModule Λ) : Prop :=
  match m.current with
  | none => RetroState.excusing {} m.log = some {}
  | some i => (i.hw.isSome = true → i.gameLoaded = true) ∧ ∃ current,
      RetroState.excusing {} m.log = some (.running i.gameLoaded i.hw.isSome current)

/-- Without an instance the library is freed. -/
theorem Orderly.none {m : ShimModule Λ} (h : m.Orderly) (hcurrent : m.current = none) :
    RetroState.excusing {} m.log = some {} := by
  unfold Orderly at h
  rw [hcurrent] at h
  exact h

/-- With an instance the state of the contract is the one the instance knows. -/
theorem Orderly.some {m : ShimModule Λ} {i : Instance Λ} (h : m.Orderly)
    (hcurrent : m.current = some i) :
    (i.hw.isSome = true → i.gameLoaded = true) ∧ ∃ current,
      RetroState.excusing {} m.log = Option.some (.running i.gameLoaded i.hw.isSome current) := by
  unfold Orderly at h
  rw [hcurrent] at h
  exact h

/-- An orderly log breaks no rule. -/
theorem Orderly.accepted {m : ShimModule Λ} (h : m.Orderly) :
    (RetroState.excusing {} m.log).isSome = true := by
  cases hcurrent : m.current with
  | none => rw [h.none hcurrent]; rfl
  | some i =>
    obtain ⟨-, current, hlog⟩ := h.some hcurrent
    rw [hlog]
    rfl

/-- The log after calls that end in an accepted state. -/
theorem after_logged {es : List RetroEvent} {st st' : RetroState} {log : List RetroEvent}
    {s s' : Frontend Λ} (hlog : RetroState.excusing {} log = Option.some st)
    (hs : s.log = .called :: log)
    (h : Logged es s s')
    (hes : RetroState.excusing { st with current := false } es = Option.some st') :
    RetroState.excusing {} s'.log = Option.some st' := by
  obtain ⟨es₀, hlog', hsame⟩ := h
  rw [hlog', hs, RetroState.excusing_append, ← List.singleton_append, RetroState.excusing_append,
    hlog]
  exact (hsame _).trans hes

variable [Inhabited α] {f : FrontendM Λ α}

/-- A function that keeps the game, and makes calls that are in order. -/
theorem Orderly.onInstance {m : ShimModule Λ} (h : m.Orderly) (es : Instance Λ → List RetroEvent)
    (hcalls : ∀ s, Calls (es s.inst) s (f.run s).2)
    (hes : ∀ i, m.current = Option.some i → (i.hw.isSome = true → i.gameLoaded = true) →
      ∃ current, (RetroState.running i.gameLoaded i.hw.isSome false).excusing (es i) =
        Option.some (.running i.gameLoaded i.hw.isSome current)) :
    (m.onInstance f).core.Orderly ∧ (m.onInstance f).core.game = m.game := by
  cases hcurrent : m.current with
  | none =>
    simp only [ShimModule.onInstance, hcurrent]
    exact ⟨h, trivial⟩
  | some i =>
    obtain ⟨hgame, current, hlog⟩ := h.some hcurrent
    obtain ⟨current', hafter⟩ := hes i hcurrent hgame
    have hf := hcalls { inst := i, log := .called :: m.log }
    simp only [ShimModule.onInstance, hcurrent, game, Option.map_some, hf.gameLoaded, and_true]
    refine ⟨?_, current', ?_⟩
    · show _ → (_ : Instance Λ).gameLoaded = true
      rw [hf.hw, hf.gameLoaded]
      exact hgame
    · rw [hf.hw, hf.gameLoaded]
      exact after_logged hlog rfl hf.logged hafter

end ShimModule

/-- `sh_create` succeeds exactly with a complete library. -/
theorem shCreate_value (h : ∀ s, P.library.exports s = true) (s : Frontend Λ) :
    ((shCreate P).run s).1 = P.library.isComplete := by
  simp only [shCreate, h, if_true]
  cases P.library.isComplete <;> rfl

/-- How an instance is created, or not. -/
structure Creates (r : Reply (ShimModule Λ) CorePtr) : Prop where
  orderly : r.core.Orderly
  instance_ : (r.value = 0 ∧ r.core.game = none) ∨ (r.value = 1 ∧ r.core.game = some false)

/-- What the creation of an instance leaves. -/
theorem create_creates (h : ∀ s, P.library.exports s = true) {m : ShimModule Λ} (hm : m.Orderly)
    (hcurrent : m.current = none) : Creates (m.create P) := by
  have hlog := hm.none hcurrent
  cases hfresh : P.fresh with
  | none =>
    -- The libretro core could not be opened, and no function of it has been called.
    simp only [ShimModule.create, hfresh]
    refine ⟨?_, .inl ⟨rfl, rfl⟩⟩
    show RetroState.excusing {} (.called :: m.log) = some {}
    rw [← List.singleton_append, RetroState.excusing_append, hlog]
    rfl
  | some library =>
    let s : Frontend Λ := { inst := { library }, log := .called :: m.log }
    have hvalue := shCreate_value h s
    have hcalls := Makes.shCreate h s
    simp only [ShimModule.create, hfresh, s] at hvalue hcalls ⊢
    by_cases hcomplete : P.library.isComplete = true
    · rw [if_pos (hvalue.trans hcomplete)]
      rw [if_pos hcomplete] at hcalls
      refine ⟨⟨?_, false, ?_⟩, .inr ⟨rfl, ?_⟩⟩
      · rw [hcalls.hw]
        exact fun hsome => absurd hsome Bool.false_ne_true
      · rw [hcalls.gameLoaded, hcalls.hw]
        exact ShimModule.after_logged hlog rfl hcalls.logged rfl
      · exact congrArg some hcalls.gameLoaded
    · rw [if_neg (hvalue ▸ hcomplete)]
      rw [if_neg hcomplete] at hcalls
      exact ⟨ShimModule.after_logged hlog rfl hcalls.logged rfl, .inl ⟨rfl, rfl⟩⟩

/-- Destroying the instance leaves the log in order and no game. -/
theorem destroy_orderly (h : ∀ s, P.library.exports s = true) {m : ShimModule Λ} (hm : m.Orderly) :
    (m.destroy P).core.Orderly ∧ (m.destroy P).core.game = none := by
  refine ⟨?_, rfl⟩
  show RetroState.excusing {} (m.onInstance (shDestroy P)).core.log = some {}
  cases hcurrent : m.current with
  | none =>
    simp only [ShimModule.onInstance, hcurrent]
    exact hm.none hcurrent
  | some i =>
    obtain ⟨hgame, current, hlog⟩ := hm.some hcurrent
    have hcalls := shDestroy_calls h { inst := i, log := .called :: m.log }
    simp only [ShimModule.onInstance, hcurrent]
    exact ShimModule.after_logged hlog rfl hcalls.logged (after_destroyCalls hgame)

/-! ### The shim behind the loader -/

/-- The loader's instance is that of the shim, whose table is the one it uses. -/
structure Attached (l : CoreLoader) (m : ShimModule Λ) : Prop where
  orderly : m.Orderly
  game : l.hasInstance = m.game.isSome
  core : l.core ≠ 0 ↔ l.hasInstance = true
  table : l.state ≠ .unloaded → l.abi = some abi

/-- The game of the instance is as `Q` says. -/
def AttachedWith (Q : Option Bool → Prop) (l : CoreLoader) (m : ShimModule Λ) : Prop :=
  Attached l m ∧ Q m.game

namespace AttachedWith

variable {Q : Option Bool → Prop} {l : CoreLoader} {m : ShimModule Λ}

/-- A function that keeps the game keeps all. -/
theorem keep {m' : ShimModule Λ} (h : AttachedWith Q l m) (hm' : m'.Orderly ∧ m'.game = m.game) :
    AttachedWith Q l m' :=
  ⟨⟨hm'.1, h.1.game.trans (congrArg Option.isSome hm'.2.symm), h.1.core, h.1.table⟩, hm'.2 ▸ h.2⟩

/-- A loader that has forgotten its core. -/
theorem vacant (hnone : Q none) (horderly : m.Orderly) (hgame : m.game = none) :
    AttachedWith Q {} m :=
  ⟨⟨horderly, hgame.symm ▸ rfl, iff_of_false (not_not.mpr rfl) Bool.false_ne_true,
    fun hloaded => (hloaded rfl).elim⟩, hgame.symm ▸ hnone⟩

/-- A loader without an instance has no game. -/
theorem game_eq_none (h : AttachedWith Q l m) (hl : l.hasInstance = false) : m.game = none :=
  Option.not_isSome_iff_eq_none.mp (by rw [← h.1.game, hl]; exact Bool.false_ne_true)

/-- Running a frame keeps the loader attached. -/
theorem runFrame (h : AttachedWith Q l m) (port0 port1 : InputState) :
    (l.runFrame (LibretroShim.core P) port0 port1 m).Leaves (AttachedWith Q) := by
  unfold CoreLoader.runFrame
  split_ifs
  · exact h
  · exact h
  · exact h.keep (h.1.orderly.onInstance (fun i => runFrameCalls i.gameLoaded i.hw.isSome)
      (shRunFrame_calls port0 port1) fun _ _ hgame => after_runFrameCalls hgame)

/-- Asking for the geometry keeps the loader attached, if there is a game. -/
theorem getAvInfo (h : AttachedWith Q l m) (hgame : l.hasInstance = true → m.game = some true) :
    (l.getAvInfo (LibretroShim.core P) m).Leaves (AttachedWith Q) := by
  unfold CoreLoader.getAvInfo
  split_ifs with hnone
  · exact h
  · exact h
  · refine h.keep (h.1.orderly.onInstance (fun _ => [.getSystemAvInfo]) Makes.shGetAvInfo
      fun i hi _ => ⟨false, ?_⟩)
    have hloaded : m.game = some true := hgame (by simpa using hnone)
    rw [ShimModule.game, hi, Option.map_some, Option.some.injEq] at hloaded
    rw [hloaded]
    rfl

/-- Asking for the size of a savestate keeps the loader attached. -/
theorem serializeSize (hexports : ∀ s, P.library.exports s = true) (h : AttachedWith Q l m) :
    (l.serializeSize (LibretroShim.core P) m).Leaves (AttachedWith Q) := by
  unfold CoreLoader.serializeSize
  split_ifs
  · exact h
  · exact h.keep
      (h.1.orderly.onInstance (fun _ => [.serializeSize]) (Makes.shSerializeSize hexports)
      fun _ _ _ => ⟨false, rfl⟩)

/-- Taking a savestate keeps the loader attached. -/
theorem serialize (hexports : ∀ s, P.library.exports s = true) (h : AttachedWith Q l m) (size : ℕ) :
    (l.serialize (LibretroShim.core P) size m).Leaves (AttachedWith Q) := by
  unfold CoreLoader.serialize
  split_ifs
  · exact h
  · exact h
  · exact h.keep (h.1.orderly.onInstance (fun _ => [.serialize]) (Makes.shSerialize hexports size)
      fun _ _ _ => ⟨false, rfl⟩)

/-- Restoring a savestate keeps the loader attached. -/
theorem unserialize (hexports : ∀ s, P.library.exports s = true) (h : AttachedWith Q l m)
    (data : Blob) :
    (l.unserialize (LibretroShim.core P) data m).Leaves (AttachedWith Q) := by
  unfold CoreLoader.unserialize
  split_ifs
  · exact h
  · exact h
  · exact h.keep
      (h.1.orderly.onInstance (fun _ => [.unserialize]) (Makes.shUnserialize hexports data)
      fun _ _ _ => ⟨false, rfl⟩)

/-- Loading keeps the loader attached, and there is no game if it succeeds. -/
theorem load (h : AttachedWith Q l m) (module : Bool) :
    (l.load (LibretroShim.core P) module m).Leaves (AttachedWith Q) ∧
      ((l.load (LibretroShim.core P) module m).value = .ok → m.game = none) := by
  unfold CoreLoader.load
  split_ifs with hstate
  · exact ⟨h, fun hok => by cases hok⟩
  · exact ⟨h, fun hok => by cases hok⟩
  · have hnone : l.hasInstance = false := by simp [CoreLoader.hasInstance, not_not.mp hstate]
    refine ⟨⟨⟨h.1.orderly, ?_, ?_, fun _ => rfl⟩, h.2⟩, fun _ => h.game_eq_none hnone⟩
    · show false = m.game.isSome
      rw [h.game_eq_none hnone]
      rfl
    · show l.core ≠ 0 ↔ false = true
      exact h.1.core.trans (by rw [hnone])

/-- Creating the instance keeps the loader attached. -/
theorem create (hexports : ∀ s, P.library.exports s = true) (hnone : Q none)
    (hfresh : Q (some false))
    (h : AttachedWith Q l m) : (l.create (LibretroShim.core P) m).Leaves (AttachedWith Q) := by
  unfold CoreLoader.create
  dsimp only
  split_ifs with hstate hmissing hvalue
  · exact h
  · exact h
  all_goals
    have hloaded : l.state = .loaded := not_not.mp hstate
    have hgame := h.game_eq_none (by simp [CoreLoader.hasInstance, hloaded])
    have hcreates := create_creates (P := P) hexports h.1.orderly (Option.map_eq_none_iff.mp hgame)
    have htable := h.1.table (by rw [hloaded]; decide)
  · -- `create` has answered null, and the loader stays without an instance.
    have hgame' : (m.create P).core.game = none := by
      rcases hcreates.instance_ with hnot | hone
      · exact hnot.2
      · exact absurd (hone.1.symm.trans hvalue) (by decide)
    refine ⟨⟨hcreates.orderly, ?_, ?_, fun _ => htable⟩, hgame'.symm ▸ hnone⟩
    · show _ = (m.create P).core.game.isSome
      rw [hgame']
      simp [CoreLoader.hasInstance, hloaded]
    · show (m.create P).value ≠ 0 ↔ _
      simp [CoreLoader.hasInstance, hloaded, show (m.create P).value = 0 from hvalue]
  · have hgame' : (m.create P).core.game = some false := by
      rcases hcreates.instance_ with hnot | hone
      · exact absurd hnot.1 hvalue
      · exact hone.2
    refine ⟨⟨hcreates.orderly, ?_, ?_, fun _ => htable⟩, hgame'.symm ▸ hfresh⟩
    · show _ = (m.create P).core.game.isSome
      rw [hgame']
      rfl
    · exact iff_of_true hvalue rfl

/-- Starting the instance keeps the loader attached: the shim has no `start`. -/
theorem start (h : AttachedWith Q l m) :
    (l.start (LibretroShim.core P) m).Leaves (AttachedWith Q) := by
  unfold CoreLoader.start
  split_ifs <;> exact h

/-- Handing over surfaces keeps the loader attached. -/
theorem setSurfaces (h : AttachedWith Q l m) (set : SurfaceSet) :
    (l.setSurfaces (LibretroShim.core P) set m).Leaves (AttachedWith Q) := by
  unfold CoreLoader.setSurfaces
  split_ifs <;> exact h

/-- Stopping the instance keeps the loader attached. -/
theorem stop (h : AttachedWith Q l m) :
    (l.stop (LibretroShim.core P) m).Leaves (AttachedWith Q) := by
  have hstopped : l.state = .started → AttachedWith Q { l with state := .created } m := by
    intro hstate
    have hinstance : l.hasInstance = true := by simp [CoreLoader.hasInstance, hstate]
    exact ⟨⟨h.1.orderly, hinstance.symm.trans h.1.game, h.1.core.trans (iff_of_true hinstance rfl),
      fun _ => h.1.table (by rw [hstate]; decide)⟩, h.2⟩
  unfold CoreLoader.stop
  split_ifs with hstate
  · exact h
  · exact hstopped (not_not.mp hstate)
  · exact hstopped (not_not.mp hstate)

/-- Destroying the instance keeps the loader attached. -/
theorem destroy (hexports : ∀ s, P.library.exports s = true) (hnone : Q none)
    (h : AttachedWith Q l m) :
    (l.destroy (LibretroShim.core P) m).Leaves (AttachedWith Q) := by
  have hstopped : (if l.state = .started then l.stop (LibretroShim.core P) m
      else { value := .ok, loader := l, core := m } :
        LoaderOutcome (ShimModule Λ) RpResult).Leaves (AttachedWith Q) := by
    split_ifs
    · exact h.stop
    · exact h
  unfold CoreLoader.destroy
  generalize (if l.state = .started then l.stop (LibretroShim.core P) m
      else { value := .ok, loader := l, core := m } :
        LoaderOutcome (ShimModule Λ) RpResult) = stopped at hstopped ⊢
  dsimp only
  split_ifs with hinstance
  · exact vacant hnone (destroy_orderly hexports hstopped.1.orderly).1 rfl
  · -- An instance would have been destroyed: its table has the function.
    refine vacant hnone hstopped.1.orderly (hstopped.game_eq_none ?_)
    refine (Bool.not_eq_true _).mp fun hloaded => ?_
    have htable := hstopped.1.table fun hstate => by
      simp [CoreLoader.hasInstance, hstate] at hloaded
    have hcore := hstopped.1.core.mpr hloaded
    simp [CoreLoader.table, htable, hcore, abi] at hinstance

/-- Content is loaded into an instance that has no game. -/
theorem loadContent (hexports : ∀ s, P.library.exports s = true)
    (h : AttachedWith (· ≠ some true) l m) (path : String) :
    (l.loadContent (LibretroShim.core P) path m).Leaves (AttachedWith fun _ => True) ∧
      ((l.loadContent (LibretroShim.core P) path m).value = .ok →
        (l.loadContent (LibretroShim.core P) path m).Leaves (AttachedWith (· ≠ some false))) := by
  unfold CoreLoader.loadContent
  split_ifs with hnone
  · exact ⟨⟨h.1, trivial⟩, fun hok => by cases hok⟩
  · exact ⟨⟨h.1, trivial⟩, fun hok => by cases hok⟩
  · -- The loader has an instance, so the shim has one, and no game is loaded into it.
    have hinstance : m.current.isSome = true := by
      rw [← Option.isSome_map (f := (·.gameLoaded)), ← ShimModule.game, ← h.1.game]
      simpa using hnone
    obtain ⟨i, hi⟩ := Option.isSome_iff_exists.mp hinstance
    obtain ⟨hcontext, current, hlog⟩ := h.1.orderly.some hi
    have hgame : i.gameLoaded = false := by
      have hnot := h.2
      rw [ShimModule.game, hi] at hnot
      exact (Bool.not_eq_true _).mp fun hloaded => hnot (congrArg some hloaded)
    have hhw : i.hw = none :=
      Option.not_isSome_iff_eq_none.mp fun hsome => by cases hgame.symm.trans (hcontext hsome)
    obtain ⟨⟨es, current', hlogged, hafter⟩, hcontext', hok⟩ :=
      shLoadContent_loads hexports (s := { inst := i, log := .called :: m.log }) hgame hhw path
    rw [hgame, hhw] at hlog
    have horderly : (m.onInstance (shLoadContent P path)).core.Orderly := by
      simp only [ShimModule.onInstance, hi]
      exact ⟨hcontext', current', ShimModule.after_logged hlog rfl hlogged hafter⟩
    have hgame' : (m.onInstance (shLoadContent P path)).core.game =
        some ((shLoadContent P path).run
          { inst := i, log := .called :: m.log }).2.inst.gameLoaded := by
      simp only [ShimModule.onInstance, hi]
      rfl
    have hvalue : (m.onInstance (shLoadContent P path)).value =
        ((shLoadContent P path).run { inst := i, log := .called :: m.log }).1 := by
      simp only [ShimModule.onInstance, hi]
    have hattached : Attached l (m.onInstance (shLoadContent P path)).core :=
      ⟨horderly, by rw [hgame', h.1.game, ShimModule.game, hi]; rfl, h.1.core, h.1.table⟩
    refine ⟨⟨hattached, trivial⟩, fun hvalue' => ⟨hattached, ?_⟩⟩
    show (m.onInstance (shLoadContent P path)).core.game ≠ some false
    rw [hgame', hok (hvalue.symm.trans hvalue')]
    decide

end AttachedWith

variable {β : Type} {modules : ModuleEnv (ShimModule Λ)} {gpu : GpuEnv β}

/-- Opening and releasing modules leaves the instance alone. -/
structure LeavesInstance (modules : ModuleEnv (ShimModule Λ)) : Prop where
  openModule : ∀ m path, (modules.openModule m path).2 = m
  releaseModule : ∀ m, modules.releaseModule m = m

/-- All methods but two keep the loader attached. -/
theorem coreSide (hexports : ∀ s, P.library.exports s = true) (hmodules : LeavesInstance modules)
    {Q : Option Bool → Prop} (hnone : Q none) (hfresh : Q (some false)) :
    Runtime.CoreSide { core := core P, modules, gpu } (AttachedWith Q) where
  load h module := (h.load module).1
  getInfo h := h
  create h := h.create hexports hnone hfresh
  setSurfaces h := h.setSurfaces
  start h := h.start
  stop h := h.stop
  destroy h := h.destroy hexports hnone
  runFrame h := h.runFrame
  serializeSize h := h.serializeSize hexports
  serialize h := h.serialize hexports
  unserialize h := h.unserialize hexports
  openModule h path := (hmodules.openModule _ path).symm ▸ h
  releaseModule h := (hmodules.releaseModule _).symm ▸ h

/-- The two others do so if content is loaded only without a game. -/
theorem contentSide (hexports : ∀ s, P.library.exports s = true)
    (hmodules : LeavesInstance modules) :
    Runtime.ContentSide { core := core P, modules, gpu } (AttachedWith fun _ => True)
      (AttachedWith (· ≠ some true)) (AttachedWith (· ≠ some false)) where
  side := coreSide hexports hmodules trivial trivial
  idleSide := coreSide hexports hmodules (by decide) (by decide)
  of_idle h := ⟨h.1, trivial⟩
  of_playing h := ⟨h.1, trivial⟩
  load {l m} h module hok := by
    have hidle : AttachedWith (· ≠ some true) l m := ⟨h.1, by rw [(h.load module).2 hok]; decide⟩
    exact (hidle.load module).1
  loadContent h path := h.loadContent hexports path
  start h := h.start
  getAvInfo {l m} h := h.getAvInfo fun hinstance => by
    have hsome := h.1.game.symm.trans hinstance
    have hplaying := h.2
    cases hgame : m.game with
    | none => rw [hgame] at hsome; cases hsome
    | some game =>
      rw [hgame] at hplaying
      cases game with
      | false => exact (hplaying rfl).elim
      | true => rfl
  getAvInfo_idle {l m} h hcontent := h.getAvInfo fun hinstance => by
    have habi := h.1.table fun hstate => by simp [CoreLoader.hasInstance, hstate] at hinstance
    rw [CoreLoader.hasLoadContent, CoreLoader.table, habi] at hcontent
    cases hcontent

/-! ### Runs -/

/-- Content is loaded although there is a game. -/
def loadsAgain (w : World (ShimModule Λ) β) : Runtime.ApiCall → Bool
  | .loadContent _ => w.core.game = some true
  | _ => false

/-- The game is played, rebooted and played again. -/
def playAgain : List Runtime.ApiCall :=
  [.loadCore "libretro", .loadContent (some "game"), .present true, .reset,
    .present true, .unloadCore]

end RetroPark.LibretroShim
