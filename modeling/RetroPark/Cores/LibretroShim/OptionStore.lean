import RetroPark.Cores.LibretroShim.Options
import Mathlib.Tactic.SplitIfs

/-!
# One store of options

The frontend and the core read the same options, from two sides and in any order.

* `history` is a sequence of calls with their replies, and the shim that they leave;
* `current` is what the history says about an option: the value of the last successful set, or the
  default of the first declaration;
* `one_store` says that the shim answers both sides with it.
-/

namespace RetroPark.LibretroShim

/-- A call from either side. -/
inductive OptionCall
  | negotiate (n : Negotiation)
  | coreOptionSet (key value : Option Blob)
  | coreOptionGet (key : Option Blob)
  | getVariable (key : Option Blob)
  | getVariableUpdate
  deriving DecidableEq, Repr

/-- Whether a call sets or reads a value. -/
def OptionCall.isAboutValue : OptionCall → Bool
  | .coreOptionSet _ _ | .coreOptionGet _ | .getVariable _ => true
  | .negotiate _ | .getVariableUpdate => false

/-- What a call returns. -/
inductive OptionReply
  | done
  | result (r : RpResult)
  | got (value : Option Blob)
  | variableGot (value : Option Blob) (found : Bool)
  | update (dirty : Bool)
  deriving DecidableEq, Repr

/-- The reply to a call, and the shim after it. -/
def Shim.call (c : OptionCall) (s : Shim) : OptionReply × Shim :=
  match c with
  | .negotiate n => (.done, s.negotiate n)
  | .coreOptionSet key value =>
      (.result (s.coreOptionSet key value).1, (s.coreOptionSet key value).2)
  | .coreOptionGet key => (.got (s.coreOptionGet key).1, (s.coreOptionGet key).2)
  | .getVariable key =>
    (.variableGot (s.getVariable key).1.1 (s.getVariable key).1.2, (s.getVariable key).2)
  | .getVariableUpdate => (.update s.getVariableUpdate.1, s.getVariableUpdate.2)

/-- The calls of a new shim and their replies, newest first. -/
abbrev Log := List (OptionCall × OptionReply)

/-- The log of a sequence of calls, given newest first, and the shim after it. -/
def history : List OptionCall → Log × Shim
  | [] => ([], {})
  | c :: earlier =>
    let (log, s) := history earlier
    ((c, (s.call c).1) :: log, (s.call c).2)

namespace Log

/-- The value that a successful set has given to the key. -/
def setOf (key : Blob) : OptionCall × OptionReply → Option Blob
  | (.coreOptionSet (some k) (some value), .result .ok) => if k = key then some value else none
  | _ => none

/-- Whether an entry is a successful set. -/
def isSet : OptionCall × OptionReply → Bool
  | (.coreOptionSet (some _) (some _), .result .ok) => true
  | _ => false

/-- A call that sets nothing sets no key. -/
theorem setOf_eq_none (key : Blob) {entry : OptionCall × OptionReply} (h : isSet entry = false) :
    setOf key entry = none := by
  unfold setOf
  split
  · exact nomatch h
  · rfl

/-- The options that have been declared, in order. -/
def declared : Log → List ShimOption
  | [] => []
  | (.negotiate n, _) :: log => declared log ++ n.options
  | _ :: log => declared log

/-- The first declaration of a key. The empty key is none. -/
def firstDeclaration (log : Log) (key : Blob) : Option ShimOption :=
  if key = [] then none else (declared log).find? (·.key = key)

/-- The value of the last successful set of a key. -/
def lastSet (log : Log) (key : Blob) : Option Blob := log.findSome? (setOf key)

/-- What an option is: the last value set, or else the first default declared. -/
def current (log : Log) (key : Blob) : Option Blob :=
  (firstDeclaration log key).map fun o => (lastSet log key).getD o.defaultValue

/-- Whether there has been a successful set since the last `GET_VARIABLE_UPDATE`. -/
def setSincePoll : Log → Bool
  | [] => false
  | (.getVariableUpdate, _) :: _ => false
  | entry :: log => isSet entry || setSincePoll log

end Log

/-- Both sides read the same store. -/
structure OneStore (log : Log) (s : Shim) : Prop where
  coreOptionGet : ∀ key, (s.coreOptionGet (some key)).1 = log.current key
  getVariable : ∀ key, (s.getVariable (some key)).1 = (log.current key, (log.current key).isSome)
  /-- An unknown key is refused by all three, and nothing changes. -/
  unknown : ∀ key, log.current key = none → s.coreOptionGet (some key) = (none, s) ∧
    s.getVariable (some key) = ((none, false), s) ∧
      ∀ value, s.coreOptionSet (some key) (some value) = (.notFound, s)
  /-- A known key is set. -/
  known : ∀ key, (log.current key).isSome → ∀ value,
    (s.coreOptionSet (some key) (some value)).1 = .ok
  update : s.getVariableUpdate.1 = log.setSincePoll

/-- The shim holds what the log says. -/
structure Holds (log : Log) (s : Shim) : Prop where
  indexed : s.Indexed
  definition : ∀ key, s.definition key = log.firstDeclaration key
  overrides : ∀ key, s.optionOverrides key = log.lastSet key
  dirty : s.optionsDirty = log.setSincePoll

namespace Holds

variable {log : Log} {s : Shim} {key : Blob}

/-- A new shim holds the empty history. -/
theorem new : Holds [] {} where
  indexed := nofun
  definition := fun key => by simp [Shim.definition, Log.firstDeclaration, Log.declared]
  overrides := fun _ => rfl
  dirty := rfl

/-- Serving a value changes nothing that an answer depends on. -/
theorem serve (h : Holds log s) (key value : Blob) : Holds log (s.serve key value) :=
  ⟨h.indexed, h.definition, h.overrides, h.dirty⟩

/-- The value served for a declared key is the current one. -/
theorem effective (h : Holds log s) {i : ℕ} (hi : s.optionIndex key = some i) :
    some (s.effective key i) = log.current key := by
  have hlt := h.indexed key i hi
  have hdefinition := h.definition key
  unfold Shim.definition at hdefinition
  rw [hi, Option.bind_some, List.getElem?_eq_getElem hlt] at hdefinition
  unfold Shim.effective Log.current
  rw [← hdefinition, h.overrides key, List.getElem?_eq_getElem hlt]
  cases log.lastSet key <;> rfl

/-- A key has a current value exactly when it is declared. -/
theorem isSome_current (h : Holds log s) (key : Blob) :
    (log.current key).isSome = (s.optionIndex key).isSome := by
  unfold Log.current
  rw [Option.isSome_map, ← h.definition key, h.indexed.definition_isSome]

/-- A key that is not declared has no current value. -/
theorem current_eq_none (h : Holds log s) (hkey : s.optionIndex key = none) :
    log.current key = none := by
  have hsome := h.isSome_current key
  rw [hkey] at hsome
  exact Option.not_isSome_iff_eq_none.mp (Bool.not_eq_true _ ▸ hsome)

/-- A shim that holds its history answers as one store. -/
theorem oneStore (h : Holds log s) : OneStore log s where
  coreOptionGet := by
    intro key
    unfold Shim.coreOptionGet
    dsimp only [Option.getD_some]
    cases hi : s.optionIndex key with
    | none => exact (h.current_eq_none hi).symm
    | some i => exact h.effective hi
  getVariable := by
    intro key
    unfold Shim.getVariable
    dsimp only
    cases hi : s.optionIndex key with
    | none =>
      rw [h.current_eq_none hi]
      rfl
    | some i =>
      rw [← h.effective hi]
      rfl
  unknown := by
    intro key hnone
    have hi : s.optionIndex key = none := by
      rw [← Option.not_isSome_iff_eq_none, ← h.isSome_current key, hnone]
      exact Bool.false_ne_true
    unfold Shim.coreOptionGet Shim.getVariable Shim.coreOptionSet
    dsimp only [Option.getD_some]
    rw [hi]
    exact ⟨rfl, rfl, fun _ => rfl⟩
  known := by
    intro key hsome value
    rw [h.isSome_current key] at hsome
    unfold Shim.coreOptionSet
    dsimp only
    obtain ⟨i, hi⟩ := Option.isSome_iff_exists.mp hsome
    rw [hi]
    rfl
  update := h.dirty

/-! ### One call -/

/-- A declaration keeps the store with its history. -/
theorem negotiate (h : Holds log s) (n : Negotiation) :
    Holds ((.negotiate n, .done) :: log) (s.negotiate n) := by
  obtain ⟨optionDefs, optionIndex, heq⟩ := Shim.foldl_addOption_eq n.options s
  refine ⟨h.indexed.foldl n.options, ?_, ?_, ?_⟩
  · intro key
    unfold Shim.negotiate
    rw [Shim.definition_foldl h.indexed, h.definition key]
    unfold Log.firstDeclaration
    by_cases hempty : key = []
    · simp [hempty]
    · simp [hempty, Log.declared, List.find?_append]
  · intro key
    unfold Shim.negotiate
    rw [heq]
    exact h.overrides key
  · unfold Shim.negotiate
    rw [heq]
    exact h.dirty

/-- A call that is answered without a successful set. -/
theorem answered (h : Holds log s) {c : OptionCall} {r : OptionReply}
    (hvalue : c.isAboutValue = true) (hset : Log.isSet (c, r) = false) :
      Holds ((c, r) :: log) s where
  indexed := h.indexed
  definition := by
    intro key
    rw [h.definition key]
    unfold Log.firstDeclaration
    cases c with
    | negotiate n => exact nomatch hvalue
    | _ => rfl
  overrides := by
    intro key
    rw [h.overrides key]
    unfold Log.lastSet
    rw [List.findSome?_cons, Log.setOf_eq_none key hset]
  dirty := by
    rw [h.dirty]
    cases c with
    | getVariableUpdate => exact nomatch hvalue
    | _ =>
      change _ = (Log.isSet (_, r) || log.setSincePoll)
      rw [hset, Bool.false_or]

/-- A set that succeeds keeps the store with its history. -/
theorem succeeded (h : Holds log s) (key value : Blob) :
    Holds ((.coreOptionSet (some key) (some value), .result .ok) :: log)
      { s with
        optionOverrides := Function.update s.optionOverrides key (some value)
        optionsDirty := true } where
  indexed := h.indexed
  definition := h.definition
  overrides := by
    intro key'
    dsimp only
    unfold Log.lastSet
    rw [List.findSome?_cons]
    by_cases hkey : key' = key
    · subst hkey
      simp [Log.setOf]
    · rw [Function.update_of_ne hkey, h.overrides key']
      simp [Log.setOf, Ne.symm hkey, Log.lastSet]
  dirty := rfl

/-- `core_option_set` keeps the store with its history, whatever it answers. -/
theorem coreOptionSet (h : Holds log s) (key value : Option Blob) :
    Holds ((.coreOptionSet key value, .result (s.coreOptionSet key value).1) :: log)
      (s.coreOptionSet key value).2 := by
  cases key with
  | none => exact h.answered rfl rfl
  | some key =>
    cases value with
    | none => exact h.answered rfl rfl
    | some value =>
      unfold Shim.coreOptionSet
      dsimp only
      split_ifs
      · exact h.answered rfl rfl
      · exact h.succeeded key value

/-- `core_option_get` keeps the store with its history. -/
theorem coreOptionGet (h : Holds log s) (key : Option Blob) :
    Holds ((.coreOptionGet key, .got (s.coreOptionGet key).1) :: log) (s.coreOptionGet key).2 := by
  unfold Shim.coreOptionGet
  dsimp only
  cases s.optionIndex (key.getD []) with
  | none => exact h.answered rfl rfl
  | some i => exact (h.serve _ _).answered rfl rfl

/-- `GET_VARIABLE` keeps the store with its history. -/
theorem getVariable (h : Holds log s) (key : Option Blob) :
    Holds ((.getVariable key, .variableGot (s.getVariable key).1.1 (s.getVariable key).1.2) :: log)
      (s.getVariable key).2 := by
  unfold Shim.getVariable
  cases key with
  | none => exact h.answered rfl rfl
  | some key =>
    dsimp only
    cases s.optionIndex key with
    | none => exact h.answered rfl rfl
    | some i => exact (h.serve _ _).answered rfl rfl

/-- Every call keeps the store with its history. -/
theorem call (h : Holds log s) (c : OptionCall) :
    Holds ((c, (s.call c).1) :: log) (s.call c).2 := by
  cases c with
  | negotiate n => exact h.negotiate n
  | coreOptionSet key value => exact h.coreOptionSet key value
  | coreOptionGet key => exact h.coreOptionGet key
  | getVariable key => exact h.getVariable key
  | getVariableUpdate => exact ⟨h.indexed, h.definition, h.overrides, rfl⟩

end Holds

/-- After any calls the shim holds its history. -/
theorem history_holds (calls : List OptionCall) : Holds (history calls).1 (history calls).2 := by
  induction calls with
  | nil => exact .new
  | cons c earlier ih => exact ih.call c

/-- In any history, of any calls from either side, both sides read the same store. -/
theorem one_store (calls : List OptionCall) : OneStore (history calls).1 (history calls).2 :=
  (history_holds calls).oneStore

end RetroPark.LibretroShim
