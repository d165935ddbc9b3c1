import RetroPark.Abi
import Mathlib.Logic.Function.Basic

/-!
# The core options of the libretro shim

The options that a wrapped core declares, and the values that the frontend sets for them. A C string
is the list of its bytes before the terminating NUL, and a pointer to one that may be null is an
`Option`.

* `Shim` is the part of the shim that holds the options;
* `parseValue` scans the string of a legacy `SET_VARIABLES` declaration;
* `negotiate` is a declaration through any of the option APIs, `coreOptionGet` and `coreOptionSet`
  are the frontend's side, `getVariable` and `getVariableUpdate` the core's.
-/

namespace RetroPark.LibretroShim

/-! ### Strings -/

/-- `std::string::find(c, pos)` -/
def find (c : UInt8) (pos : ℕ) (str : Blob) : Option ℕ :=
  ((str.drop pos).findIdx? (· == c)).map (pos + ·)

/-- `std::string::substr(pos, count)`, where `none` stands for `npos`. -/
def substr (pos : ℕ) (count : Option ℕ) (str : Blob) : Blob :=
  match count with
  | none => str.drop pos
  | some n => (str.drop pos).take n

/-- A found position is not before the one the search starts at, and within the string. -/
theorem find_bounds {c : UInt8} {pos i : ℕ} {str : Blob} (h : find c pos str = some i) :
    pos ≤ i ∧ i < str.length := by
  obtain ⟨j, hj, rfl⟩ := Option.map_eq_some_iff.mp h
  have hlt := (List.findIdx?_eq_some_iff_getElem.mp hj).1
  rw [List.length_drop] at hlt
  omega

/-- `';'` -/
def semicolon : UInt8 := 59

/-- `'|'` -/
def bar : UInt8 := 124

/-- `' '` -/
def space : UInt8 := 32

/-! ### The options -/

/-- `ShimOption`. A value comes with its label. -/
structure ShimOption where
  key : Blob
  desc : Blob
  info : Blob
  defaultValue : Blob
  values : List (Blob × Blob)
  deriving DecidableEq, Repr

/-- The part of `Shim` that holds the options. -/
structure Shim where
  optionDefs : List ShimOption := []
  optionIndex : Blob → Option ℕ := fun _ => none
  optionOverrides : Blob → Option Blob := fun _ => none
  optionsDirty : Bool := false
  servedValues : Blob → Option Blob := fun _ => none

/-- `retro_variable` -/
structure Variable where
  key : Blob
  value : Option Blob
  deriving DecidableEq, Repr

/-- `retro_core_option_definition` and `retro_core_option_v2_definition`: `values` are the entries
before the first one without a value, each with its label. -/
structure Definition where
  key : Blob
  desc : Option Blob
  info : Option Blob
  values : List (Blob × Option Blob)
  defaultValue : Option Blob
  deriving DecidableEq, Repr

/-- `RETRO_NUM_CORE_OPTION_VALUES_MAX` -/
def numCoreOptionValuesMax : ℕ := 128

/-- The loop that skips the spaces after the semicolon. -/
def skipSpaces (str : Blob) (i : ℕ) : ℕ :=
  if i < str.length ∧ str[i]? = some space then skipSpaces str (i + 1) else i
  termination_by str.length - i

/-- The loop that splits the rest of the string at its bars. -/
def scanValues (str : Blob) (start : ℕ) (values : List (Blob × Blob)) : List (Blob × Blob) :=
  if start ≤ str.length then
    match _h : find bar start str with
    | none =>
      let tok := substr start none str
      if tok ≠ [] then values ++ [(tok, tok)] else values
    | some i =>
      let tok := substr start (some (i - start)) str
      scanValues str (i + 1) (if tok ≠ [] then values ++ [(tok, tok)] else values)
  else values
  termination_by str.length + 1 - start
  decreasing_by
    have hbounds := find_bounds _h
    omega

/-- The description and the values in the string of a legacy declaration. -/
def parseValue (str : Blob) : Blob × List (Blob × Blob) :=
  match find semicolon 0 str with
  | some semi => (substr 0 (some semi) str, scanValues str (skipSpaces str (semi + 1)) [])
  | none => (str, [])

/-- The option a legacy declaration stands for. -/
def Variable.option (v : Variable) : ShimOption :=
  let (desc, values) := parseValue (v.value.getD [])
  { key := v.key
    desc := desc
    info := []
    defaultValue := match values with
      | [] => []
      | value :: _ => value.1
    values := values }

/-- The option a definition stands for. -/
def Definition.option (d : Definition) : ShimOption :=
  let values := (d.values.take numCoreOptionValuesMax).map fun v => (v.1, v.2.getD v.1)
  let given := d.defaultValue.getD []
  { key := d.key
    desc := d.desc.getD []
    info := d.info.getD []
    defaultValue := match given, values with
      | [], value :: _ => value.1
      | given, _ => given
    values := values }

/-- A declaration of options: the array that the command leads to, which is null if a pointer on the
way is. -/
inductive Negotiation
  /-- `SET_VARIABLES` -/
  | setVariables (vars : Option (List Variable))
  /-- `SET_CORE_OPTIONS`, `SET_CORE_OPTIONS_INTL` and the `V2` forms of both. -/
  | setCoreOptions (definitions : Option (List Definition))
  deriving DecidableEq, Repr

/-- The options that `shim_add_option` is called with, in order. -/
def Negotiation.options : Negotiation → List ShimOption
  | .setVariables vars => (vars.getD []).map Variable.option
  | .setCoreOptions definitions => (definitions.getD []).map Definition.option

namespace Shim

/-- `shim_add_option` -/
def addOption (s : Shim) (o : ShimOption) : Shim :=
  if o.key = [] ∨ (s.optionIndex o.key).isSome then s
  else
    { s with
      optionIndex := Function.update s.optionIndex o.key (some s.optionDefs.length)
      optionDefs := s.optionDefs ++ [o] }

/-- The commands of `env_cb` that declare options. -/
def negotiate (n : Negotiation) (s : Shim) : Shim := n.options.foldl addOption s

/-- `option_overrides` when it has the key, and else the default of the definition at `i`. -/
def effective (key : Blob) (i : ℕ) (s : Shim) : Blob :=
  match s.optionOverrides key with
  | some value => value
  | none => (s.optionDefs[i]?.map ShimOption.defaultValue).getD []

/-- `served_values[key] = value` -/
def serve (key value : Blob) (s : Shim) : Shim :=
  { s with servedValues := Function.update s.servedValues key (some value) }

/-- `GET_VARIABLE`: the value, and whether the call returns true. -/
def getVariable (key : Option Blob) (s : Shim) : (Option Blob × Bool) × Shim :=
  match key with
  | none => ((none, false), s)
  | some key =>
    match s.optionIndex key with
    | some i => ((some (s.effective key i), true), s.serve key (s.effective key i))
    | none => ((none, false), s)

/-- `GET_VARIABLE_UPDATE`: what it reports. -/
def getVariableUpdate (s : Shim) : Bool × Shim := (s.optionsDirty, { s with optionsDirty := false })

/-- `sh_core_option_get` -/
def coreOptionGet (key : Option Blob) (s : Shim) : Option Blob × Shim :=
  let key := key.getD []
  match s.optionIndex key with
  | none => (none, s)
  | some i => (some (s.effective key i), s.serve key (s.effective key i))

/-- `sh_core_option_set` -/
def coreOptionSet (key value : Option Blob) (s : Shim) : RpResult × Shim :=
  match key, value with
  | some key, some value =>
    if (s.optionIndex key).isNone then (.notFound, s)
    else
      (.ok, { s with
        optionOverrides := Function.update s.optionOverrides key (some value)
        optionsDirty := true })
  | _, _ => (.badArg, s)

/-- The option with the given key. -/
def definition (key : Blob) (s : Shim) : Option ShimOption :=
  (s.optionIndex key).bind fun i => s.optionDefs[i]?

/-! ### Declaring options -/

/-- Every index is one of a definition. -/
def Indexed (s : Shim) : Prop := ∀ key i, s.optionIndex key = some i → i < s.optionDefs.length

variable {s : Shim} {key : Blob}

/-- A key has a definition exactly when it has an index. -/
theorem Indexed.definition_isSome (h : s.Indexed) :
    (s.definition key).isSome = (s.optionIndex key).isSome := by
  unfold definition
  cases hkey : s.optionIndex key with
  | none => rfl
  | some i => simpa using h key i hkey

/-- A declaration keeps the index right. -/
theorem Indexed.addOption (h : s.Indexed) (o : ShimOption) : (s.addOption o).Indexed := by
  unfold Shim.addOption
  by_cases hskip : o.key = [] ∨ (s.optionIndex o.key).isSome
  · rw [if_pos hskip]
    exact h
  · rw [if_neg hskip]
    intro key i hkey
    dsimp only at hkey ⊢
    rw [List.length_append, List.length_singleton]
    by_cases heq : key = o.key
    · subst heq
      rw [Function.update_self] at hkey
      obtain rfl := Option.some.inj hkey
      exact Nat.lt_succ_self _
    · rw [Function.update_of_ne heq] at hkey
      exact Nat.lt_succ_of_lt (h key i hkey)

/-- The first declaration of a key wins, and the empty key is not declared. -/
theorem definition_addOption (h : s.Indexed) (o : ShimOption) (key : Blob) :
    (s.addOption o).definition key =
      (s.definition key).or (if key ≠ [] ∧ o.key = key then some o else none) := by
  unfold Shim.addOption
  by_cases hskip : o.key = [] ∨ (s.optionIndex o.key).isSome
  · -- The declaration is skipped: its key is empty or has been declared before.
    rw [if_pos hskip]
    by_cases hkey : key ≠ [] ∧ o.key = key
    · obtain ⟨hne, rfl⟩ := hkey
      have hsome : (s.definition o.key).isSome :=
        h.definition_isSome.trans (hskip.resolve_left hne)
      obtain ⟨o', ho'⟩ := Option.isSome_iff_exists.mp hsome
      rw [ho']
      rfl
    · rw [if_neg hkey, Option.or_none]
  · rw [if_neg hskip]
    rw [not_or, Option.not_isSome_iff_eq_none] at hskip
    unfold definition
    dsimp only
    by_cases hkey : o.key = key
    · subst hkey
      rw [Function.update_self, hskip.2, if_pos ⟨hskip.1, rfl⟩]
      exact List.getElem?_concat_length
    · rw [Function.update_of_ne (Ne.symm hkey), if_neg fun hand => hkey hand.2, Option.or_none]
      cases hi : s.optionIndex key with
      | none => rfl
      | some i => exact List.getElem?_append_left (h key i hi)

/-- Any declarations keep the index right. -/
theorem Indexed.foldl (h : s.Indexed) (os : List ShimOption) :
    (os.foldl Shim.addOption s).Indexed := by
  induction os generalizing s with
  | nil => exact h
  | cons o os ih => exact ih (h.addOption o)

/-- The definition of a key is the old one, and else the first that is declared. -/
theorem definition_foldl (h : s.Indexed) (os : List ShimOption) (key : Blob) :
    (os.foldl Shim.addOption s).definition key =
      (s.definition key).or (if key = [] then none else os.find? (·.key = key)) := by
  induction os generalizing s with
  | nil => simp
  | cons o os ih =>
    rw [List.foldl_cons, ih (h.addOption o), definition_addOption h, Option.or_assoc]
    congr 1
    by_cases hempty : key = []
    · simp [hempty]
    · by_cases hkey : o.key = key
      · simp [hempty, hkey]
      · simp [hempty, hkey]

/-- Nothing else of the shim depends on a declaration. -/
theorem foldl_addOption_eq (os : List ShimOption) (s : Shim) : ∃ optionDefs optionIndex,
    os.foldl Shim.addOption s =
      { s with optionDefs := optionDefs, optionIndex := optionIndex } := by
  induction os generalizing s with
  | nil => exact ⟨_, _, rfl⟩
  | cons o os ih =>
    obtain ⟨optionDefs, optionIndex, heq⟩ := ih (s.addOption o)
    rw [List.foldl_cons, heq]
    unfold Shim.addOption
    by_cases hskip : o.key = [] ∨ (s.optionIndex o.key).isSome
    · rw [if_pos hskip]
      exact ⟨_, _, rfl⟩
    · rw [if_neg hskip]
      exact ⟨_, _, rfl⟩

end Shim

end RetroPark.LibretroShim
