import RetroPark.Cores.LibretroShim.Options
import Mathlib.Tactic.SplitIfs

/-!
# Legacy option strings

A legacy declaration is a string `desc; v1|v2|v3`, which the shim takes apart with indices.

* `scanValues_eq` says that the loop over the indices is the split at the bars, without the empty
  tokens;
* `LegacyOption` is an option that such a string can spell, and `LegacyOption.text` its spelling;
* `setVariables_spec` says what a declaration harvests, from a spelling and from any other string.
-/

namespace RetroPark.LibretroShim

/-! ### Finding a character -/

/-- A character is not found if it is not there. -/
theorem find_eq_none {c : UInt8} {pos : ℕ} {str : Blob} :
    find c pos str = none ↔ c ∉ str.drop pos := by
  unfold find
  rw [Option.map_eq_none_iff, List.findIdx?_eq_none_iff]
  constructor
  · intro h hmem
    simpa using h c hmem
  · intro h x hx
    simp only [beq_eq_false_iff_ne]
    exact fun heq => h (heq ▸ hx)

/-- A found character parts the string: it is not in the part before. -/
theorem find_eq_some {c : UInt8} {pos i : ℕ} {str : Blob} (h : find c pos str = some i) :
    str.drop pos = (str.drop pos).take (i - pos) ++ c :: str.drop (i + 1) ∧
      c ∉ (str.drop pos).take (i - pos) := by
  obtain ⟨j, hj, rfl⟩ := Option.map_eq_some_iff.mp h
  obtain ⟨hlt, hc, hbefore⟩ := List.findIdx?_eq_some_iff_getElem.mp hj
  rw [Nat.add_sub_cancel_left]
  constructor
  · have hget : (str.drop pos)[j] = c := by simpa using hc
    rw [Nat.add_assoc, ← List.drop_drop, ← hget, ← List.drop_eq_getElem_cons hlt,
      List.take_append_drop]
  · intro hmem
    obtain ⟨k, hk, hget⟩ := List.mem_iff_getElem.mp hmem
    rw [List.length_take, Nat.lt_min] at hk
    rw [List.getElem_take] at hget
    have hne := hbefore k hk.1
    rw [hget] at hne
    simp at hne

/-- A character is found behind a part without it. -/
theorem find_append {c : UInt8} {pre post : Blob} (h : c ∉ pre) :
    find c 0 (pre ++ c :: post) = some pre.length := by
  have hnone : pre.findIdx? (· == c) = none := by
    rw [List.findIdx?_eq_none_iff]
    intro x hx
    simp only [beq_eq_false_iff_ne]
    exact fun heq => h (heq ▸ hx)
  simp [find, List.findIdx?_append, hnone, List.findIdx?_cons]

/-! ### The two loops -/

/-- Skipping spaces by index is dropping them. -/
theorem drop_skipSpaces (str : Blob) (i : ℕ) :
    str.drop (skipSpaces str i) = (str.drop i).dropWhile (· == space) := by
  fun_induction skipSpaces str i with
  | case1 i h ih =>
    rw [ih, List.drop_eq_getElem_cons h.1, List.dropWhile_cons]
    have hspace : str[i] = space := by simpa [h.1] using h.2
    rw [hspace]
    rfl
  | case2 i h =>
    by_cases hlt : i < str.length
    · have hspace : ¬str[i] = space := by
        intro heq
        apply h
        simp [hlt, heq]
      rw [List.drop_eq_getElem_cons hlt, List.dropWhile_cons]
      simp [hspace]
    · rw [List.drop_eq_nil_of_le (by omega)]
      rfl

/-- The non-empty parts of a text between its bars. -/
def tokens (text : Blob) : List Blob := (text.splitOn bar).filter (· ≠ [])

/-- A value of a legacy declaration is its own label. -/
def labelled (value : Blob) : Blob × Blob := (value, value)

/-- No part of a split has the separator in it. -/
theorem not_mem_of_mem_splitOn {c : UInt8} {text v : Blob} (h : v ∈ text.splitOn c) : c ∉ v := by
  induction text generalizing v with
  | nil =>
    obtain rfl := List.mem_singleton.mp h
    exact List.not_mem_nil
  | cons x text ih =>
    rw [List.splitOn_cons_eq_if_modifyHead] at h
    split_ifs at h with hx
    · rcases List.mem_cons.mp h with rfl | h
      · exact List.not_mem_nil
      · exact ih h
    · -- the head of the split of the rest gets `x` in front
      obtain ⟨w, ws, hsplit⟩ := List.exists_cons_of_ne_nil (List.splitOn_ne_nil c text)
      rw [hsplit] at h ih
      rcases List.mem_cons.mp h with rfl | h
      · have hw := ih (List.mem_cons_self ..)
        intro hmem
        rcases List.mem_cons.mp hmem with rfl | hmem
        · simp at hx
        · exact hw hmem
      · exact ih (List.mem_cons_of_mem _ h)

/-- A text without a bar is one token, unless it is empty. -/
theorem tokens_of_not_mem {text : Blob} (h : bar ∉ text) :
    tokens text = if text ≠ [] then [text] else [] := by
  unfold tokens
  rw [List.splitOn_eq_singleton h]
  by_cases hempty : text = []
  · simp [hempty]
  · simp [hempty]

/-- A bar ends a token. -/
theorem tokens_append {pre : Blob} (h : bar ∉ pre) (post : Blob) :
    tokens (pre ++ bar :: post) = (if pre ≠ [] then [pre] else []) ++ tokens post := by
  unfold tokens
  rw [List.splitOn_append_cons_self_of_not_mem h]
  by_cases hempty : pre = []
  · simp [hempty]
  · simp [hempty]

/-- The loop splits the rest of the string at the bars and leaves the empty tokens out. -/
theorem scanValues_eq (str : Blob) (start : ℕ) (values : List (Blob × Blob)) :
    scanValues str start values = values ++ (tokens (str.drop start)).map labelled := by
  fun_induction scanValues str start values with
  -- The last token has no bar after it.
  | case1 start values hle h tok htok =>
    have hne : str.drop start ≠ [] := htok
    rw [tokens_of_not_mem (find_eq_none.mp h), if_pos hne]
    rfl
  | case2 start values hle h tok htok =>
    have hne : ¬str.drop start ≠ [] := htok
    rw [tokens_of_not_mem (find_eq_none.mp h), if_neg hne]
    exact (List.append_nil _).symm
  -- A token up to the next bar; the loop goes on behind it.
  | case3 start values hle i h tok ih =>
    obtain ⟨hsplit, hbefore⟩ := find_eq_some h
    have htokens := tokens_append hbefore (str.drop (i + 1))
    rw [← hsplit] at htokens
    have hemit : (if tok ≠ [] then values ++ [(tok, tok)] else values) =
        values ++ (if tok ≠ [] then [tok] else []).map labelled := by
      split_ifs <;> simp [labelled]
    simp only [dite_eq_ite] at ih
    rw [ih, hemit, htokens, List.map_append, List.append_assoc]
    rfl
  | case4 start values hgt =>
    rw [List.drop_eq_nil_of_le (by omega)]
    exact (List.append_nil _).symm

/-! ### A whole string -/

/-- A string without a semicolon is a description. -/
theorem parseValue_of_not_mem {str : Blob} (h : semicolon ∉ str) : parseValue str = (str, []) := by
  unfold parseValue
  rw [find_eq_none.mpr h]

/-- The first semicolon ends the description, and the rest are values. -/
theorem parseValue_append {desc : Blob} (h : semicolon ∉ desc) (text : Blob) :
    parseValue (desc ++ semicolon :: text) =
      (desc, (tokens (text.dropWhile (· == space))).map labelled) := by
  unfold parseValue
  rw [find_append h]
  dsimp only
  rw [scanValues_eq, drop_skipSpaces, List.nil_append, ← List.drop_drop]
  simp [substr]

/-- An option that a legacy declaration can spell. -/
structure LegacyOption where
  key : Blob
  desc : Blob
  values : List Blob
  key_ne_nil : key ≠ []
  semicolon_not_mem : semicolon ∉ desc
  value_ne_nil : ∀ v ∈ values, v ≠ []
  bar_not_mem : ∀ v ∈ values, bar ∉ v
  /-- A space at the start of the first value would be taken for the one after the semicolon. -/
  head_ne_space : ∀ v ∈ values.head?, v.head? ≠ some space

namespace LegacyOption

/-- `desc; v1|v2|v3` -/
def text (l : LegacyOption) : Blob :=
  l.desc ++ [semicolon, space] ++ [bar].intercalate l.values

/-- The declaration. -/
def spelled (l : LegacyOption) : Variable := ⟨l.key, some l.text⟩

/-- The option that is spelled. -/
def option (l : LegacyOption) : ShimOption where
  key := l.key
  desc := l.desc
  info := []
  defaultValue := l.values.headD []
  values := l.values.map labelled

/-- The values of an option are the tokens of their spelling. -/
theorem tokens_intercalate (l : LegacyOption) : tokens ([bar].intercalate l.values) = l.values := by
  cases hvalues : l.values with
  | nil => rfl
  | cons v vs =>
    unfold tokens
    rw [List.splitOn_intercalate bar (hvalues ▸ l.bar_not_mem) (List.cons_ne_nil v vs),
      List.filter_eq_self]
    intro w hw
    exact decide_eq_true (l.value_ne_nil w (hvalues ▸ hw))

/-- The spelling of the values does not begin with a space. -/
theorem dropWhile_intercalate (l : LegacyOption) :
    ([bar].intercalate l.values).dropWhile (· == space) = [bar].intercalate l.values := by
  cases hvalues : l.values with
  | nil => rfl
  | cons v vs =>
    obtain ⟨rest, hrest⟩ : ∃ rest, [bar].intercalate (v :: vs) = v ++ rest := by
      by_cases hvs : vs = []
      · exact ⟨[], by simp [hvs]⟩
      · exact ⟨_, by rw [List.intercalate_cons_of_ne_nil hvs, List.append_assoc]⟩
    cases hv : v with
    | nil => exact absurd hv (l.value_ne_nil v (by simp [hvalues]))
    | cons c cs =>
      have hc : ¬(c == space) = true := by
        have hhead := l.head_ne_space v (by simp [hvalues])
        simpa [hv] using hhead
      rw [← hv, hrest, hv, List.cons_append]
      exact List.dropWhile_cons_of_neg (p := (· == space)) hc

/-- The spelling of an option is taken apart into what it spells. -/
theorem parseValue_text (l : LegacyOption) :
    parseValue l.text = (l.desc, l.values.map labelled) := by
  have htext : l.text = l.desc ++ semicolon :: space :: [bar].intercalate l.values := by
    simp [text]
  rw [htext, parseValue_append l.semicolon_not_mem, List.dropWhile_cons_of_pos (by decide),
    l.dropWhile_intercalate, l.tokens_intercalate]

/-- The declaration of an option stands for it. -/
theorem spelled_option (l : LegacyOption) : l.spelled.option = l.option := by
  unfold Variable.option spelled
  rw [Option.getD_some, l.parseValue_text]
  unfold LegacyOption.option
  cases l.values <;> rfl

end LegacyOption

/-! ### What is harvested -/

namespace Shim

variable {s : Shim}

/-- A definition stays what it is when more options are declared. -/
theorem definition_addOption_of_some {key : Blob} {o : ShimOption} (h : s.definition key = some o)
    (o' : ShimOption) : (s.addOption o').definition key = some o := by
  obtain ⟨i, hi, hget⟩ := Option.bind_eq_some_iff.mp h
  unfold addOption
  by_cases hskip : o'.key = [] ∨ (s.optionIndex o'.key).isSome
  · rw [if_pos hskip]
    exact h
  · rw [if_neg hskip]
    have hne : key ≠ o'.key := by
      intro heq
      apply hskip
      right
      rw [← heq, hi]
      rfl
    have hlt : i < s.optionDefs.length := (List.getElem?_eq_some_iff.mp hget).1
    unfold definition
    dsimp only
    rw [Function.update_of_ne hne, hi, Option.bind_some, List.getElem?_append_left hlt, hget]

/-- A definition that is there stays. -/
theorem definition_foldl_of_some {key : Blob} {o : ShimOption} (h : s.definition key = some o)
    (os : List ShimOption) : (os.foldl addOption s).definition key = some o := by
  induction os generalizing s with
  | nil => exact h
  | cons o' os ih => exact ih (definition_addOption_of_some h o')

/-- Other declarations leave a key alone. -/
theorem optionIndex_foldl_of_not_mem {key : Blob} {os : List ShimOption}
    (h : key ∉ os.map ShimOption.key) :
    (os.foldl addOption s).optionIndex key = s.optionIndex key := by
  induction os generalizing s with
  | nil => rfl
  | cons o os ih =>
    rw [List.map_cons, List.mem_cons, not_or] at h
    rw [List.foldl_cons, ih h.2]
    unfold addOption
    split_ifs
    · rfl
    · exact Function.update_of_ne h.1 ..

/-- A new key is added with exactly the given definition. -/
theorem definition_addOption_new {o : ShimOption} (hkey : o.key ≠ [])
    (hnew : s.optionIndex o.key = none) : (s.addOption o).definition o.key = some o := by
  have hadd : ¬(o.key = [] ∨ (s.optionIndex o.key).isSome) := by
    simp [hkey, hnew]
  unfold addOption definition
  rw [if_neg hadd]
  dsimp only
  rw [Function.update_self]
  exact List.getElem?_concat_length

end Shim

/-- What `SET_VARIABLES` harvests in a shim. -/
structure Harvests (s : Shim) : Prop where
  /-- The declaration of a new key is harvested exactly, wherever it stands in the array. -/
  exact : ∀ (l : LegacyOption) (before after : List Variable), s.optionIndex l.key = none →
    l.key ∉ before.map Variable.key →
      (s.negotiate (.setVariables (some (before ++ l.spelled :: after)))).definition l.key =
        some l.option
  /-- The values of any string are the non-empty tokens of the text after its first semicolon. -/
  tokens : ∀ desc text : Blob, semicolon ∉ desc → parseValue (desc ++ semicolon :: text) =
    (desc, (tokens (text.dropWhile (· == space))).map labelled)
  without : ∀ str : Blob, semicolon ∉ str → parseValue str = (str, [])
  clean : ∀ str : Blob, ∀ v ∈ (parseValue str).2, v.2 = v.1 ∧ v.1 ≠ [] ∧ bar ∉ v.1
  /-- The first definition of a key stays, whichever of the option APIs declares it again. -/
  first : ∀ (n : Negotiation) (key : Blob) (o : ShimOption), s.definition key = some o →
    (s.negotiate n).definition key = some o

/-- A token is not empty and has no bar in it. -/
theorem tokens_clean {text v : Blob} (h : v ∈ tokens text) : v ≠ [] ∧ bar ∉ v := by
  obtain ⟨hmem, hne⟩ := List.mem_filter.mp h
  refine ⟨of_decide_eq_true hne, fun hbar => ?_⟩
  exact not_mem_of_mem_splitOn hmem hbar

/-- What the index loops of `parseValue` and `addOption` make of a declaration, in any shim. -/
theorem setVariables_spec (s : Shim) : Harvests s where
  exact := by
    intro l before after hnew hbefore
    unfold Shim.negotiate Negotiation.options
    dsimp only
    rw [Option.getD_some, List.map_append, List.foldl_append, List.map_cons, List.foldl_cons,
      l.spelled_option]
    -- Later lines do not replace an option that is there.
    apply Shim.definition_foldl_of_some
    apply Shim.definition_addOption_new l.key_ne_nil
    rw [Shim.optionIndex_foldl_of_not_mem]
    · exact hnew
    · rw [List.map_map]
      exact hbefore
  tokens := fun desc text h => parseValue_append h text
  without := fun str h => parseValue_of_not_mem h
  clean := by
    intro str v hv
    by_cases hsemi : semicolon ∈ str
    · obtain ⟨desc, text, rfl, hdesc⟩ := List.eq_append_cons_of_mem hsemi
      rw [parseValue_append hdesc] at hv
      obtain ⟨value, hvalue, rfl⟩ := List.mem_map.mp hv
      exact ⟨rfl, tokens_clean hvalue⟩
    · rw [parseValue_of_not_mem hsemi] at hv
      exact nomatch hv
  first := fun n _ _ h => Shim.definition_foldl_of_some h n.options

/-- The bytes of a text in ASCII. -/
def ascii (text : String) : Blob := text.toList.map fun c => c.toNat.toUInt8

/-- The first of the two options that `libretro.h` declares as an example. -/
def speedHack : LegacyOption where
  key := ascii "foo_speedhack"
  desc := ascii "Speed hack"
  values := [ascii "false", ascii "true"]
  key_ne_nil := by decide
  semicolon_not_mem := by decide
  value_ne_nil := by decide
  bar_not_mem := by decide
  head_ne_space := by decide

/-- The example is harvested with `false` as its default. -/
theorem setVariables_spec_speedHack :
    (({} : Shim).negotiate (.setVariables (some
        [⟨ascii "foo_speedhack", some (ascii "Speed hack; false|true")⟩]))).definition
          (ascii "foo_speedhack") = some speedHack.option ∧
      speedHack.option.defaultValue = ascii "false" := by
  have hspelled : speedHack.spelled =
      ⟨ascii "foo_speedhack", some (ascii "Speed hack; false|true")⟩ := by decide
  rw [← hspelled]
  exact ⟨(setVariables_spec {}).exact speedHack [] [] rfl List.not_mem_nil, rfl⟩

end RetroPark.LibretroShim
