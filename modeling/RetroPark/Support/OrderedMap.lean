import Mathlib.Order.Defs.LinearOrder
import Mathlib.Order.Interval.Finset.Nat
import Mathlib.Data.List.Nodup

/-!
# Finite maps kept in key order

A finite map from a linearly ordered key type, stored as the list of its entries in strictly
increasing key order, as a red-black tree such as `std::map` enumerates them. The order is a
field of the structure, so that an unsorted map cannot be built.

The module provides:

* `find?`, `insert` and `index`: lookup, insert-or-assign, and the subscript operator, which
  inserts a default at an absent key;
* `eraseBelow`: the loop that erases entries from the front while their key is below a floor;
* `mapKeys`: the keys renamed in the same order;
* `AgreeOn`: two maps read the same at some of their keys, and what keeps them so;
* `length_le_of_mem_Ico`: a map over `ℕ` whose keys lie in a window has at most as many entries
  as the window is wide.
-/

/-- A finite map stored as its entries in strictly increasing key order. -/
structure OrderedMap (κ α : Type*) [LT κ] where
  /-- The entries in increasing key order. -/
  entries : List (κ × α)
  /-- Keys increase strictly along `entries`. -/
  sorted : entries.Pairwise fun a b => a.1 < b.1

namespace OrderedMap

variable {κ α : Type*} [LinearOrder κ]

instance [DecidableEq α] : DecidableEq (OrderedMap κ α) := fun m n =>
  decidable_of_iff (m.entries = n.entries) (by cases m; cases n; simp)

/-- The map with no entries. -/
def empty : OrderedMap κ α := ⟨[], List.Pairwise.nil⟩

instance : Inhabited (OrderedMap κ α) := ⟨empty⟩

/-- The value stored at `k`, if any. -/
def find? (m : OrderedMap κ α) (k : κ) : Option α := m.entries.lookup k

/-- Whether `k` is a key of the map. -/
def contains (m : OrderedMap κ α) (k : κ) : Bool := (m.find? k).isSome

/-! ### Sorted insertion on entry lists -/

/-- Insert an entry into a sorted list, replacing the value of an equal key. -/
def insertEntry (k : κ) (v : α) : List (κ × α) → List (κ × α)
  | [] => [(k, v)]
  | (k', v') :: rest =>
      if k < k' then (k, v) :: (k', v') :: rest
      else if k = k' then (k, v) :: rest
      else (k', v') :: insertEntry k v rest

/-- An entry of the new list is the new one or an old one. -/
theorem mem_insertEntry {k : κ} {v : α} {l : List (κ × α)} {e : κ × α}
    (he : e ∈ insertEntry k v l) : e = (k, v) ∨ e ∈ l := by
  induction l with
  | nil => simpa [insertEntry] using he
  | cons hd tl ih =>
    obtain ⟨k', v'⟩ := hd
    simp only [insertEntry] at he
    split_ifs at he with hlt heq
    · simpa using he
    · rcases List.mem_cons.mp he with h | h
      · exact Or.inl h
      · exact Or.inr (List.mem_cons_of_mem _ h)
    · rcases List.mem_cons.mp he with h | h
      · exact Or.inr (by simp [h])
      · exact (ih h).imp_right (List.mem_cons_of_mem _)

/-- The new list is sorted if the old one was. -/
theorem sorted_insertEntry {k : κ} {v : α} {l : List (κ × α)}
    (h : l.Pairwise fun a b => a.1 < b.1) :
    (insertEntry k v l).Pairwise fun a b => a.1 < b.1 := by
  induction l with
  | nil => simp [insertEntry]
  | cons hd tl ih =>
    obtain ⟨k', v'⟩ := hd
    have hhead := (List.pairwise_cons.mp h).1
    have htail := (List.pairwise_cons.mp h).2
    simp only [insertEntry]
    split_ifs with hlt heq
    · refine List.pairwise_cons.mpr ⟨?_, h⟩
      intro e he
      rcases List.mem_cons.mp he with rfl | he
      · exact hlt
      · exact hlt.trans (hhead e he)
    · subst heq
      exact List.pairwise_cons.mpr ⟨hhead, htail⟩
    · -- The new entry goes further down, behind a head that stays the least.
      refine List.pairwise_cons.mpr ⟨?_, ih htail⟩
      intro e he
      rcases mem_insertEntry he with rfl | he
      · exact lt_of_le_of_ne (not_lt.mp hlt) (Ne.symm heq)
      · exact hhead e he

/-- A lookup compares with the first entry first. -/
theorem lookup_cons_eq (k a : κ) (b : α) (l : List (κ × α)) :
    ((a, b) :: l).lookup k = if k = a then some b else l.lookup k := by
  by_cases h : k = a
  · simp [h]
  · rw [List.lookup_cons, beq_eq_false_iff_ne.mpr h, if_neg h]

/-- A lookup finds the new value under its key, and elsewhere what it found before. -/
theorem lookup_insertEntry (k k' : κ) (v : α) (l : List (κ × α)) :
    (insertEntry k v l).lookup k' = if k' = k then some v else l.lookup k' := by
  induction l with
  | nil => simp [insertEntry, lookup_cons_eq]
  | cons hd tl ih =>
    obtain ⟨a, b⟩ := hd
    rw [insertEntry]
    by_cases hlt : k < a
    · rw [if_pos hlt, lookup_cons_eq]
    · rw [if_neg hlt]
      by_cases heq : k = a
      · subst heq
        rw [if_pos rfl, lookup_cons_eq, lookup_cons_eq]
        split_ifs <;> rfl
      · rw [if_neg heq, lookup_cons_eq, lookup_cons_eq, ih]
        by_cases hk : k' = k
        · subst hk
          simp [heq]
        · simp [hk]

/-- A sorted list has no entry below its head, so looking up such a key finds nothing. -/
theorem lookup_eq_none_of_lt {k : κ} {l : List (κ × α)} (h : ∀ e ∈ l, k < e.1) :
    l.lookup k = none := by
  refine List.lookup_eq_none_iff.mpr fun e he => ?_
  simpa using (h e he).ne

/-! ### The map operations -/

/-- Insert an entry, replacing the value stored at an equal key (`m[k] = v`). -/
def insert (m : OrderedMap κ α) (k : κ) (v : α) : OrderedMap κ α :=
  ⟨insertEntry k v m.entries, sorted_insertEntry m.sorted⟩

/-- The subscript operator read as an rvalue: the value at `k`, after inserting the default
`d` if `k` was absent. -/
def index (m : OrderedMap κ α) (k : κ) (d : α) : α × OrderedMap κ α :=
  match m.find? k with
  | some v => (v, m)
  | none => (d, m.insert k d)

/-- Erase from the front while the key is below `floor`. -/
def eraseBelow (m : OrderedMap κ α) (floor : κ) : OrderedMap κ α :=
  ⟨m.entries.dropWhile fun e => decide (e.1 < floor), m.sorted.sublist (List.dropWhile_sublist _)⟩

/-- A fold over the entries in key order. -/
def any (m : OrderedMap κ α) (p : κ → α → Bool) : Bool := m.entries.any fun e => p e.1 e.2

/-- Nothing is found in the empty map. -/
@[simp]
theorem find?_empty (k : κ) : (empty : OrderedMap κ α).find? k = none := rfl

/-- A lookup after an insertion. -/
theorem find?_insert (m : OrderedMap κ α) (k k' : κ) (v : α) :
    (m.insert k v).find? k' = if k' = k then some v else m.find? k' :=
  lookup_insertEntry k k' v m.entries

/-- The value inserted is found under its key. -/
@[simp]
theorem find?_insert_self (m : OrderedMap κ α) (k : κ) (v : α) :
    (m.insert k v).find? k = some v := by
  simp [find?_insert]

/-- An insertion changes nothing under other keys. -/
theorem find?_insert_of_ne (m : OrderedMap κ α) {k k' : κ} (v : α) (h : k' ≠ k) :
    (m.insert k v).find? k' = m.find? k' := by
  simp [find?_insert, h]

/-- Subscripting at a present key reads the value and leaves the map as it is. -/
theorem index_of_find? {m : OrderedMap κ α} {k : κ} {v : α} (h : m.find? k = some v) (d : α) :
    m.index k d = (v, m) := by
  simp [index, h]

/-- The entries are what is found. -/
theorem mem_entries_iff {m : OrderedMap κ α} {k : κ} {v : α} :
    (k, v) ∈ m.entries ↔ m.find? k = some v := by
  obtain ⟨l, hl⟩ := m
  simp only [find?]
  induction l with
  | nil => simp
  | cons hd tl ih =>
    obtain ⟨a, b⟩ := hd
    have hhead := (List.pairwise_cons.mp hl).1
    by_cases hk : k = a
    · subst hk
      have hnot : (k, v) ∉ tl := fun h => lt_irrefl k (hhead (k, v) h)
      simp [hnot, eq_comm]
    · simp [lookup_cons_eq, hk, ih (List.pairwise_cons.mp hl).2]

/-- Erasing below a floor forgets exactly the keys below it. -/
theorem find?_eraseBelow (m : OrderedMap κ α) (floor k : κ) :
    (m.eraseBelow floor).find? k = if k < floor then none else m.find? k := by
  obtain ⟨l, hl⟩ := m
  simp only [find?, eraseBelow]
  induction l with
  | nil => simp
  | cons hd tl ih =>
    obtain ⟨a, b⟩ := hd
    have hhead := (List.pairwise_cons.mp hl).1
    by_cases ha : a < floor
    · rw [List.dropWhile_cons_of_pos (by simpa using ha), ih (List.pairwise_cons.mp hl).2]
      split_ifs with hk
      · rfl
      · have hne : k ≠ a := fun h => hk (h ▸ ha)
        rw [lookup_cons_eq, if_neg hne]
    · -- The keys ascend, so nothing behind the first kept key is below the floor.
      rw [List.dropWhile_cons_of_neg (by simpa using ha)]
      split_ifs with hk
      · refine lookup_eq_none_of_lt fun e he => ?_
        have hka : k < a := hk.trans_le (not_lt.mp ha)
        rcases List.mem_cons.mp he with rfl | he
        · exact hka
        · exact hka.trans (hhead e he)
      · rfl

/-- What is not below the floor is still found. -/
theorem find?_eraseBelow_of_le (m : OrderedMap κ α) {floor k : κ} (h : floor ≤ k) :
    (m.eraseBelow floor).find? k = m.find? k := by
  simp [find?_eraseBelow, not_lt.mpr h]

/-- What is still found is not below the floor and was there before. -/
theorem find?_of_find?_eraseBelow {m : OrderedMap κ α} {floor k : κ} {v : α}
    (h : (m.eraseBelow floor).find? k = some v) : floor ≤ k ∧ m.find? k = some v := by
  rw [find?_eraseBelow] at h
  split_ifs at h with hk
  exact ⟨not_lt.mp hk, h⟩

/-- `any` looks for an entry. -/
theorem any_eq_true_iff {m : OrderedMap κ α} {p : κ → α → Bool} :
    m.any p = true ↔ ∃ k v, m.find? k = some v ∧ p k v = true := by
  simp only [any, List.any_eq_true, Prod.exists]
  constructor
  · rintro ⟨k, v, hmem, hp⟩
    exact ⟨k, v, mem_entries_iff.mp hmem, hp⟩
  · rintro ⟨k, v, hfind, hp⟩
    exact ⟨k, v, mem_entries_iff.mpr hfind, hp⟩

/-- Rename the keys, in the same order. -/
def mapKeys {κ' : Type*} [LinearOrder κ'] (f : κ → κ') (hf : StrictMono f) (m : OrderedMap κ α) :
    OrderedMap κ' α :=
  ⟨m.entries.map fun e => (f e.1, e.2), List.pairwise_map.mpr (m.sorted.imp fun h => hf h)⟩

/-- A lookup in a map with other keys. -/
@[simp]
theorem find?_mapKeys {κ' : Type*} [LinearOrder κ'] {f : κ → κ'} (hf : StrictMono f)
    (m : OrderedMap κ α)
    (k : κ) : (m.mapKeys f hf).find? (f k) = m.find? k := by
  change (m.entries.map fun e => (f e.1, e.2)).lookup (f k) = m.entries.lookup k
  induction m.entries with
  | nil => rfl
  | cons e es ih =>
    rw [List.map_cons, lookup_cons_eq, lookup_cons_eq, ih]
    exact if_congr hf.injective.eq_iff rfl rfl

/-! ### Maps that agree on some keys -/

variable {γ : Type*} {g : Option α → γ} {P Q : κ → Prop} {m m' : OrderedMap κ α}

/-- Two maps read the same at the keys in `P`, where `g` is what a reader makes of a lookup. -/
def AgreeOn (g : Option α → γ) (P : κ → Prop) (m m' : OrderedMap κ α) : Prop :=
  ∀ k, P k → g (m.find? k) = g (m'.find? k)

/-- Maps that agree on some keys agree on fewer. -/
theorem AgreeOn.mono (h : AgreeOn g P m m') (hQ : ∀ k, Q k → P k) : AgreeOn g Q m m' :=
  fun k hk => h k (hQ k hk)

/-- Inserting the same entry into both maps makes them agree at its key. -/
theorem AgreeOn.insert_of {k : κ} (h : AgreeOn g P m m') (hQ : ∀ k', Q k' → P k' ∨ k' = k) (v : α) :
    AgreeOn g Q (m.insert k v) (m'.insert k v) := by
  intro k' hk'
  rw [find?_insert, find?_insert]
  split_ifs with heq
  · rfl
  · exact h k' ((hQ k' hk').resolve_right heq)

/-- Maps that agree do so after the same insertion. -/
theorem AgreeOn.insert (h : AgreeOn g P m m') (k : κ) (v : α) :
    AgreeOn g P (m.insert k v) (m'.insert k v) :=
  h.insert_of (fun _ hk => Or.inl hk) v

/-- Maps that agree do so after the same pruning. -/
theorem AgreeOn.eraseBelow (h : AgreeOn g P m m') (floor : κ) :
    AgreeOn g P (m.eraseBelow floor) (m'.eraseBelow floor) := by
  intro k hk
  rw [find?_eraseBelow, find?_eraseBelow]
  split_ifs
  · rfl
  · exact h k hk

/-- Subscripting at a key where the maps agree reads the same and keeps them so. -/
theorem AgreeOn.index (h : AgreeOn id P m m') {k : κ} (hk : P k) (d : α) :
    (m.index k d).1 = (m'.index k d).1 ∧ AgreeOn id P (m.index k d).2 (m'.index k d).2 := by
  have hfind : m.find? k = m'.find? k := h k hk
  unfold OrderedMap.index
  rw [hfind]
  cases m'.find? k with
  | none => exact ⟨rfl, h.insert k d⟩
  | some v => exact ⟨rfl, h⟩

/-- A map over `ℕ` whose keys lie in `[lo, hi)` has at most `hi - lo` entries. -/
theorem length_le_of_mem_Ico {m : OrderedMap ℕ α} {lo hi : ℕ}
    (h : ∀ k v, m.find? k = some v → lo ≤ k ∧ k < hi) : m.entries.length ≤ hi - lo := by
  have hnodup : (m.entries.map Prod.fst).Nodup :=
    List.Pairwise.map _ (fun _ _ hab => ne_of_lt hab) m.sorted
  have hsub : (m.entries.map Prod.fst).toFinset ⊆ Finset.Ico lo hi := by
    intro k hk
    obtain ⟨⟨k', v⟩, hmem, rfl⟩ := List.mem_map.mp (List.mem_toFinset.mp hk)
    exact Finset.mem_Ico.mpr (h k' v (mem_entries_iff.mp hmem))
  calc m.entries.length = (m.entries.map Prod.fst).toFinset.card := by
        rw [List.toFinset_card_of_nodup hnodup, List.length_map]
    _ ≤ (Finset.Ico lo hi).card := Finset.card_le_card hsub
    _ = hi - lo := Nat.card_Ico lo hi

end OrderedMap
