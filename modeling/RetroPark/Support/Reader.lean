import Mathlib.Data.Set.Image

/-!
# Readers of a buffer

A reader goes through a buffer of bytes with an offset. It refuses a buffer that is too short, and
an access outside the buffer is a fault.

* `Reader.take` is the one primitive: it checks that `n` bytes are left and copies them;
* `Reader.vector` repeats a reader;
* `ReadsAs` says that a reader accepts exactly what an encoder writes, and never faults. There is
  one rule for each way to build a reader, so that the specification of a reader follows its
  definition.
-/

/-- An access outside the buffer, at this offset. -/
structure OutOfBounds where
  offset : ℕ
  deriving DecidableEq, Repr

/-- From a buffer and an offset in it, a value and the offset after it, or `none` when the buffer is
refused. -/
def Reader (α : Type) := List UInt8 → ℕ → Except OutOfBounds (Option (α × ℕ))

namespace Reader

variable {α β γ : Type}

instance : Monad Reader where
  pure a := fun _ o => .ok (some (a, o))
  bind r k := fun m o =>
    match r m o with
    | .error e => .error e
    | .ok none => .ok none
    | .ok (some (a, o')) => k a m o'

/-- The byte at offset `o`. -/
def byteAt (m : List UInt8) (o : ℕ) : Except OutOfBounds UInt8 :=
  match m[o]? with
  | some b => .ok b
  | none => .error ⟨o⟩

/-- The `n` bytes from offset `o` on, one after another. -/
def copy (m : List UInt8) (o : ℕ) : (n : ℕ) → Except OutOfBounds (Vector UInt8 n)
  | 0 => .ok #v[]
  | n + 1 => do
      let bs ← copy m o n
      let b ← byteAt m (o + n)
      return bs.push b

/-- The next `n` bytes, if there are as many left. -/
def take (n : ℕ) : Reader (Vector UInt8 n) := fun m o =>
  if m.length < o + n then .ok none
  else (copy m o n).map fun bs => some (bs, o + n)

/-- `n` values, one after another. -/
def vector (r : Reader α) : (n : ℕ) → Reader (Vector α n)
  | 0 => pure #v[]
  | n + 1 => do
      let as ← vector r n
      let a ← r
      return as.push a

/-- The reader accepts exactly the encodings of the values in `S`, whatever follows them, and makes
`out b` of the encoding of `b`. It makes no access outside the buffer. -/
structure ReadsAs (r : Reader γ) (enc : β → List UInt8) (out : β → γ) (S : Set β) : Prop where
  inside : ∀ {m : List UInt8} {o : ℕ}, o ≤ m.length → ∃ res, r m o = .ok res
  iff : ∀ {m : List UInt8} {o : ℕ}, o ≤ m.length → ∀ (c : γ) (o' : ℕ),
    r m o = .ok (some (c, o')) ↔
      ∃ b ∈ S, out b = c ∧ enc b <+: m.drop o ∧ o' = o + (enc b).length

/-- The reader accepts exactly the encodings of all values. -/
abbrev Reads (r : Reader β) (enc : β → List UInt8) : Prop := ReadsAs r enc id Set.univ

/-! ### The primitive -/

theorem copy_eq {m : List UInt8} {o n : ℕ} (h : o + n ≤ m.length) :
    ∃ bs, copy m o n = .ok bs ∧ bs.toList = (m.drop o).take n := by
  -- Induction on the number of bytes; the last one is read last.
  induction n with
  | zero => exact ⟨#v[], rfl, by simp⟩
  | succ n ih =>
    obtain ⟨bs, hbs, hlist⟩ := ih (by omega)
    have hlt : o + n < m.length := by omega
    refine ⟨bs.push m[o + n], ?_, ?_⟩
    · rw [copy, hbs]
      show (do let b ← byteAt m (o + n); return bs.push b) = _
      rw [byteAt, List.getElem?_eq_getElem hlt]
      rfl
    · rw [Vector.toList_push, hlist, List.take_add_one, List.getElem?_drop,
        List.getElem?_eq_getElem hlt]
      rfl

theorem reads_take (n : ℕ) : Reads (take n) Vector.toList where
  inside {m o} _ := by
    rcases Nat.lt_or_ge m.length (o + n) with hshort | hlong
    · exact ⟨none, if_pos hshort⟩
    · obtain ⟨bs, hbs, -⟩ := copy_eq hlong
      exact ⟨some (bs, o + n), by rw [take, if_neg hlong.not_gt, hbs]; rfl⟩
  iff {m o} ho c o' := by
    rw [take]
    rcases Nat.lt_or_ge m.length (o + n) with hshort | hlong
    · rw [if_pos hshort]
      refine ⟨fun h => (nomatch h), ?_⟩
      rintro ⟨bs, -, -, hpre, -⟩
      have := hpre.length_le
      rw [Vector.length_toList, List.length_drop] at this
      omega
    · obtain ⟨bs, hbs, hlist⟩ := copy_eq hlong
      rw [if_neg hlong.not_gt, hbs]
      constructor
      · intro h
        obtain ⟨rfl, rfl⟩ := Prod.mk.inj (Option.some.inj (Except.ok.inj h))
        exact ⟨bs, Set.mem_univ _, rfl, hlist ▸ List.take_prefix _ _,
          by rw [Vector.length_toList]⟩
      · rintro ⟨bs', -, rfl, hpre, rfl⟩
        have hsame : bs = bs' := by
          rw [← Vector.toList_inj, hlist, List.prefix_iff_eq_take.mp hpre, Vector.length_toList]
        rw [Vector.length_toList, hsame]
        rfl

/-! ### The rules -/

/-- Two encodings one after the other. -/
theorem append_prefix_drop {m bs cs : List UInt8} {o : ℕ} :
    bs ++ cs <+: m.drop o ↔ bs <+: m.drop o ∧ cs <+: m.drop (o + bs.length) := by
  constructor
  · rintro ⟨t, ht⟩
    refine ⟨⟨cs ++ t, by rw [← ht, List.append_assoc]⟩, t, ?_⟩
    rw [← List.drop_drop, ← ht, List.append_assoc, List.drop_left]
  · rintro ⟨⟨t, ht⟩, u, hu⟩
    refine ⟨u, ?_⟩
    rw [← List.drop_drop, ← ht, List.drop_left] at hu
    rw [List.append_assoc, hu, ht]

theorem offset_le_of_prefixed {m bs : List UInt8} {o : ℕ} (ho : o ≤ m.length)
    (h : bs <+: m.drop o) : o + bs.length ≤ m.length := by
  have := h.length_le
  rw [List.length_drop] at this
  omega

variable {enc : β → List UInt8} {out : β → γ} {S : Set β}

/-- Nothing is left to read once the value is known. -/
theorem readsAs_pure {b : β} {c : γ} (hout : out b = c) (hS : ∀ b', b' ∈ S ↔ b' = b) :
    ReadsAs (pure c) (fun _ : β => []) out S where
  inside {_ o} _ := ⟨some (c, o), rfl⟩
  iff {m o} _ c' o' := by
    constructor
    · intro h
      obtain ⟨rfl, rfl⟩ := Prod.mk.inj (Option.some.inj (Except.ok.inj h))
      exact ⟨b, (hS b).mpr rfl, hout, List.nil_prefix, rfl⟩
    · rintro ⟨b', hb', hc, -, rfl⟩
      rw [(hS b').mp hb', hout] at hc
      rw [hc]
      rfl

/-- A field `f` of the value is read first, and then the rest given what the field is. -/
theorem ReadsAs.bind {r : Reader α} {encA : α → List UInt8} {T : Set α} {k : α → Reader γ}
    (hr : ReadsAs r encA id T) (f : β → α) (hf : ∀ b ∈ S, f b ∈ T)
    (hk : ∀ a ∈ T, ReadsAs (k a) enc out {b | b ∈ S ∧ f b = a}) :
    ReadsAs (r >>= k) (fun b => encA (f b) ++ enc b) out S where
  inside {m o} ho := by
    show ∃ res, (match r m o with
      | .error e => .error e
      | .ok none => .ok none
      | .ok (some (a, o')) => k a m o') = Except.ok res
    obtain ⟨res, hres⟩ := hr.inside ho
    rw [hres]
    cases res with
    | none => exact ⟨none, rfl⟩
    | some v =>
      obtain ⟨a, ha, heq, hpre, hoffset⟩ := (hr.iff ho v.1 v.2).mp hres
      obtain rfl : a = v.1 := heq
      exact (hk v.1 ha).inside (hoffset ▸ offset_le_of_prefixed ho hpre)
  iff {m o} ho c o' := by
    show (match r m o with
      | .error e => .error e
      | .ok none => .ok none
      | .ok (some (a, o')) => k a m o') = Except.ok (some (c, o')) ↔ _
    obtain ⟨res, hres⟩ := hr.inside ho
    rw [hres]
    constructor
    · intro h
      cases res with
      | none => exact nomatch h
      | some v =>
        obtain ⟨a, ha, heq, hpre, hoffset⟩ := (hr.iff ho v.1 v.2).mp hres
        obtain rfl : a = v.1 := heq
        have hle : v.2 ≤ m.length := hoffset ▸ offset_le_of_prefixed ho hpre
        -- Read apart: the rest encodes a value whose field is the one just read.
        obtain ⟨b, ⟨hb, hf⟩, hout, hrest, hend⟩ := ((hk v.1 ha).iff hle c o').mp h
        refine ⟨b, hb, hout, ?_, ?_⟩
        · rw [append_prefix_drop, hf]
          exact ⟨hpre, hoffset ▸ hrest⟩
        · rw [hend, hoffset, hf, List.length_append, Nat.add_assoc]
    · rintro ⟨b, hb, hout, hpre, rfl⟩
      -- Read as one: the encoding of the field comes first.
      obtain ⟨hfirst, hrest⟩ := append_prefix_drop.mp hpre
      have hread := (hr.iff ho (f b) _).mpr ⟨f b, hf b hb, rfl, hfirst, rfl⟩
      obtain rfl : res = some (f b, o + (encA (f b)).length) :=
        Except.ok.inj (hres.symm.trans hread)
      refine ((hk (f b) (hf b hb)).iff (offset_le_of_prefixed ho hfirst) c _).mpr
        ⟨b, ⟨hb, rfl⟩, hout, hrest, ?_⟩
      rw [List.length_append, Nat.add_assoc]

theorem Reads.bind {r : Reader α} {encA : α → List UInt8} {k : α → Reader γ} (hr : Reads r encA)
    (f : β → α) (hk : ∀ a, ReadsAs (k a) enc out {b | b ∈ S ∧ f b = a}) :
    ReadsAs (r >>= k) (fun b => encA (f b) ++ enc b) out S :=
  ReadsAs.bind hr f (fun _ _ => Set.mem_univ _) fun a _ => hk a

/-- Another way to write the encoder. -/
theorem ReadsAs.congr {r : Reader γ} {enc' : β → List UInt8} (h : ReadsAs r enc out S)
    (henc : ∀ b, enc' b = enc b) : ReadsAs r enc' out S := by
  obtain rfl : enc' = enc := funext henc
  exact h

theorem ReadsAs.map {δ : Type} {r : Reader γ} (h : ReadsAs r enc out S) (g : γ → δ) :
    ReadsAs (do let c ← r; return g c) enc (fun b => g (out b)) S where
  inside {m o} ho := by
    obtain ⟨res, hres⟩ := h.inside ho
    show ∃ res', (match r m o with
      | .error e => .error e
      | .ok none => .ok none
      | .ok (some (c, o')) => .ok (some (g c, o'))) = Except.ok res'
    rw [hres]
    cases res <;> exact ⟨_, rfl⟩
  iff {m o} ho c o' := by
    -- `g` need not be injective: `h.iff` is used at the value that was read.
    obtain ⟨res, hres⟩ := h.inside ho
    show (match r m o with
      | .error e => .error e
      | .ok none => .ok none
      | .ok (some (c, o')) => .ok (some (g c, o'))) = Except.ok (some (c, o')) ↔ _
    constructor
    · intro hread
      rw [hres] at hread
      cases res with
      | none => exact nomatch hread
      | some v =>
        obtain ⟨rfl, rfl⟩ := Prod.mk.inj (Option.some.inj (Except.ok.inj hread))
        obtain ⟨b, hb, hout, hpre⟩ := (h.iff ho v.1 v.2).mp hres
        exact ⟨b, hb, congrArg g hout, hpre⟩
    · rintro ⟨b, hb, rfl, hpre⟩
      rw [(h.iff ho (out b) o').mpr ⟨b, hb, rfl, hpre⟩]

/-- The same encodings, as those of other values. -/
theorem ReadsAs.reindex {β' : Type} {r : Reader γ} {enc' : β' → List UInt8} {out' : β' → γ}
    (h : ReadsAs r enc out S) (f : β → β') (henc : ∀ b, enc' (f b) = enc b)
    (hout : ∀ b, out' (f b) = out b) : ReadsAs r enc' out' (f '' S) where
  inside := h.inside
  iff {m o} ho c o' := by
    rw [h.iff ho, Set.exists_mem_image]
    simp only [henc, hout]

/-- A value read through what it is made of. -/
theorem Reads.equiv {r : Reader α} {encA : α → List UInt8} (hr : Reads r encA) {g : α → β}
    {f : β → α} (hgf : ∀ b, g (f b) = b) (hfg : ∀ a, f (g a) = a) :
    Reads (do let a ← r; return g a) fun b => encA (f b) := by
  have hall : g '' Set.univ = Set.univ := Set.image_univ_of_surjective fun b => ⟨f b, hgf b⟩
  have hread : ReadsAs (do let a ← r; return g a) (fun b => encA (f b)) id (g '' Set.univ) :=
    (hr.map g).reindex g (fun a => congrArg encA (hfg a)) fun _ => rfl
  rwa [hall] at hread

/-- As many bytes as `n`, as a list. -/
theorem readsAs_takeList (n : ℕ) :
    ReadsAs (do let bs ← take n; return bs.toList) id id {bs | bs.length = n} := by
  have hall : Vector.toList '' (Set.univ : Set (Vector UInt8 n)) = {bs | bs.length = n} := by
    ext bs
    constructor
    · rintro ⟨v, -, rfl⟩
      exact v.length_toList
    · rintro rfl
      exact ⟨⟨bs.toArray, rfl⟩, Set.mem_univ _, rfl⟩
  have hread : ReadsAs (do let bs ← take n; return bs.toList) id id
      (Vector.toList '' (Set.univ : Set (Vector UInt8 n))) :=
    ((reads_take n).map Vector.toList).reindex Vector.toList (fun _ => rfl) fun _ => rfl
  rwa [hall] at hread

theorem Reads.vector {r : Reader α} {encA : α → List UInt8} (hr : Reads r encA) (n : ℕ) :
    Reads (Reader.vector r n) fun as => as.toList.flatMap encA := by
  induction n with
  | zero =>
    have hempty : ReadsAs (pure #v[]) (fun _ : Vector α 0 => []) id Set.univ :=
      readsAs_pure rfl fun as => by simp
    refine hempty.congr fun as => ?_
    rw [show as = #v[] from Vector.eq_empty]
    rfl
  | succ n ih =>
    -- The vector is read without its last element, and then that element.
    have hlast : Reads (Reader.vector r (n + 1)) fun as : Vector α (n + 1) =>
        as.pop.toList.flatMap encA ++ (encA as.back ++ []) := by
      refine ih.bind (fun as : Vector α (n + 1) => (as.pop : Vector α n)) fun init =>
        hr.bind Vector.back fun a => ?_
      refine readsAs_pure (b := init.push a) rfl fun as => ?_
      constructor
      · rintro ⟨⟨-, rfl⟩, rfl⟩
        exact (as.push_pop_back).symm
      · rintro rfl
        exact ⟨⟨Set.mem_univ _, Vector.pop_push⟩, by simp [Vector.back]⟩
    refine hlast.congr fun as => ?_
    have hsplit : as.toList = as.pop.toList ++ [as.back] := by
      rw [← Vector.toList_push, Vector.push_pop_back]
    rw [hsplit, List.flatMap_append, List.flatMap_singleton, List.append_nil]

end Reader
