import Mathlib.Data.Nat.Init
import Mathlib.Tactic.Ring

/-!
# Rows in a buffer

A picture in memory is a number of rows of `n` elements, each starting `stride` elements after the
one before. The rest of a row is padding.

* `slice` reads a piece of a buffer and `write` replaces one; `slice_write` and `slice_write_before`
  say what is read after a write;
* `Fits` says that a buffer has all of the rows, and `Holds` that it has room for rows of one
  stride;
* `copy` copies rows one after another from wherever they are to rows of one stride, and
  `slice_copy` says that they arrive;
* `fill` writes a row element by element, and `slice_fill` and `slice_fill_before` say what is read
  after it.
-/

namespace Strided

variable {α : Type*}

/-- The `n` elements from offset `o` on. -/
def slice (buf : List α) (o n : ℕ) : List α := (buf.drop o).take n

/-- The buffer with `xs` in place of what it has from offset `o` on. -/
def write (buf : List α) (o : ℕ) (xs : List α) : List α :=
  buf.take o ++ (xs ++ buf.drop (o + xs.length))

theorem length_slice {buf : List α} {o n : ℕ} (h : o + n ≤ buf.length) :
    (slice buf o n).length = n := by
  simp only [slice, List.length_take, List.length_drop]
  omega

/-- A piece of a piece. -/
theorem slice_slice {buf : List α} {o n p m : ℕ} (h : p + m ≤ n) :
    slice (slice buf o n) p m = slice buf (o + p) m := by
  simp only [slice, List.drop_take, List.drop_drop, List.take_take]
  rw [Nat.min_eq_left (by omega)]

theorem length_write {buf xs : List α} {o : ℕ} (h : o + xs.length ≤ buf.length) :
    (write buf o xs).length = buf.length := by
  simp only [write, List.length_append, List.length_take, List.length_drop]
  omega

/-- What was written is read back. -/
theorem slice_write {buf xs : List α} {o : ℕ} (h : o ≤ buf.length) :
    slice (write buf o xs) o xs.length = xs := by
  have hlength : (buf.take o).length = o := List.length_take_of_le h
  rw [slice, write, List.drop_left' hlength, List.take_left]

/-- What ends before the write is left alone. -/
theorem slice_write_before {buf xs : List α} {o o' n : ℕ} (hbefore : o' + n ≤ o)
    (h : o ≤ buf.length) : slice (write buf o xs) o' n = slice buf o' n := by
  have hlength : (buf.take o).length = o := List.length_take_of_le h
  rw [slice, write, List.drop_append_of_le_length (by omega), List.take_append_of_le_length, slice,
    List.drop_take, List.take_take, Nat.min_eq_left (by omega)]
  rw [List.length_drop, hlength]
  omega

/-- The buffer has `n` elements at the offset of each of the first rows. -/
def Fits (buf : List α) (offset : ℕ → ℕ) (n height : ℕ) : Prop :=
  ∀ y < height, offset y + n ≤ buf.length

/-- The buffer has room for `height` rows of `n` elements. -/
def Holds (buf : List α) (stride n height : ℕ) : Prop := Fits buf (· * stride) n height

/-- A buffer that ends with the last row has room for all. -/
theorem holds_of_last {buf : List α} {stride n height : ℕ}
    (h : (height - 1) * stride + n ≤ buf.length) : Holds buf stride n height := by
  intro y hy
  have hrow : y * stride ≤ (height - 1) * stride := Nat.mul_le_mul_right _ (by omega)
  show y * stride + n ≤ buf.length
  omega

/-- Copy the first rows, one after another, from their offsets in `src`. -/
def copy (src : List α) (offset : ℕ → ℕ) (n : ℕ) (dst : List α) (stride : ℕ) : ℕ → List α
  | 0 => dst
  | y + 1 => write (copy src offset n dst stride y) (y * stride) (slice src (offset y) n)

section Copy

variable {src dst : List α} {offset : ℕ → ℕ} {stride n height : ℕ}

theorem Fits.of_le {buf : List α} {m : ℕ} (h : Fits buf offset n height) (hm : m ≤ height) :
    Fits buf offset n m :=
  fun y hy => h y (lt_of_lt_of_le hy hm)

theorem length_copy (hsrc : Fits src offset n height) (hdst : Holds dst stride n height) :
    (copy src offset n dst stride height).length = dst.length := by
  induction height with
  | zero => rfl
  | succ y ih =>
    have ih' := ih (hsrc.of_le (Nat.le_succ y)) (hdst.of_le (Nat.le_succ y))
    rw [copy, length_write, ih']
    rw [ih', length_slice (hsrc y (Nat.lt_succ_self y))]
    exact hdst y (Nat.lt_succ_self y)

/-- Every row arrives, and stays when the rows after it are copied. -/
theorem slice_copy (hsrc : Fits src offset n height) (hdst : Holds dst stride n height)
    (hstride : n ≤ stride) {i : ℕ} (hi : i < height) :
    slice (copy src offset n dst stride height) (i * stride) n = slice src (offset i) n := by
  induction height with
  | zero => exact absurd hi (Nat.not_lt_zero i)
  | succ y ih =>
    have hsrc' := hsrc.of_le (Nat.le_succ y)
    have hdst' : Holds dst stride n y := hdst.of_le (Nat.le_succ y)
    have hroom : y * stride ≤ (copy src offset n dst stride y).length := by
      have hlast : y * stride + n ≤ dst.length := hdst y (Nat.lt_succ_self y)
      rw [length_copy hsrc' hdst']
      omega
    have hlength : (slice src (offset y) n).length = n := length_slice (hsrc y (Nat.lt_succ_self y))
    rw [copy]
    rcases Nat.lt_succ_iff_lt_or_eq.mp hi with hlt | rfl
    · -- Row `i` ends before row `y` starts.
      have hrow : i * stride + n ≤ y * stride := by
        have hnext : (i + 1) * stride ≤ y * stride := Nat.mul_le_mul_right _ hlt
        rw [Nat.add_mul, Nat.one_mul] at hnext
        omega
      rw [slice_write_before hrow hroom, ih hsrc' hdst' hlt]
    · have hself : slice (write _ _ (slice src (offset i) n)) _ _ = _ := slice_write hroom
      rwa [hlength] at hself

end Copy

/-! ### Filling a row -/

/-- Write the pieces `f 0`, `f 1` and so on, one after another, to their offsets. -/
def fill (f : ℕ → List α) (offset : ℕ → ℕ) (buf : List α) : ℕ → List α
  | 0 => buf
  | i + 1 => write (fill f offset buf i) (offset i) (f i)

section Fill

variable {f : ℕ → List α} {offset : ℕ → ℕ} {buf : List α} {n count : ℕ}

theorem length_fill (hf : ∀ i < count, (f i).length = n) (hfits : Fits buf offset n count) :
    (fill f offset buf count).length = buf.length := by
  induction count with
  | zero => rfl
  | succ i ih =>
    have ih' := ih (fun j hj => hf j (hj.trans (Nat.lt_succ_self i))) (hfits.of_le (Nat.le_succ i))
    rw [fill, length_write, ih']
    rw [ih', hf i (Nat.lt_succ_self i)]
    exact hfits i (Nat.lt_succ_self i)

/-- What ends before all of the pieces is left alone. -/
theorem slice_fill_before {o m : ℕ} (hbefore : ∀ i < count, o + m ≤ offset i)
    (hf : ∀ i < count, (f i).length = n) (hfits : Fits buf offset n count) :
    slice (fill f offset buf count) o m = slice buf o m := by
  induction count with
  | zero => rfl
  | succ i ih =>
    have hf' : ∀ j < i, (f j).length = n := fun j hj => hf j (hj.trans (Nat.lt_succ_self i))
    have hfits' := hfits.of_le (Nat.le_succ i)
    have hlast : offset i + n ≤ buf.length := hfits i (Nat.lt_succ_self i)
    have hroom : offset i ≤ (fill f offset buf i).length := by
      rw [length_fill hf' hfits']
      omega
    rw [fill, slice_write_before (hbefore i (Nat.lt_succ_self i)) hroom]
    exact ih (fun j hj => hbefore j (hj.trans (Nat.lt_succ_self i))) hf' hfits'

/-- Every piece is read back if each starts where the one before it ends, or later. -/
theorem slice_fill (happart : ∀ i j, i < j → j < count → offset i + n ≤ offset j)
    (hf : ∀ i < count, (f i).length = n) (hfits : Fits buf offset n count) {i : ℕ}
    (hi : i < count) :
    slice (fill f offset buf count) (offset i) n = f i := by
  induction count with
  | zero => exact absurd hi (Nat.not_lt_zero i)
  | succ k ih =>
    have hf' : ∀ j < k, (f j).length = n := fun j hj => hf j (hj.trans (Nat.lt_succ_self k))
    have hfits' := hfits.of_le (Nat.le_succ k)
    have hlast : offset k + n ≤ buf.length := hfits k (Nat.lt_succ_self k)
    have hroom : offset k ≤ (fill f offset buf k).length := by
      rw [length_fill hf' hfits']
      omega
    rw [fill]
    rcases Nat.lt_succ_iff_lt_or_eq.mp hi with hlt | rfl
    · rw [slice_write_before (happart i k hlt (Nat.lt_succ_self k)) hroom]
      exact ih (fun a b hab hb => happart a b hab (hb.trans (Nat.lt_succ_self k))) hf' hfits' hlt
    · have hself : slice (write _ _ (f i)) _ _ = _ := slice_write hroom
      rwa [hf i hi] at hself

end Fill

end Strided
