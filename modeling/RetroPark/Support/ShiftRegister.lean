import Mathlib.Logic.Function.Iterate
import Mathlib.Data.Nat.Notation
import Mathlib.Tactic.SplitIfs

/-!
# Shift registers with feedback

A register of `w` bits moves one place towards its low end in each step, and a fixed word is added
to it, without carries, whenever the bit that leaves it is set. Bits that are fed to it one after
another are added to the ones that leave.

* `shift` is the step and `feed` the step with an input bit;
* `shift_xor` says that the step is linear, `iterate_shift_split` that the low bits decide what is
  added in as many steps;
* `foldl_feed_eq` feeds up to `w` bits at once, by adding them to the register before it is shifted;
* `foldl_feed_ne` tells messages apart whose differences are at most `w` places from each other.
-/

namespace ShiftRegister

variable {w : ℕ} (poly : BitVec w)

/-- The lowest bit leaves the register, and `poly` is added if it was set. -/
def shift (c : BitVec w) : BitVec w := if c.getLsbD 0 then poly ^^^ (c >>> 1) else c >>> 1

/-- A step that takes in a bit: `poly` is added if the bit that leaves the register differs from
it. -/
def feed (c : BitVec w) (bit : Bool) : BitVec w :=
  if c.getLsbD 0 ^^ bit then poly ^^^ (c >>> 1) else c >>> 1

/-- The first bits as a word, the first one lowest. -/
def word (bits : List Bool) : BitVec w := (BitVec.ofBoolListLE bits).setWidth w

@[simp]
theorem getLsbD_word (bits : List Bool) (i : ℕ) :
    (word bits : BitVec w).getLsbD i = (decide (i < w) && bits.getD i false) := by
  simp [word]

@[simp]
theorem getElem_word (bits : List Bool) {i : ℕ} (hi : i < w) :
    (word bits : BitVec w)[i] = bits.getD i false := by
  rw [← BitVec.getLsbD_eq_getElem hi, getLsbD_word, decide_eq_true hi, Bool.true_and]

variable {poly}

/-! ### The step is linear -/

theorem shift_of_even {c : BitVec w} (h : c.getLsbD 0 = false) : shift poly c = c >>> 1 := by
  simp [shift, h]

theorem shift_of_odd {c : BitVec w} (h : c.getLsbD 0 = true) :
    shift poly c = poly ^^^ (c >>> 1) := by
  simp [shift, h]

theorem shift_xor (a b : BitVec w) : shift poly (a ^^^ b) = shift poly a ^^^ shift poly b := by
  have hshift : (a ^^^ b) >>> 1 = a >>> 1 ^^^ b >>> 1 := BitVec.ushiftRight_xor_distrib a b 1
  have hlow : (a ^^^ b).getLsbD 0 = (a.getLsbD 0 ^^ b.getLsbD 0) := BitVec.getLsbD_xor
  cases ha : a.getLsbD 0 <;> cases hb : b.getLsbD 0 <;> rw [ha, hb] at hlow
  · rw [shift_of_even hlow, shift_of_even ha, shift_of_even hb, hshift]
  · rw [shift_of_odd hlow, shift_of_even ha, shift_of_odd hb, hshift, ← BitVec.xor_assoc,
      ← BitVec.xor_assoc,
      BitVec.xor_comm poly]
  · rw [shift_of_odd hlow, shift_of_odd ha, shift_of_even hb, hshift, BitVec.xor_assoc]
  · -- The two copies of `poly` cancel.
    rw [shift_of_even hlow, shift_of_odd ha, shift_of_odd hb, hshift, BitVec.xor_comm poly,
      BitVec.xor_assoc,
      ← BitVec.xor_assoc poly, BitVec.xor_self, BitVec.zero_xor]

theorem iterate_shift_xor (n : ℕ) (a b : BitVec w) :
    (shift poly)^[n] (a ^^^ b) = (shift poly)^[n] a ^^^ (shift poly)^[n] b := by
  induction n generalizing a b with
  | zero => rfl
  | succ n ih =>
    rw [Function.iterate_succ_apply, shift_xor]
    exact ih _ _

/-- Nothing is added while clear bits leave the register. -/
theorem iterate_shift_of_clear {n : ℕ} {c : BitVec w} (h : ∀ i < n, c.getLsbD i = false) :
    (shift poly)^[n] c = c >>> n := by
  induction n with
  | zero => simp
  | succ n ih =>
    have hleaves : (c >>> n).getLsbD 0 = false := by simpa using h n (Nat.lt_succ_self n)
    rw [Function.iterate_succ_apply', ih fun i hi => h i (Nat.lt_succ_of_lt hi),
      shift_of_even hleaves,
      ← BitVec.shiftRight_add]

/-- What `n` steps add is decided by the `n` low bits, which `mask` selects. -/
theorem iterate_shift_split {n : ℕ} (c : BitVec w) {mask : BitVec w}
    (hmask : ∀ i < w, mask.getLsbD i = decide (i < n)) :
    (shift poly)^[n] c = (shift poly)^[n] (c &&& mask) ^^^ (c >>> n) := by
  have hsplit : c = (c &&& mask) ^^^ (c &&& ~~~mask) := by
    refine BitVec.eq_of_getLsbD_eq fun i hi => ?_
    rw [BitVec.getLsbD_xor, BitVec.getLsbD_and, BitVec.getLsbD_and, BitVec.getLsbD_not]
    cases c.getLsbD i <;> cases mask.getLsbD i <;> simp [hi]
  -- The high bits only move down for `n` steps.
  have hclear : ∀ i < n, (c &&& ~~~mask).getLsbD i = false := by
    intro i hi
    rw [BitVec.getLsbD_and, BitVec.getLsbD_not]
    by_cases hw : i < w
    · simp [hmask i hw, hi]
    · simp [hw]
  have hhigh : (c &&& ~~~mask) >>> n = c >>> n := by
    refine BitVec.eq_of_getLsbD_eq fun i hi => ?_
    rw [BitVec.getLsbD_ushiftRight, BitVec.getLsbD_ushiftRight, BitVec.getLsbD_and,
      BitVec.getLsbD_not]
    by_cases hw : n + i < w
    · rw [hmask _ hw]
      simp [hw]
    · simp [BitVec.getLsbD_of_ge c _ (Nat.le_of_not_lt hw)]
  calc (shift poly)^[n] c = (shift poly)^[n] ((c &&& mask) ^^^ (c &&& ~~~mask)) := by rw [← hsplit]
    _ = (shift poly)^[n] (c &&& mask) ^^^ (c >>> n) := by
      rw [iterate_shift_xor, iterate_shift_of_clear hclear, hhigh]

/-! ### The step is injective -/

/-- The bit that leaves the register is seen in its highest bit, if `poly` has that bit. -/
theorem msb_shift (hpoly : poly.msb = true) (c : BitVec w) : (shift poly c).msb = c.getLsbD 0 := by
  have htop : (c >>> 1).msb = false := by simp [BitVec.msb_ushiftRight]
  cases h : c.getLsbD 0
  · rw [shift_of_even h, htop]
  · rw [shift_of_odd h, BitVec.msb_xor, hpoly, htop]
    rfl

theorem shift_injective (hpoly : poly.msb = true) : Function.Injective (shift poly) := by
  intro a b h
  have hlow : a.getLsbD 0 = b.getLsbD 0 := by
    rw [← msb_shift hpoly a, ← msb_shift hpoly b, h]
  have hrest : a >>> 1 = b >>> 1 := by
    unfold shift at h
    rw [hlow] at h
    split_ifs at h
    · exact (BitVec.xor_right_inj poly).mp h
    · exact h
  refine BitVec.eq_of_getLsbD_eq fun i _ => ?_
  cases i with
  | zero => exact hlow
  | succ i =>
    have hbit := congrArg (·.getLsbD i) hrest
    simpa [Nat.add_comm] using hbit

/-! ### Feeding bits -/

/-- What is fed is added to the bit that leaves. -/
theorem feed_xor_word (c : BitVec w) (b : Bool) {bs : List Bool} (hbs : bs.length < w) :
    feed poly c b ^^^ word bs = shift poly (c ^^^ word (b :: bs)) := by
  have hw : 0 < w := Nat.zero_lt_of_lt hbs
  have hlow : (c ^^^ word (b :: bs)).getLsbD 0 = (c.getLsbD 0 ^^ b) := by simp [hw]
  have hrest : (c ^^^ word (b :: bs)) >>> 1 = (c >>> 1) ^^^ word bs := by
    rw [BitVec.ushiftRight_xor_distrib]
    congr 1
    refine BitVec.eq_of_getLsbD_eq fun i hi => ?_
    rw [BitVec.getLsbD_ushiftRight, getLsbD_word, getLsbD_word]
    by_cases hnext : 1 + i < w
    · rw [decide_eq_true hnext, decide_eq_true hi, Nat.add_comm 1 i]
      rfl
    · -- The word has no bit in its highest place.
      have hout : bs[i]? = none := List.getElem?_eq_none (by omega)
      simp [hnext, List.getD_eq_getElem?_getD, hout]
  unfold feed shift
  rw [hlow, hrest]
  split_ifs
  · exact BitVec.xor_assoc ..
  · rfl

/-- Up to `w` bits can be fed by adding them to the register first. -/
theorem foldl_feed_eq (c : BitVec w) (bits : List Bool) (hbits : bits.length ≤ w) :
    bits.foldl (feed poly) c = (shift poly)^[bits.length] (c ^^^ word bits) := by
  induction bits generalizing c with
  | nil =>
    have hnone : (word [] : BitVec w) = 0 := BitVec.eq_of_getLsbD_eq fun i _ => by simp
    rw [hnone]
    exact BitVec.xor_zero.symm
  | cons b bs ih =>
    rw [List.foldl_cons, ih _ (Nat.le_of_succ_le hbits), feed_xor_word c b hbits]
    rfl

/-- The register after a message tells what it was before. -/
theorem foldl_feed_injective (hpoly : poly.msb = true) (bits : List Bool) :
    Function.Injective fun c => bits.foldl (feed poly) c := by
  induction bits with
  | nil => exact fun _ _ h => h
  | cons b bs ih =>
    intro c c' h
    have hfeed : feed poly c b = feed poly c' b := ih h
    have hw : 0 < w := by
      by_contra hzero
      obtain rfl : w = 0 := by omega
      exact absurd hpoly (by simp [BitVec.of_length_zero])
    have hstep : ∀ c : BitVec w, feed poly c b ^^^ word [] = shift poly (c ^^^ word [b]) :=
      fun c => feed_xor_word c b hw
    have hshift : shift poly (c ^^^ word [b]) = shift poly (c' ^^^ word [b]) := by
      rw [← hstep c, ← hstep c', hfeed]
    exact (BitVec.xor_left_inj _).mp (shift_injective hpoly hshift)

/-- The register after at most `w` bits tells what they were. -/
theorem eq_of_foldl_feed_eq (hpoly : poly.msb = true) {c : BitVec w} {bits bits' : List Bool}
    (hlen : bits.length = bits'.length) (hbits : bits.length ≤ w)
    (h : bits.foldl (feed poly) c = bits'.foldl (feed poly) c) : bits = bits' := by
  rw [foldl_feed_eq c bits hbits, foldl_feed_eq c bits' (hlen ▸ hbits), hlen] at h
  have hword : (word bits : BitVec w) = word bits' :=
    (BitVec.xor_right_inj c).mp ((shift_injective hpoly).iterate _ h)
  refine List.ext_getElem hlen fun i hi hi' => ?_
  have hbit := congrArg (·.getLsbD i) hword
  simpa [Nat.lt_of_lt_of_le hi hbits, hi, hi'] using hbit

/-! ### Bursts -/

/-- The lists differ only in the `n` places from the `k`-th on. -/
def DifferWithin {α : Type*} (k n : ℕ) (l l' : List α) : Prop :=
  ∀ i, l[i]? ≠ l'[i]? → k ≤ i ∧ i < k + n

theorem differWithin_iff {α : Type*} {k n : ℕ} {l l' : List α} :
    DifferWithin k n l l' ↔ l.take k = l'.take k ∧ l.drop (k + n) = l'.drop (k + n) := by
  constructor
  · intro h
    constructor
    · apply List.ext_getElem?
      intro i
      rw [List.getElem?_take, List.getElem?_take]
      split_ifs with hi
      · exact of_not_not fun hdiff => absurd (h i hdiff).1 (by omega)
      · rfl
    · apply List.ext_getElem?
      intro i
      rw [List.getElem?_drop, List.getElem?_drop]
      exact of_not_not fun hdiff => absurd (h _ hdiff).2 (by omega)
  · rintro ⟨hbefore, hafter⟩ i hdiff
    constructor
    · by_contra hi
      have hbit := congrArg (·[i]?) hbefore
      simp only [List.getElem?_take, if_pos (Nat.lt_of_not_le hi)] at hbit
      exact hdiff hbit
    · by_contra hi
      have hbit := congrArg (·[i - (k + n)]?) hafter
      simp only [List.getElem?_drop, Nat.add_sub_cancel' (Nat.le_of_not_lt hi)] at hbit
      exact hdiff hbit

instance {α : Type*} [DecidableEq α] (k n : ℕ) (l l' : List α) :
    Decidable (DifferWithin k n l l') :=
  decidable_of_iff _ differWithin_iff.symm

/-- A list is what comes before a window, what is in it and what comes after it. -/
theorem take_append_window {α : Type*} (k n : ℕ) (l : List α) :
    l = l.take k ++ ((l.drop k).take n ++ l.drop (k + n)) := by
  rw [← List.drop_drop, List.take_append_drop, List.take_append_drop]

/-- Two messages whose differences are all within `w` consecutive bits leave the register
different. -/
theorem foldl_feed_ne (hpoly : poly.msb = true) (c : BitVec w) {bits bits' : List Bool}
    (hlen : bits.length = bits'.length) (hne : bits ≠ bits') {k : ℕ}
    (hwindow : DifferWithin k w bits bits') :
    bits.foldl (feed poly) c ≠ bits'.foldl (feed poly) c := by
  intro h
  obtain ⟨hbefore, hafter⟩ := differWithin_iff.mp hwindow
  have hbits := take_append_window k w bits
  have hbits' := take_append_window k w bits'
  rw [← hbefore, ← hafter] at hbits'
  rw [hbits, hbits', List.foldl_append, List.foldl_append, List.foldl_append,
    List.foldl_append] at h
  have hinside : (bits.drop k).take w = (bits'.drop k).take w :=
    eq_of_foldl_feed_eq hpoly (by simp [hlen]) (List.length_take_le ..)
      (foldl_feed_injective hpoly _ h)
  rw [← hinside] at hbits'
  exact hne (hbits.trans hbits'.symm)

end ShiftRegister
