import Mathlib.Data.Nat.Init

/-!
# Little-endian words

A word of `8 * k` bits as `k` bytes, least significant first.

* `bytes` takes a word apart by shifting it, `word` puts one together by shifting each byte to its
  place;
* `word_bytes` and `bytes_word` show that each undoes the other.
-/

namespace LittleEndian

variable {w k : ℕ}

/-- The byte of `v` at place `i`. -/
def byte (v : BitVec w) (i : ℕ) : UInt8 := ⟨(v >>> (8 * i)).setWidth 8⟩

/-- The bytes of a word. -/
def bytes (v : BitVec (8 * k)) : Vector UInt8 k := Vector.ofFn fun i => byte v i

/-- The bytes `bs` are added to `v` from place `i` on. -/
def accumulate (v : BitVec w) (i : ℕ) : List UInt8 → BitVec w
  | [] => v
  | b :: bs => accumulate (v ||| b.toBitVec.setWidth w <<< (8 * i)) (i + 1) bs

/-- The word the bytes make up. -/
def word (bs : Vector UInt8 k) : BitVec (8 * k) := accumulate 0 0 bs.toList

/-- The bit at place `j` of a row of bytes. -/
def bit (bs : List UInt8) (j : ℕ) : Bool := (bs.getD (j / 8) 0).toBitVec.getLsbD (j % 8)

/-- The bits of the `i`-th byte are eight of the word. -/
theorem getLsbD_byte (v : BitVec w) (i j : ℕ) :
    (byte v i).toBitVec.getLsbD j = (decide (j < 8) && v.getLsbD (8 * i + j)) := by
  simp [byte, BitVec.getLsbD_setWidth]

/-- Accumulated bytes set the bits from their place on. -/
theorem getLsbD_accumulate (bs : List UInt8) (v : BitVec w) (i j : ℕ) :
    (accumulate v i bs).getLsbD j =
      (v.getLsbD j || (decide (8 * i ≤ j) && decide (j < w) && bit bs (j - 8 * i))) := by
  induction bs generalizing v i with
  | nil => simp [accumulate, bit]
  | cons b bs ih =>
    rw [accumulate, ih, BitVec.getLsbD_or, BitVec.getLsbD_shiftLeft, BitVec.getLsbD_setWidth]
    -- The bit belongs to `b`, to a byte after it, or to one before it.
    rcases Nat.lt_or_ge j (8 * i) with hbefore | hge
    · simp [hbefore, show ¬8 * i ≤ j by omega, show ¬8 * (i + 1) ≤ j by omega]
    · rcases Nat.lt_or_ge j (8 * (i + 1)) with hhere | hafter
      · have hdiv : (j - 8 * i) / 8 = 0 := by omega
        have hmod : (j - 8 * i) % 8 = j - 8 * i := by omega
        by_cases hw : j < w
        · simp [bit, hdiv, hmod, hw, hge, show ¬j < 8 * i by omega,
            show ¬8 * (i + 1) ≤ j by omega, show j - 8 * i < w by omega]
        · simp [hw]
      · have hdiv : (j - 8 * i) / 8 = (j - 8 * (i + 1)) / 8 + 1 := by omega
        have hmod : (j - 8 * i) % 8 = (j - 8 * (i + 1)) % 8 := by omega
        have hzero : b.toBitVec.getLsbD (j - 8 * i) = false :=
          BitVec.getLsbD_of_ge _ _ (by omega)
        simp [bit, hdiv, hmod, hge, hafter, hzero]

/-- A word is read back from its bytes. -/
theorem word_bytes (v : BitVec (8 * k)) : word (bytes v) = v := by
  refine BitVec.eq_of_getLsbD_eq fun j hj => ?_
  have hplace : j / 8 < k := by omega
  have hbyte : (bytes v).toList.getD (j / 8) 0 = byte v (j / 8) := by
    simp [bytes, hplace]
  rw [word, getLsbD_accumulate, bit, Nat.mul_zero, Nat.sub_zero, hbyte, getLsbD_byte]
  simp [hj, Nat.mod_lt, Nat.div_add_mod]

/-- Bytes are read back from their word. -/
theorem bytes_word (bs : Vector UInt8 k) : bytes (word bs) = bs := by
  refine Vector.ext fun i hi => ?_
  rw [bytes, Vector.getElem_ofFn]
  refine UInt8.toBitVec_inj.mp (BitVec.eq_of_getLsbD_eq fun j hj => ?_)
  have hdiv : (8 * i + j) / 8 = i := by omega
  have hmod : (8 * i + j) % 8 = j := by omega
  rw [getLsbD_byte, word, getLsbD_accumulate, bit, Nat.mul_zero, Nat.sub_zero, hdiv, hmod]
  simp [hj, hi, show 8 * i + j < 8 * k by omega]

end LittleEndian
