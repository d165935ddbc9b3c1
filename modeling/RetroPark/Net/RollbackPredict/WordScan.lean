import RetroPark.Net.RollbackPredict
import Mathlib.Order.Bounds.Basic

/-!
# The misprediction scan on 64-bit frames

`rb_first_mispredicted` counts its frames in 64 bits and returns `UINT64_MAX` for none. The check
that ends its loop comes before the counter is incremented, which would wrap around at the largest
frame.

* `rbFirstMispredictedWithin` is the loop for a number of frames;
* `rbFirstMispredictedWithin_eq` says that the loop ends, with what the scan of
  `RetroPark.Net.RollbackPredict` returns;
* `rbFirstMispredicted_least` is about any range of 64-bit frames.
-/

namespace RetroPark.Net.WordScan

/-- The order of `uint64_t`. -/
scoped instance uint64LinearOrder : LinearOrder UInt64 where
  le_refl := UInt64.le_refl
  le_trans _ _ _ := UInt64.le_trans
  le_antisymm _ _ := UInt64.le_antisymm
  le_total := UInt64.le_total
  lt_iff_le_not_ge := Std.LawfulOrderLT.lt_iff
  toDecidableLE := inferInstance

/-- The order of 64-bit frames is that of their numbers. -/
theorem toNat_strictMono : StrictMono UInt64.toNat := fun _ _ => UInt64.lt_iff_toNat_lt.mp

/-- `UINT64_MAX`. -/
def uint64Max : UInt64 := 0xFFFFFFFFFFFFFFFF

section Scan

variable (real used : OrderedMap UInt64 InputState)

/-- The frame has a real input that differs from what was used, the neutral input if nothing was. -/
def mispredicted (f : UInt64) : Bool :=
  match real.find? f with
  | some r => decide (r ≠ (used.find? f).getD .neutral)
  | none => false

/-- The loop of `rb_first_mispredicted` from `f` on, for at most `n` frames. -/
def scanFrames (last : UInt64) : ℕ → UInt64 → Option UInt64
  | 0, _ => none
  | n + 1, f =>
      if mispredicted real used f then some f
      else if f = last then some uint64Max
      else scanFrames last n (f + 1)

/-- `rb_first_mispredicted`, if it returns after at most `n` frames. -/
def rbFirstMispredictedWithin (n : ℕ) (first last : UInt64) : Option UInt64 :=
  if first > last then some uint64Max else scanFrames real used last n first

/-- The frames of the range whose real input differs from what was used. -/
def mispredictedFrames (first last : UInt64) : Set UInt64 :=
  {f | first ≤ f ∧ f ≤ last ∧ ∃ r, real.find? f = some r ∧ r ≠ (used.find? f).getD .neutral}

end Scan

/-- The map over unbounded frames. -/
def unbounded (m : OrderedMap UInt64 InputState) : OrderedMap ℕ InputState :=
  m.mapKeys UInt64.toNat toNat_strictMono

/-- The frame as it is returned. -/
def returned (f : Option ℕ) : UInt64 := (f.map UInt64.ofNat).getD uint64Max

variable {real used : OrderedMap UInt64 InputState}

/-- A frame is mispredicted in 64 bits as it is without a bound. -/
theorem mispredicted_iff {f : UInt64} :
    mispredicted real used f = true ↔ Mispredicted (unbounded real) (unbounded used) f.toNat := by
  unfold mispredicted Mispredicted unbounded
  rw [OrderedMap.find?_mapKeys, OrderedMap.find?_mapKeys]
  cases real.find? f <;> simp

/-- The mispredicted frames of a range. -/
theorem mem_mispredictedFrames {first last f : UInt64} :
    f ∈ mispredictedFrames real used first last ↔
      first ≤ f ∧ f ≤ last ∧ Mispredicted (unbounded real) (unbounded used) f.toNat := by
  unfold mispredictedFrames Mispredicted unbounded
  rw [OrderedMap.find?_mapKeys, OrderedMap.find?_mapKeys]
  rfl

/-- The loop ends after the frames up to the last one, and returns what the scan of as many frames
does. -/
theorem scanFrames_eq {last f : UInt64} {k n : ℕ} (hlast : last.toNat = f.toNat + k) (hn : k < n) :
    scanFrames real used last n f =
      some (returned
        (firstMispredictedFrom (unbounded real) (unbounded used) (k + 1) f.toNat)) := by
  induction k generalizing f n with
  | zero =>
    obtain ⟨n, rfl⟩ := Nat.exists_eq_succ_of_ne_zero (Nat.ne_zero_of_lt hn)
    obtain rfl : last = f := UInt64.toNat_inj.mp hlast
    rw [scanFrames, firstMispredictedFrom]
    by_cases hmis : mispredicted real used last = true
    · rw [if_pos hmis, if_pos (mispredicted_iff.mp hmis)]
      simp [returned]
    · rw [if_neg hmis, if_neg (mt mispredicted_iff.mpr hmis), if_pos rfl]
      rfl
  | succ k ih =>
    obtain ⟨n, rfl⟩ := Nat.exists_eq_succ_of_ne_zero (Nat.ne_zero_of_lt hn)
    rw [scanFrames, firstMispredictedFrom]
    by_cases hmis : mispredicted real used f = true
    · rw [if_pos hmis, if_pos (mispredicted_iff.mp hmis)]
      simp [returned]
    · -- Below the last frame the counter does not wrap around.
      have hbound := last.toNat_lt
      have hnext : (f + 1).toNat = f.toNat + 1 := by
        rw [UInt64.toNat_add]
        exact Nat.mod_eq_of_lt (by simp; omega)
      have hne : f ≠ last := by
        rintro rfl
        omega
      rw [if_neg hmis, if_neg (mt mispredicted_iff.mpr hmis), if_neg hne,
        ih (by omega) (by omega), hnext]

/-- `rb_first_mispredicted` returns after at most the frames of the range. -/
theorem rbFirstMispredictedWithin_eq {first last : UInt64} {n : ℕ} (hn : (last - first).toNat < n) :
    rbFirstMispredictedWithin real used n first last =
      some (returned
        (rbFirstMispredicted (unbounded real) (unbounded used) first.toNat last.toNat)) := by
  unfold rbFirstMispredictedWithin rbFirstMispredicted
  by_cases hempty : last < first
  · rw [if_pos hempty, if_pos (toNat_strictMono hempty)]
    rfl
  · have hle : first ≤ last := not_lt.mp hempty
    have hsub := UInt64.toNat_sub_of_le _ _ hle
    have hnat := UInt64.le_iff_toNat_le.mp hle
    rw [if_neg hempty, if_neg (by omega), ← hsub]
    exact scanFrames_eq (by omega) hn

/-- A scan that finds nothing has missed nothing. -/
theorem mispredictedFrames_eq_empty {first last : UInt64}
    (h : rbFirstMispredicted (unbounded real) (unbounded used) first.toNat last.toNat = none) :
    mispredictedFrames real used first last = ∅ := by
  refine Set.eq_empty_iff_forall_notMem.mpr fun f hf => ?_
  obtain ⟨hfirst, hlast, hmis⟩ := mem_mispredictedFrames.mp hf
  exact not_mispredicted_of_none h (UInt64.le_iff_toNat_le.mp hfirst)
    (UInt64.le_iff_toNat_le.mp hlast) hmis

/-- A scan finds the least mispredicted frame. -/
theorem isLeast_mispredictedFrames {first last : UInt64} {g : ℕ}
    (h : rbFirstMispredicted (unbounded real) (unbounded used) first.toNat last.toNat = some g) :
    IsLeast (mispredictedFrames real used first last) (UInt64.ofNat g) := by
  obtain ⟨hfirst, hlast, hmis, hbelow⟩ := mispredicted_of_some h
  have hg : (UInt64.ofNat g).toNat = g := UInt64.toNat_ofNat_of_lt' (hlast.trans_lt last.toNat_lt)
  constructor
  · apply mem_mispredictedFrames.mpr
    rw [UInt64.le_iff_toNat_le, UInt64.le_iff_toNat_le, hg]
    exact ⟨hfirst, hlast, hmis⟩
  · intro f hf
    obtain ⟨hf, -, hmis'⟩ := mem_mispredictedFrames.mp hf
    rw [UInt64.le_iff_toNat_le, hg]
    by_contra hlt
    exact hbelow _ (UInt64.le_iff_toNat_le.mp hf) (not_le.mp hlt) hmis'

/-- For any range of frames, up to the largest ones, `rb_first_mispredicted` returns the least frame
that was mispredicted, and `UINT64_MAX` if there is none. -/
theorem rbFirstMispredicted_least (real used : OrderedMap UInt64 InputState) (first last : UInt64) :
    ∃ r, (∀ n, (last - first).toNat < n →
      rbFirstMispredictedWithin real used n first last = some r) ∧
      ((mispredictedFrames real used first last).Nonempty →
        IsLeast (mispredictedFrames real used first last) r) ∧
      (mispredictedFrames real used first last = ∅ → r = uint64Max) ∧
      (last < uint64Max → (r = uint64Max ↔ mispredictedFrames real used first last = ∅)) := by
  refine ⟨_, fun n hn => rbFirstMispredictedWithin_eq hn, ?_⟩
  cases hscan : rbFirstMispredicted (unbounded real) (unbounded used) first.toNat last.toNat with
  | none =>
    have hnone := mispredictedFrames_eq_empty hscan
    exact ⟨fun hsome => (hsome.ne_empty hnone).elim, fun _ => rfl,
      fun _ => ⟨fun _ => hnone, fun _ => rfl⟩⟩
  | some g =>
    have hleast := isLeast_mispredictedFrames hscan
    have hne := hleast.nonempty.ne_empty
    refine ⟨fun _ => hleast, fun hnone => (hne hnone).elim, fun hlast => ?_⟩
    -- The frame is in the range, and so not the largest one.
    have hle : UInt64.ofNat g ≤ last := hleast.1.2.1
    exact iff_of_false (hle.trans_lt hlast).ne hne

/-- Frame 3 was run with the neutral input, and its real one has the key held. -/
def heldAt3 : OrderedMap UInt64 InputState :=
  OrderedMap.empty.insert 3 { InputState.neutral with padButtons := 1 }

example : rbFirstMispredictedWithin heldAt3 .empty 2 (uint64Max - 1) uint64Max =
  some uint64Max := by
  decide

/-- A held input is mispredicted in the frame in which it is let go. -/
theorem rbFirstMispredicted_least_heldAt3 :
    rbFirstMispredictedWithin heldAt3 .empty 6 0 5 = some 3 ∧
      IsLeast (mispredictedFrames heldAt3 .empty 0 5) 3 := by
  obtain ⟨r, hreturns, hleast, -, hmax⟩ := rbFirstMispredicted_least heldAt3 .empty 0 5
  have hthree : rbFirstMispredictedWithin heldAt3 .empty 6 0 5 = some 3 := by decide +kernel
  obtain rfl : 3 = r := Option.some.inj (hthree.symm.trans (hreturns 6 (by decide)))
  have hnone := hmax (by decide)
  exact ⟨hthree, hleast (Set.nonempty_iff_ne_empty.mpr (mt hnone.mpr (by decide)))⟩

end RetroPark.Net.WordScan
