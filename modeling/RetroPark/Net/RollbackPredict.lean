import RetroPark.Abi
import RetroPark.Support.OrderedMap

/-!
# Prediction and the misprediction scan

The pure helpers of the rollback session: the predicted remote input of an unconfirmed frame, the
scan for the earliest frame that was simulated with the wrong remote input, and pruning.
-/

namespace RetroPark.Net

/-- `rb_predict`: repeat the last confirmed input, neutral before there is one. -/
def rbPredict (remote : OrderedMap ℕ InputState) (confirmed : ℕ) : InputState :=
  (remote.find? confirmed).getD .neutral

/-- Frame `f` has a real remote input that differs from the one used for it. -/
def Mispredicted (real used : OrderedMap ℕ InputState) (f : ℕ) : Prop :=
  ∃ r, real.find? f = some r ∧ r ≠ (used.find? f).getD .neutral

instance (real used : OrderedMap ℕ InputState) (f : ℕ) : Decidable (Mispredicted real used f) :=
  match h : real.find? f with
  | none => isFalse fun ⟨_, hr, _⟩ => by simp [h] at hr
  | some r => decidable_of_iff (r ≠ (used.find? f).getD .neutral) (by simp [Mispredicted, h])

/-- The scan of `rb_first_mispredicted` over `n` frames from `f`. -/
def firstMispredictedFrom (real used : OrderedMap ℕ InputState) : ℕ → ℕ → Option ℕ
  | 0, _ => none
  | n + 1, f =>
      if Mispredicted real used f then some f else firstMispredictedFrom real used n (f + 1)

/-- `rb_first_mispredicted` over `[first, last]`; `none` stands for `UINT64_MAX`. -/
def rbFirstMispredicted (real used : OrderedMap ℕ InputState) (first last : ℕ) : Option ℕ :=
  if last < first then none else firstMispredictedFrom real used (last - first + 1) first

variable {real used : OrderedMap ℕ InputState}

theorem firstMispredictedFrom_eq_none {n f : ℕ} (h : firstMispredictedFrom real used n f = none) :
    ∀ k, f ≤ k → k < f + n → ¬Mispredicted real used k := by
  induction n generalizing f with
  | zero => intro k hle hlt; omega
  | succ n ih =>
    rw [firstMispredictedFrom] at h
    split_ifs at h with hf
    intro k hle hlt
    rcases Nat.eq_or_lt_of_le hle with rfl | hlt'
    · exact hf
    · exact ih h k hlt' (by omega)

theorem firstMispredictedFrom_eq_some {n f g : ℕ}
    (h : firstMispredictedFrom real used n f = some g) :
    f ≤ g ∧ g < f + n ∧ Mispredicted real used g ∧
      ∀ k, f ≤ k → k < g → ¬Mispredicted real used k := by
  induction n generalizing f with
  | zero => simp [firstMispredictedFrom] at h
  | succ n ih =>
    rw [firstMispredictedFrom] at h
    split_ifs at h with hf
    · obtain rfl : f = g := by simpa using h
      exact ⟨le_rfl, by omega, hf, fun k hle hlt => by omega⟩
    · obtain ⟨hle, hlt, hg, hbelow⟩ := ih h
      refine ⟨by omega, by omega, hg, fun k hk hkg => ?_⟩
      rcases Nat.eq_or_lt_of_le hk with rfl | hlt'
      · exact hf
      · exact hbelow k hlt' hkg

/-- The scan reads the record of used inputs within its range only. -/
theorem rbFirstMispredicted_congr {used' : OrderedMap ℕ InputState} {first last : ℕ}
    (h : ∀ k, k ≤ last → used.find? k = used'.find? k) :
    rbFirstMispredicted real used first last = rbFirstMispredicted real used' first last := by
  have hscan : ∀ n f, f + n ≤ last + 1 →
      firstMispredictedFrom real used n f = firstMispredictedFrom real used' n f := by
    intro n
    induction n with
    | zero => exact fun _ _ => rfl
    | succ n ih =>
      intro f hle
      have hhead : Mispredicted real used f ↔ Mispredicted real used' f := by
        unfold Mispredicted
        rw [h f (by omega)]
      rw [firstMispredictedFrom, firstMispredictedFrom, ih (f + 1) (by omega)]
      exact if_congr hhead rfl rfl
  unfold rbFirstMispredicted
  split_ifs with hlt
  · rfl
  · exact hscan _ _ (by omega)

/-- The scan finds nothing exactly when no frame of the range was mispredicted. -/
theorem not_mispredicted_of_none {first last : ℕ}
    (h : rbFirstMispredicted real used first last = none) {k : ℕ} (hfirst : first ≤ k)
    (hlast : k ≤ last) : ¬Mispredicted real used k := by
  rw [rbFirstMispredicted, if_neg (by omega)] at h
  exact firstMispredictedFrom_eq_none h k hfirst (by omega)

/-- What the scan finds is the least mispredicted frame of the range. -/
theorem mispredicted_of_some {first last g : ℕ}
    (h : rbFirstMispredicted real used first last = some g) :
    first ≤ g ∧ g ≤ last ∧ Mispredicted real used g ∧
      ∀ k, first ≤ k → k < g → ¬Mispredicted real used k := by
  rw [rbFirstMispredicted] at h
  split_ifs at h with hlt
  obtain ⟨hle, hlt', hg, hbelow⟩ := firstMispredictedFrom_eq_some h
  exact ⟨hle, by omega, hg, hbelow⟩

end RetroPark.Net
