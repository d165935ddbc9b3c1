import Mathlib.Data.Nat.Init

/-!
# Deterministic replay

`replay step s₀ inp n` is the state of a deterministic system after `n` steps from `s₀`, step
`i` taking the input `inp i`. Speculative execution rests on one fact about it: the state after
`n` steps depends on the first `n` inputs only (`replay_congr`).
-/

namespace Replay

variable {σ ι : Type*} {step : σ → ι → σ} {s₀ : σ} {inp inp' : ℕ → ι}

/-- The state after `n` steps from `s₀`, where step `i` takes the input `inp i`. -/
def replay (step : σ → ι → σ) (s₀ : σ) (inp : ℕ → ι) : ℕ → σ
  | 0 => s₀
  | n + 1 => step (replay step s₀ inp n) (inp n)

/-- A replay of no frames. -/
@[simp]
theorem replay_zero : replay step s₀ inp 0 = s₀ := rfl

/-- A replay of one more frame. -/
theorem replay_succ (n : ℕ) :
    replay step s₀ inp (n + 1) = step (replay step s₀ inp n) (inp n) := rfl

/-- The state after `n` steps depends on the first `n` inputs only. -/
theorem replay_congr {n : ℕ} (h : ∀ i < n, inp i = inp' i) :
    replay step s₀ inp n = replay step s₀ inp' n := by
  induction n with
  | zero => rfl
  | succ n ih =>
    rw [replay_succ, replay_succ, ih fun i hi => h i (Nat.lt_succ_of_lt hi),
      h n (Nat.lt_succ_self n)]

end Replay
