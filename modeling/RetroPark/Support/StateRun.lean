import Mathlib.Init

/-!
# Running a state program step by step

A run of `m >>= f` follows the run of `m`, so a proof can replace the head of a program by what it
is known to do.
-/

namespace StateM

variable {σ α γ : Type}

/-- A program goes on from what its head leaves behind. -/
theorem run_bind_of_eq {m : StateM σ α} {f : α → StateM σ γ} {a : α} {s s' : σ}
    (h : m.run s = (a, s')) : (m >>= f).run s = (f a).run s' := by
  rw [StateT.run_bind, h]
  rfl

theorem run_get_bind (f : σ → StateM σ γ) (s : σ) : (get >>= f).run s = (f s).run s := rfl

end StateM
