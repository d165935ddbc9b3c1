import Mathlib.Data.List.Basic
import Mathlib.Logic.Function.Iterate

/-!
# A bounded history of a machine

A machine steps by `f` and remembers the states it stepped from, the oldest first and no more than
`limit` of them. Going back drops the newest state and returns to the one before it, which stays in
the history: the step that follows is a replay and is not remembered again.

* `forward` and `back` are the two operations;
* `History.after f s lo n` has stepped `n` times from `s` and remembers all states from the `lo`-th
  on;
* `forward_after`, `back_after` and `replay_after` say where the operations lead from there.
-/

/-- A state, what led to it, and whether the next step is a replay. -/
structure History (σ : Type*) where
  state : σ
  /-- The states stepped from, the oldest first. -/
  kept : List σ := []
  replaying : Bool := false

namespace History

variable {σ : Type*}

/-- A step, remembered unless it is a replay. -/
def forward (f : σ → σ) (limit : ℕ) (h : History σ) : History σ :=
  if h.replaying then { h with state := f h.state, replaying := false }
  else
    let kept := h.kept ++ [h.state]
    { h with state := f h.state, kept := kept.drop (kept.length - limit) }

/-- Return to the state before the newest one. -/
def back (h : History σ) : Option (History σ) :=
  if h.kept.length < 2 then none
  else
    h.kept.dropLast.getLast?.map fun s => { state := s, kept := h.kept.dropLast, replaying := true }

/-- The states from the `lo`-th up to the `n`-th, without the last. -/
def span (f : σ → σ) (s : σ) (lo n : ℕ) : List σ :=
  (List.range' lo (n - lo)).map (f^[·] s)

/-- The history after `n` steps from `s`, as far back as the `lo`-th state. -/
def after (f : σ → σ) (s : σ) (lo n : ℕ) : History σ :=
  { state := f^[n] s, kept := span f s lo n }

variable {f : σ → σ} {s : σ} {lo n limit : ℕ}

/-- How many states a span has. -/
@[simp]
theorem span_length : (span f s lo n).length = n - lo := by
  simp [span]

/-- A span with the state after it is the next span. -/
theorem span_concat (h : lo ≤ n) : span f s lo n ++ [f^[n] s] = span f s lo (n + 1) := by
  have hlast : lo + (n - lo) = n := by omega
  rw [span, span, Nat.sub_add_comm h, List.range'_1_concat, List.map_append, hlast]
  rfl

/-- A span without its first states is a span. -/
theorem span_drop (k : ℕ) : (span f s lo n).drop k = span f s (lo + k) n := by
  rw [span, span, ← List.map_drop, List.drop_range', Nat.mul_one, Nat.sub_sub]

/-- A span without its last state is a span. -/
theorem span_dropLast (h : lo < n) : (span f s lo n).dropLast = span f s lo (n - 1) := by
  obtain ⟨m, rfl⟩ : ∃ m, n = m + 1 := ⟨n - 1, by omega⟩
  rw [← span_concat (by omega), List.dropLast_concat]
  rfl

/-- The last state of a span. -/
theorem span_getLast? (h : lo < n) : (span f s lo n).getLast? = some (f^[n - 1] s) := by
  obtain ⟨m, rfl⟩ : ∃ m, n = m + 1 := ⟨n - 1, by omega⟩
  rw [← span_concat (by omega), List.getLast?_concat]
  rfl

/-- A step forgets what exceeds the limit. -/
theorem forward_after (h : lo ≤ n) :
    (History.after f s lo n).forward f limit = .after f s (max lo (n + 1 - limit)) (n + 1) := by
  have hlo : lo + (n + 1 - lo - limit) = max lo (n + 1 - limit) := by omega
  have hkept : (span f s lo n ++ [f^[n] s]).drop ((span f s lo n ++ [f^[n] s]).length - limit) =
      span f s (max lo (n + 1 - limit)) (n + 1) := by
    rw [span_concat h, span_length, span_drop, hlo]
  simp only [forward, after, Bool.false_eq_true, if_false, hkept, Function.iterate_succ_apply']

/-- With two states to go back to, going back leads to the state before the last step. -/
theorem back_after (h : lo + 2 ≤ n) :
    (History.after f s lo n).back =
      some { state := f^[n - 2] s, kept := span f s lo (n - 1), replaying := true } := by
  have hlen : ¬(span f s lo n).length < 2 := by
    rw [span_length]
    omega
  have hkept : (History.after f s lo n).kept.dropLast = span f s lo (n - 1) :=
    span_dropLast (by omega)
  refine (if_neg hlen).trans ?_
  rw [hkept, span_getLast? (by omega)]
  rfl

/-- The replayed step leads to the history one step earlier. -/
theorem replay_after (h : lo + 2 ≤ n) :
    forward f limit { state := f^[n - 2] s, kept := span f s lo (n - 1), replaying := true } =
      .after f s lo (n - 1) := by
  obtain ⟨m, rfl⟩ : ∃ m, n = m + 2 := ⟨n - 2, by omega⟩
  have hstep : f (f^[m] s) = f^[m + 1] s := (Function.iterate_succ_apply' f m s).symm
  simp only [forward, if_true, Nat.add_sub_cancel, hstep]
  rfl

/-- There is nothing before a history of a single state. -/
theorem back_after_none (h : n < lo + 2) : (History.after f s lo n).back = none := by
  apply if_pos
  rw [after, span_length]
  omega

end History
