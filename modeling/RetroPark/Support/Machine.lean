import Mathlib.Data.Nat.Init

/-!
# Labelled machines and guarded runs

A machine is a partial step function: from a state and an action, either the next state or
`none` when the action is not enabled. `Run M guard s as s'` holds when the actions `as` lead
from `s` to `s'` and every step also satisfied `guard` in the state it was taken from; the
guard states an assumption on the environment, step by step.

* `exec` computes a guarded run when the guard is decidable, and `run_iff_exec` shows that it
  computes exactly `Run`, `run_get` that a run exists once it computes, and `exists_run` what its
  end is like;
* `Run.invariant` is the induction over a run: what holds at its start and is preserved by every
  guarded step holds at its end;
* `Run.weaken` and `Run.strengthen` move a run to a guard that each step satisfies anyway,
  `Run.restrict` to one on its actions, `Run.strengthen_of_end` to one that its end tells of,
  `Run.refines` is a simulation with stuttering, and `Run.append` chains two runs;
* `CanReach M guard s P` says that some guarded run leads from `s` to a state with `P`;
* `observed M seen` is `M` with the history of what an observer sees of its steps, for guards that
  depend on it: `Run.unobserved` drops the history again, and it stops no step (`observed_step`).
-/

/-- A machine: `step s a` is the state after action `a` in state `s`, or `none` when `a` is not
enabled in `s`. -/
structure Machine (σ α : Type*) where
  /-- The partial transition function. -/
  step : σ → α → Option σ

namespace Machine

variable {σ α : Type*} {M : Machine σ α} {guard guard' : σ → α → Prop}

/-- The guard that allows every step. -/
def always (_ : σ) (_ : α) : Prop := True

instance (s : σ) (a : α) : Decidable (always s a) := inferInstanceAs (Decidable True)

/-- `Run M guard s as s'`: the actions `as` lead from `s` to `s'`, each enabled and each
satisfying `guard` in the state it is taken from. -/
inductive Run (M : Machine σ α) (guard : σ → α → Prop) : σ → List α → σ → Prop
  | nil (s : σ) : Run M guard s [] s
  | cons {s s' s'' : σ} {a : α} {as : List α} (hguard : guard s a) (hstep : M.step s a = some s')
      (hrest : Run M guard s' as s'') : Run M guard s (a :: as) s''

/-- The state a guarded run ends in, or `none` if some step is not enabled or not allowed. -/
def exec (M : Machine σ α) (guard : σ → α → Prop) [∀ s a, Decidable (guard s a)] :
    σ → List α → Option σ
  | s, [] => some s
  | s, a :: as =>
      if guard s a then
        match M.step s a with
        | some s' => exec M guard s' as
        | none => none
      else none

/-- `exec` computes exactly the guarded runs. -/
theorem run_iff_exec [∀ s a, Decidable (guard s a)] {s s' : σ} {as : List α} :
    Run M guard s as s' ↔ exec M guard s as = some s' := by
  constructor
  · intro h
    induction h with
    | nil s => rfl
    | cons hguard hstep _ ih => simp [exec, hguard, hstep, ih]
  · intro h
    induction as generalizing s with
    | nil =>
      obtain rfl : s = s' := by simpa [exec] using h
      exact .nil s
    | cons a as ih =>
      by_cases hguard : guard s a
      · cases hstep : M.step s a with
        | none => simp [exec, hstep] at h
        | some t => exact .cons hguard hstep (ih (by simpa [exec, hguard, hstep] using h))
      · simp [exec, hguard] at h

/-- A guarded run that does not get stuck is a run to its computed end. -/
theorem run_get [∀ s a, Decidable (guard s a)] {s : σ} {as : List α}
    (h : (exec M guard s as).isSome) : Run M guard s as ((exec M guard s as).get h) :=
  run_iff_exec.mpr (Option.some_get h).symm

/-- A guarded run whose computed end satisfies `P`. -/
theorem exists_run [∀ s a, Decidable (guard s a)] {P : σ → Prop} [DecidablePred P] {s : σ}
    {as : List α} (h : (exec M guard s as).any (fun t => decide (P t)) = true) :
    ∃ t, Run M guard s as t ∧ P t := by
  obtain ⟨t, ht, hP⟩ := (Option.any_eq_true _ _).mp h
  exact ⟨t, run_iff_exec.mpr ht, of_decide_eq_true hP⟩

/-- What holds at the start of a run and is preserved by every guarded step holds at its end. -/
theorem Run.invariant {I : σ → Prop} {s s' : σ} {as : List α} (h : Run M guard s as s')
    (hstart : I s)
    (hstep : ∀ s a s', I s → guard s a → M.step s a = some s' → I s') : I s' := by
  induction h with
  | nil s => exact hstart
  | cons hguard hs _ ih => exact ih (hstep _ _ _ hstart hguard hs)

/-- A run satisfies any weaker guard. -/
theorem Run.weaken {s s' : σ} {as : List α} (h : Run M guard s as s')
    (hw : ∀ s a, guard s a → guard' s a) : Run M guard' s as s' := by
  induction h with
  | nil s => exact .nil s
  | cons hguard hs _ ih => exact .cons (hw _ _ hguard) hs ih

/-- A run whose actions all have a property satisfies it as a guard. -/
theorem Run.restrict {P : α → Prop} {s s' : σ} {as : List α} (h : Run M guard s as s')
    (hP : ∀ a ∈ as, P a) : Run M (fun s a => guard s a ∧ P a) s as s' := by
  induction h with
  | nil s => exact .nil s
  | cons hguard hs _ ih =>
    exact .cons ⟨hguard, hP _ (List.mem_cons_self ..)⟩ hs
      (ih fun a ha => hP a (List.mem_cons_of_mem _ ha))

/-- A run satisfies any guard that follows from an invariant of it. -/
theorem Run.strengthen {I : σ → Prop} {s s' : σ} {as : List α} (h : Run M guard s as s')
    (hstart : I s) (hstep : ∀ s a s', I s → guard s a → M.step s a = some s' → I s')
    (hguard : ∀ s a s', I s → guard s a → M.step s a = some s' → guard' s a) :
    Run M guard' s as s' := by
  induction h with
  | nil s => exact .nil s
  | cons hg hs _ ih => exact .cons (hguard _ _ _ hstart hg hs) hs (ih (hstep _ _ _ hstart hg hs))

/-- A run satisfies any guard without which what holds at its end would be lost for good. -/
theorem Run.strengthen_of_end {I J : σ → Prop} {s s' : σ} {as : List α} (h : Run M guard s as s')
    (hstart : I s) (hstep : ∀ s a s', I s → guard s a → M.step s a = some s' → I s')
    (hback : ∀ s a s', I s → guard s a → M.step s a = some s' → J s' → J s ∧ guard' s a)
    (hend : J s') : J s ∧ Run M guard' s as s' := by
  induction h with
  | nil s => exact ⟨hend, .nil s⟩
  | cons hg hs _ ih =>
    obtain ⟨hJ, hrun⟩ := ih (hstep _ _ _ hstart hg hs) hend
    obtain ⟨hJ', hguard⟩ := hback _ _ _ hstart hg hs hJ
    exact ⟨hJ', .cons hguard hs hrun⟩

/-- A run is seen as a run of another machine if each of its steps is seen as a step there or as
none. -/
theorem Run.refines {τ α' : Type*} {M' : Machine τ α'} {guard' : τ → α' → Prop} (view : σ → τ)
    {I : σ → Prop} {s s' : σ} {as : List α} (h : Run M guard s as s') (hstart : I s)
    (hstep : ∀ s a s', I s → guard s a → M.step s a = some s' → I s')
    (hview : ∀ s a s', I s → guard s a → M.step s a = some s' → view s' = view s ∨
      ∃ a', guard' (view s) a' ∧ M'.step (view s) a' = some (view s')) :
    ∃ as', Run M' guard' (view s) as' (view s') := by
  induction h with
  | nil s => exact ⟨[], .nil _⟩
  | cons hguard hs _ ih =>
    obtain ⟨as', hrest⟩ := ih (hstep _ _ _ hstart hguard hs)
    rcases hview _ _ _ hstart hguard hs with heq | ⟨a', hguard', hs'⟩
    · exact ⟨as', heq ▸ hrest⟩
    · exact ⟨a' :: as', .cons hguard' hs' hrest⟩

/-- A run goes on where another ends. -/
theorem Run.append {s s' s'' : σ} {as bs : List α} (h : Run M guard s as s')
    (h' : Run M guard s' bs s'') : Run M guard s (as ++ bs) s'' := by
  induction h with
  | nil s => exact h'
  | cons hguard hs _ ih => exact .cons hguard hs (ih h')

/-- Some guarded run from `s` ends in a state with `P`. -/
def CanReach (M : Machine σ α) (guard : σ → α → Prop) (s : σ) (P : σ → Prop) : Prop :=
  ∃ as s', Run M guard s as s' ∧ P s'

namespace CanReach

variable {s s' : σ} {P Q : σ → Prop}

/-- A state is reached where it is. -/
theorem here (h : P s) : CanReach M guard s P := ⟨[], s, .nil s, h⟩

/-- What is reached after a step is reached. -/
theorem step {a : α} (hguard : guard s a) (hstep : M.step s a = some s')
    (h : CanReach M guard s' P) : CanReach M guard s P := by
  obtain ⟨as, s'', hrun, hP⟩ := h
  exact ⟨a :: as, s'', .cons hguard hstep hrun, hP⟩

/-- What is reached from what is reached is reached. -/
theorem trans (h : CanReach M guard s P) (hnext : ∀ t, P t → CanReach M guard t Q) :
    CanReach M guard s Q := by
  obtain ⟨as, t, hrun, hP⟩ := h
  obtain ⟨bs, u, hrun', hQ⟩ := hnext t hP
  exact ⟨as ++ bs, u, hrun.append hrun', hQ⟩

/-- The variant rule: as long as `P` does not hold, some run keeps `J` and lowers the variant. -/
theorem of_variant {J : σ → Prop} (v : σ → ℕ) (hlower : ∀ t, J t → ¬P t →
    CanReach M guard t fun u => J u ∧ v u < v t) (h : J s) :
    CanReach M guard s fun t => J t ∧ P t := by
  induction hv : v s using Nat.strong_induction_on generalizing s with
  | _ n ih =>
    by_cases hP : P s
    · exact here ⟨h, hP⟩
    · refine (hlower s h hP).trans fun u hu => ?_
      exact ih (v u) (hv ▸ hu.2) hu.1 rfl

end CanReach

/-! ### Observed machines -/

section Observed

variable {ω : Type*} {seen : σ → α → Option ω}

/-- A machine with the history of what is seen of its steps, the newest first. -/
def observed (M : Machine σ α) (seen : σ → α → Option ω) : Machine (σ × List ω) α where
  step p a := (M.step p.1 a).map fun s' => (s', (seen p.1 a).toList ++ p.2)

/-- The history follows the steps of the machine and stops none of them. -/
theorem observed_step {p p' : σ × List ω} {a : α} :
    (M.observed seen).step p a = some p' ↔
      M.step p.1 a = some p'.1 ∧ p'.2 = (seen p.1 a).toList ++ p.2 := by
  show (M.step p.1 a).map _ = some p' ↔ _
  rw [Option.map_eq_some_iff]
  constructor
  · rintro ⟨s', hstep, rfl⟩
    exact ⟨hstep, rfl⟩
  · rintro ⟨hstep, hseen⟩
    exact ⟨p'.1, hstep, Prod.ext rfl hseen.symm⟩

/-- Without its history an observed run is a run of the machine. -/
theorem Run.unobserved {p p' : σ × List ω} {as : List α}
    (h : Run (M.observed seen) (fun p a => guard p.1 a) p as p') : Run M guard p.1 as p'.1 := by
  induction h with
  | nil p => exact .nil p.1
  | cons hguard hstep _ ih => exact .cons hguard (observed_step.mp hstep).1 ih

end Observed

end Machine
