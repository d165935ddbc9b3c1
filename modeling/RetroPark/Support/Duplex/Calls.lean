import RetroPark.Support.Duplex

/-!
# Whole calls of two parties

Liveness of two parties over FIFO channels is about single schedules: the calls under way end, and
then one end after another makes a whole call, with everything on its way at hand.

* `Protocol.called` is the system after such a call;
* `Inductive.canReach_idle` ends the calls under way, and `Inductive.canReach_called` makes a whole
  call, both within an inductive invariant;
* `Inductive.and` puts two inductive invariants together;
* `canReach_of_behind` is the argument that both ends get as far as they like.
-/

namespace Duplex

section Behind

variable {σ α : Type*} {M : Machine σ α} {guard : σ → α → Prop} {J : σ → Prop}
  (pos : σ → Side → ℕ)

/-- What the two ends are short of `n`. -/
def short (n : ℕ) (m : σ) : ℕ := (n - pos m .left) + (n - pos m .right)

theorem short_eq (n : ℕ) (m : σ) (s : Side) :
    short pos n m = (n - pos m s) + (n - pos m s.other) := by
  cases s
  · rfl
  · exact Nat.add_comm _ _

/-- If an end that is not ahead of the other one can always move on without setting the other one
back, then both ends can get as far as they like. -/
theorem canReach_of_behind (hbehind : ∀ m s, J m → pos m s ≤ pos m s.other →
      M.CanReach guard m fun m' => J m' ∧ pos m s < pos m' s ∧ pos m s.other ≤ pos m' s.other)
    {m : σ} (h : J m) (n : ℕ) : M.CanReach guard m fun m' => J m' ∧ ∀ s, n ≤ pos m' s := by
  refine Machine.CanReach.of_variant (short pos n) (fun m h hshort => ?_) h
  -- Of two ends one of which is short of `n`, the one behind moves on.
  obtain ⟨s, hs, hle⟩ : ∃ s, pos m s < n ∧ pos m s ≤ pos m s.other := by
    obtain ⟨s, hs⟩ := Classical.not_forall.mp hshort
    rcases Nat.le_total (pos m s) (pos m s.other) with hle | hle
    · exact ⟨s, Nat.not_le.mp hs, hle⟩
    · exact ⟨s.other, Nat.lt_of_le_of_lt hle (Nat.not_le.mp hs), by rwa [Side.other_other]⟩
  refine (hbehind m s h hle).trans fun m' ⟨h', hmoved, hother⟩ => .here ⟨h', ?_⟩
  rw [short_eq pos n m' s, short_eq pos n m s]
  omega

end Behind

namespace Protocol

variable {π ι ω μ : Type*} (P : Protocol π ι ω μ)

/-- Neither end is in a call. -/
def Idle (m : Link π ι) : Prop := ∀ s, (m s).calling = none

/-- End `x` has begun a call. -/
def begun (x : Party π ι) (i : ι) : Party π ι := { x with calling := some i }

/-- End `x` after a whole call that has everything on its way from `y` at hand. -/
def answered (x y : Party π ι) (i : ι) (o : ω) : Party π ι :=
  P.ended (begun x i) y i (P.inFlight x y).length o

/-- The system after a whole call of end `s`. -/
def called (m : Link π ι) (s : Side) (i : ι) (o : ω) : Link π ι :=
  Function.update m s (P.answered (m s) (m s.other) i o)

section Calls

variable {P} {m : Link π ι} {s : Side} {i : ι} {o : ω}

theorem called_self : P.called m s i o s = P.answered (m s) (m s.other) i o :=
  Function.update_self _ _ _

theorem called_other : P.called m s i o s.other = m s.other :=
  Function.update_of_ne s.other_ne _ _

theorem called_idle (h : Idle m) : Idle (P.called m s i o) := by
  intro t
  by_cases ht : t = s
  · subst ht
    rw [called_self]
    rfl
  · rw [Side.eq_other_of_ne ht, called_other]
    exact h s.other

section Inductive

variable {G : Side → π → ι → Prop} {I : Side → Party π ι → Prop}
  {C : Side → Party π ι → Party π ι → Prop}

/-- A call can begin. -/
theorem Inductive.canReach_begun (hind : P.Inductive G I C) (h : Holds I C m)
    (hidle : (m s).calling = none) (hready : P.ready (m s).state = true)
    (hguard : G s (m s).state i) :
    P.machine.CanReach (onBegin G) m fun m' =>
      Holds I C m' ∧ m' = Function.update m s (begun (m s) i) := by
  have hstep : P.step m (.begin s i) = some (Function.update m s (begun (m s) i)) := by
    rw [Protocol.step, hidle, hready]
    rfl
  have hguard : onBegin G m (Action.begin (ω := ω) s i) := hguard
  exact .step hguard hstep (.here ⟨hind.step h hguard hstep, rfl⟩)

/-- A call can end with any number of the messages on their way at hand. -/
theorem Inductive.canReach_ended (hind : P.Inductive G I C) (h : Holds I C m)
    (hcalling : (m s).calling = some i) {n : ℕ}
    (hn : n ≤ (P.inFlight (m s) (m s.other)).length) (o : ω) :
    P.machine.CanReach (onBegin G) m fun m' =>
      Holds I C m' ∧ m' = Function.update m s (P.ended (m s) (m s.other) i n o) := by
  have hstep : P.step m (.finish s n o) =
      some (Function.update m s (P.ended (m s) (m s.other) i n o)) := by
    rw [Protocol.step, hcalling]
    exact if_pos hn
  have hguard : onBegin G m (.finish s n o) := trivial
  exact .step hguard hstep (.here ⟨hind.step h hguard hstep, rfl⟩)

/-- A whole call keeps an inductive invariant. -/
theorem Inductive.canReach_called (hind : P.Inductive G I C) (h : Holds I C m)
    (hidle : (m s).calling = none) (hready : P.ready (m s).state = true)
    (hguard : G s (m s).state i) (o : ω) :
    P.machine.CanReach (onBegin G) m fun m' => Holds I C m' ∧ m' = P.called m s i o := by
  refine (hind.canReach_begun h hidle hready hguard).trans fun m₁ ⟨h₁, heq⟩ => ?_
  have hself : m₁ s = begun (m s) i := heq ▸ Function.update_self _ _ _
  have hrest : m₁ s.other = m s.other := heq ▸ Function.update_of_ne s.other_ne _ _
  refine (hind.canReach_ended (s := s) (i := i) h₁ (by rw [hself]; rfl) (Nat.le_refl _) o).trans
    fun m₂ ⟨h₂, heq₂⟩ => .here ⟨h₂, ?_⟩
  rw [heq₂, hself, hrest, heq, Function.update_idem]
  rfl

/-- A call under way can end with nothing received. -/
theorem Inductive.canReach_end (hind : P.Inductive G I C) (h : Holds I C m) (o : ω) (s : Side) :
    P.machine.CanReach (onBegin G) m fun m' => Holds I C m' ∧ (m' s).calling = none ∧
      m' s.other = m s.other := by
  cases hcalling : (m s).calling with
  | none => exact .here ⟨h, hcalling, rfl⟩
  | some i =>
    refine (hind.canReach_ended h hcalling (Nat.zero_le _) o).trans
      fun m' ⟨h', heq⟩ => .here ⟨h', ?_, ?_⟩
    · rw [heq, Function.update_self]
      rfl
    · rw [heq, Function.update_of_ne s.other_ne]

/-- The calls under way can end. -/
theorem Inductive.canReach_idle (hind : P.Inductive G I C) (h : Holds I C m) (o : ω) :
    P.machine.CanReach (onBegin G) m fun m' => Holds I C m' ∧ Idle m' := by
  refine (hind.canReach_end h o .left).trans fun m₁ ⟨h₁, hleft, _⟩ => ?_
  refine (hind.canReach_end h₁ o .right).trans fun m₂ ⟨h₂, hright, hrest⟩ => .here ⟨h₂, ?_⟩
  intro t
  cases t with
  | left => exact (congrArg Party.calling hrest).trans hleft
  | right => exact hright

/-- Two inductive invariants, the second one for all calls, are one. -/
theorem Inductive.and {I' : Side → Party π ι → Prop}
    {C' : Side → Party π ι → Party π ι → Prop} (hind : P.Inductive G I C)
    (hind' : P.Inductive (fun _ _ _ => True) I' C') :
    P.Inductive G (fun s x => I s x ∧ I' s x) (fun s x y => C s x y ∧ C' s x y) where
  begin := by
    intro s x y i hI hC hC' hidle hready hguard
    obtain ⟨h₁, h₂, h₃⟩ := hind.begin hI.1 hC.1 hC'.1 hidle hready hguard
    obtain ⟨h₁', h₂', h₃'⟩ := hind'.begin hI.2 hC.2 hC'.2 hidle hready trivial
    exact ⟨⟨h₁, h₁'⟩, ⟨h₂, h₂'⟩, h₃, h₃'⟩
  finish := by
    intro s x y i n o hI hC hC' hcalling hn
    obtain ⟨h₁, h₂, h₃⟩ := hind.finish (o := o) hI.1 hC.1 hC'.1 hcalling hn
    obtain ⟨h₁', h₂', h₃'⟩ := hind'.finish (o := o) hI.2 hC.2 hC'.2 hcalling hn
    exact ⟨⟨h₁, h₁'⟩, ⟨h₂, h₂'⟩, h₃, h₃'⟩

end Inductive

end Calls

end Protocol

end Duplex
