import RetroPark.Support.Program

/-!
# What every run of a program satisfies

A program runs against a system that performs its calls. An abstraction of the system says what a
call may answer and lead to, in terms of less than the whole state.

* `runIn` runs a program in the system, and `Makes` says which calls it makes and in which states;
* `Always step guard post p c`: from the abstract state `c`, whatever the calls of `p` are answered,
  each is made where `guard` holds and `p` returns where `post` holds;
* `Always.makes` and `Always.runIn` carry this over to the system;
* `Only q p`: all calls of `p` are among `q`, and `Only.always` is the rule for what these keep.
-/

namespace Program

variable {ι : Type} {ρ : ι → Type} {α β : Type}

/-! ### Runs in a system -/

section System

variable {σ : Type} (exec : ∀ i, StateM σ (ρ i))

/-- Run a program, each call performed by `exec`. -/
def runIn : Program ι ρ α → StateM σ α
  | ret a => pure a
  | call i next => exec i >>= fun r => runIn (next r)

/-- A program that returns runs as a return. -/
@[simp]
theorem runIn_ret (a : α) : runIn exec (ret a : Program ι ρ α) = pure a := rfl

/-- A pure program runs as a return. -/
@[simp]
theorem runIn_pure (a : α) : runIn exec (pure a : Program ι ρ α) = pure a := rfl

/-- A call runs as its execution. -/
@[simp]
theorem runIn_ask (i : ι) : runIn exec (ask ρ i) = exec i := bind_pure (exec i)

/-- A sequence runs as a sequence. -/
@[simp]
theorem runIn_bind (p : Program ι ρ α) (k : α → Program ι ρ β) :
    runIn exec (p >>= k) = runIn exec p >>= fun a => runIn exec (k a) := by
  induction p with
  | ret a => rfl
  | call i next ih =>
    rw [call_bind, runIn, runIn, bind_assoc]
    exact congrArg (exec i >>= ·) (funext ih)

/-- A choice runs as a choice. -/
@[simp]
theorem runIn_ite (c : Prop) [Decidable c] (p q : Program ι ρ α) :
    runIn exec (if c then p else q) = if c then runIn exec p else runIn exec q := by
  split <;> rfl

/-- What holds from before each call to after it holds from the start of a run to its end. -/
theorem runIn_rel {R : σ → σ → Prop} (hrefl : ∀ s, R s s)
    (htrans : ∀ {s t u}, R s t → R t u → R s u)
    (hcall : ∀ i s, R s ((exec i).run s).2) (p : Program ι ρ α) (s : σ) :
    R s ((runIn exec p).run s).2 := by
  induction p generalizing s with
  | ret a => exact hrefl s
  | call i next ih => exact htrans (hcall i s) (ih ((exec i).run s).1 ((exec i).run s).2)

/-- The calls of a run from `s`, each with the state it is made in. -/
def trace : Program ι ρ α → σ → List (ι × σ)
  | ret _, _ => []
  | call i next, s => (i, s) :: trace (next ((exec i).run s).1) ((exec i).run s).2

/-- The program, run from `s`, makes the call `j` in the state `t`. -/
def Makes (p : Program ι ρ α) (s : σ) (j : ι) (t : σ) : Prop := (j, t) ∈ trace exec p s

end System

/-! ### Runs against an abstraction -/

section Always

variable {γ : Type} {step : ∀ i, γ → ρ i → γ → Prop} {guard : ι → γ → Prop}

/-- Whatever the calls are answered, each satisfies `guard` and the program returns with `post`. -/
def Always (step : ∀ i, γ → ρ i → γ → Prop) (guard : ι → γ → Prop) (post : α → γ → Prop) :
    Program ι ρ α → γ → Prop
  | ret a, c => post a c
  | call i next, c => guard i c ∧ ∀ r c', step i c r c' → Always step guard post (next r) c'

/-- The rule of a return. -/
@[simp]
theorem always_pure {post : α → γ → Prop} (a : α) (c : γ) :
    Always step guard post (pure a : Program ι ρ α) c ↔ post a c := Iff.rfl

/-- The rule of a sequence. -/
@[simp]
theorem always_bind {post : β → γ → Prop} (p : Program ι ρ α) (k : α → Program ι ρ β) (c : γ) :
    Always step guard post (p >>= k) c ↔
      Always step guard (fun a c => Always step guard post (k a) c) p c := by
  induction p generalizing c with
  | ret a => exact Iff.rfl
  | call i next ih =>
    rw [call_bind, Always, Always]
    exact and_congr_right fun _ => forall₃_congr fun r c' _ => ih r c'

/-- The rule of a choice. -/
@[simp]
theorem always_ite {post : α → γ → Prop} (d : Prop) [Decidable d] (p q : Program ι ρ α) (c : γ) :
    Always step guard post (if d then p else q) c ↔
      (d → Always step guard post p c) ∧ (¬d → Always step guard post q c) := by
  by_cases hd : d <;> simp [hd]

/-- The rule of consequence. -/
theorem Always.mono {post post' : α → γ → Prop} {p : Program ι ρ α} {c : γ}
    (h : Always step guard post p c) (hpost : ∀ a c, post a c → post' a c) :
    Always step guard post' p c := by
  induction p generalizing c with
  | ret a => exact hpost a c h
  | call i next ih => exact ⟨h.1, fun r c' hstep => ih r (h.2 r c' hstep)⟩

/-- A program that goes on from what its head ensures. -/
theorem Always.bind {post : α → γ → Prop} {post' : β → γ → Prop} {p : Program ι ρ α}
    {k : α → Program ι ρ β} {c : γ} (h : Always step guard post p c)
    (hk : ∀ a c, post a c → Always step guard post' (k a) c) :
    Always step guard post' (p >>= k) c :=
  (always_bind p k c).mpr (h.mono hk)

/-- A call, and the program that goes on with its answer. -/
theorem Always.call {i : ι} {post : β → γ → Prop} {k : ρ i → Program ι ρ β} {c : γ}
    (hguard : guard i c) (hk : ∀ r c', step i c r c' → Always step guard post (k r) c') :
    Always step guard post (ask ρ i >>= k) c :=
  ⟨hguard, hk⟩

/-- Every call of the program is one of `q`, whatever it is answered. -/
def Only (q : ι → Prop) : Program ι ρ α → Prop
  | ret _ => True
  | call i next => q i ∧ ∀ r, Only q (next r)

section Only

variable {q : ι → Prop}

/-- A pure program makes no calls. -/
@[simp]
theorem only_pure (a : α) : Only q (pure a : Program ι ρ α) := trivial

/-- A call is of the kind it is. -/
@[simp]
theorem only_ask {i : ι} : Only q (ask ρ i) ↔ q i := ⟨And.left, fun h => ⟨h, fun _ => trivial⟩⟩

/-- A sequence makes the calls of its parts. -/
theorem Only.bind {p : Program ι ρ α} {k : α → Program ι ρ β} (h : Only q p)
    (hk : ∀ a, Only q (k a)) :
    Only q (p >>= k) := by
  induction p with
  | ret a => exact hk a
  | call i next ih => exact ⟨h.1, fun r => ih r (h.2 r)⟩

/-- A program makes its first call and those of the rest. -/
@[simp]
theorem only_call {i : ι} {next : ρ i → Program ι ρ α} :
    Only q (call i next) ↔ q i ∧ ∀ r, Only q (next r) := Iff.rfl

/-- A choice makes the calls of its branches. -/
@[simp]
theorem only_ite {d : Prop} [Decidable d] {p p' : Program ι ρ α} :
    Only q (if d then p else p') ↔ (d → Only q p) ∧ (¬d → Only q p') := by
  by_cases hd : d <;> simp [hd]

/-- What each of the calls keeps, the program keeps. -/
theorem Only.always {I : γ → Prop} {p : Program ι ρ α} (h : Only q p)
    (hstep : ∀ i c r c', q i → I c → step i c r c' → I c') {c : γ} (hI : I c) :
    Always step (fun _ _ => True) (fun _ c => I c) p c := by
  induction p generalizing c with
  | ret a => exact hI
  | call i next ih => exact ⟨trivial, fun r c' hc => ih r (h.2 r) (hstep i c r c' h.1 hI hc)⟩

end Only

/-- Two facts about the same run; the guard is that of the second. -/
theorem Always.and {guard' : ι → γ → Prop} {post post' : α → γ → Prop} {p : Program ι ρ α} {c : γ}
    (h : Always step guard' post p c) (h' : Always step guard post' p c) :
    Always step guard (fun a c => post a c ∧ post' a c) p c := by
  induction p generalizing c with
  | ret a => exact ⟨h, h'⟩
  | call i next ih => exact ⟨h'.1, fun r c' hstep => ih r (h.2 r c' hstep) (h'.2 r c' hstep)⟩

/-- What every guarded call preserves holds on return. -/
theorem Always.keep {I : γ → Prop} {post : α → γ → Prop} {p : Program ι ρ α} {c : γ}
    (h : Always step guard post p c) (hI : I c)
    (hstep : ∀ i c r c', guard i c → I c → step i c r c' → I c') :
    Always step guard (fun a c => post a c ∧ I c) p c := by
  induction p generalizing c with
  | ret a => exact ⟨h, hI⟩
  | call i next ih =>
    exact ⟨h.1, fun r c' hcall => ih r (h.2 r c' hcall) (hstep i c r c' h.1 hI hcall)⟩

variable {σ : Type} {exec : ∀ i, StateM σ (ρ i)} {f : σ → γ}

/-- What always holds holds of the calls made in the system. -/
theorem Always.makes {post : α → γ → Prop} {p : Program ι ρ α} {s t : σ} {j : ι}
    (hsound : ∀ i s, step i (f s) ((exec i).run s).1 (f ((exec i).run s).2))
    (h : Always step guard post p (f s)) (hmakes : Makes exec p s j t) : guard j (f t) := by
  induction p generalizing s with
  | ret a => exact nomatch hmakes
  | call i next ih =>
    rcases List.mem_cons.mp hmakes with hhead | hrest
    · obtain ⟨rfl, rfl⟩ := Prod.mk.inj hhead
      exact h.1
    · exact ih _ (h.2 _ _ (hsound i s)) hrest

/-- What always holds on return holds after a run in the system. -/
theorem Always.runIn {post : α → γ → Prop} {p : Program ι ρ α} {s : σ}
    (hsound : ∀ i s, step i (f s) ((exec i).run s).1 (f ((exec i).run s).2))
    (h : Always step guard post p (f s)) :
    post ((Program.runIn exec p).run s).1 (f ((Program.runIn exec p).run s).2) := by
  induction p generalizing s with
  | ret a => exact h
  | call i next ih => exact ih _ (h.2 _ _ (hsound i s))

end Always

end Program
