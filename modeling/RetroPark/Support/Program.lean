import Mathlib.Init

/-!
# Programs that make calls

A program is the tree of the calls it can make: it either returns, or makes a call and goes on with
the answer. What answers a call can have is up to the system the program runs in, so one program
text serves every interleaving with other programs.
-/

/-- A program that makes calls `ι`, with answers `ρ`, and returns an `α`. -/
inductive Program (ι : Type) (ρ : ι → Type) (α : Type)
  | ret (a : α)
  | call (i : ι) (next : ρ i → Program ι ρ α)

namespace Program

variable {ι : Type} {ρ : ι → Type} {α β : Type}

/-- One program after another. -/
def bind (p : Program ι ρ α) (k : α → Program ι ρ β) : Program ι ρ β :=
  match p with
  | ret a => k a
  | call i next => call i fun r => bind (next r) k

instance : Monad (Program ι ρ) where
  pure := ret
  bind := bind

/-- A return hands its value on. -/
@[simp]
theorem ret_bind (a : α) (k : α → Program ι ρ β) : ret a >>= k = k a := rfl

/-- A call is made before what follows it. -/
@[simp]
theorem call_bind (i : ι) (next : ρ i → Program ι ρ α) (k : α → Program ι ρ β) :
    call i next >>= k = call i fun r => next r >>= k := rfl

/-- Nothing follows a return. -/
@[simp]
theorem bind_ret (p : Program ι ρ α) : p >>= ret = p := by
  induction p with
  | ret a => rfl
  | call i next ih => exact congrArg (call i) (funext ih)

/-- What a program that has returned has returned. -/
def result? : Program ι ρ α → Option α
  | ret a => some a
  | call _ _ => none

/-- A program with a result has returned. -/
theorem eq_ret_of_result? {p : Program ι ρ α} {a : α} (h : p.result? = some a) : p = ret a := by
  cases p with
  | ret b => exact congrArg ret (Option.some.inj h)
  | call i next => exact nomatch h

/-- A single call. -/
def ask (ρ : ι → Type) (i : ι) : Program ι ρ (ρ i) := call i ret

/-- A single call hands its answer on. -/
@[simp]
theorem ask_bind (i : ι) (k : ρ i → Program ι ρ β) : ask ρ i >>= k = call i k := rfl

/-! ### Running a program

Where a program makes a call at most once, a function from calls to answers stands for everything
the system can answer. -/

/-- The calls a program makes when they are answered by `answer`, and what it returns. -/
def perform (answer : ∀ i, ρ i) : Program ι ρ α → List ι × α
  | ret a => ([], a)
  | call i next =>
      let r := perform answer (next (answer i))
      (i :: r.1, r.2)

variable {answer : ∀ i, ρ i}

/-- A return makes no calls. -/
@[simp]
theorem perform_ret (a : α) : perform answer (ret a : Program ι ρ α) = ([], a) := rfl

/-- A call is made, and then those of the rest. -/
@[simp]
theorem perform_call (i : ι) (next : ρ i → Program ι ρ α) :
    perform answer (call i next) =
      (i :: (perform answer (next (answer i))).1, (perform answer (next (answer i))).2) := rfl

/-- A sequence makes the calls of its first part and then those of its second. -/
theorem perform_bind (p : Program ι ρ α) (k : α → Program ι ρ β) :
    perform answer (p >>= k) =
      ((perform answer p).1 ++ (perform answer (k (perform answer p).2)).1,
        (perform answer (k (perform answer p).2)).2) := by
  induction p with
  | ret a => rfl
  | call i next ih => rw [call_bind, perform_call, ih, perform_call, List.cons_append]

end Program
