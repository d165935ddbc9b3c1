import Mathlib.Data.List.Basic
import RetroPark.Support.Duplex
import RetroPark.Support.Machine
import RetroPark.Support.Program

/-!
# Two programs that exchange messages

Each of two programs sends messages to the other and receives those of the other, over reliable FIFO
channels. A message may be on its way for any length of time, and a receive may time out.

* `Completes` is one program on its own, with the messages it sends and those it receives, and
  `completes_bind` takes a composed program apart;
* `converse` computes what a program does when no receive times out;
* `machine` is the system of both, and `run_completes` shows what a run leaves when both have
  returned: each has completed, having received the first messages the other has sent.
-/

namespace Dialogue

open Duplex

/-- The calls of a program: a message to the other one, or a receive. -/
inductive Call (μ : Type)
  | send (m : μ)
  | recv

/-- A send answers whether it succeeded, a receive with a message unless it failed. -/
def Answer {μ : Type} : Call μ → Type
  | .send _ => Bool
  | .recv => Option μ

/-- A program that exchanges messages `μ`. -/
abbrev Prog (μ α : Type) := Program (Call μ) Answer α

variable {μ α β : Type}

def send (m : μ) : Prog μ Bool := Program.ask Answer (.send m)

def recv : Prog μ (Option μ) := Program.ask Answer .recv

/-- The program can return `a` after sending `sent` and receiving `received`. -/
inductive Completes : Prog μ α → List μ → List μ → α → Prop
  | ret (a : α) : Completes (.ret a) [] [] a
  | send {m : μ} {next : Bool → Prog μ α} {sent received : List μ} {a : α}
      (h : Completes (next true) sent received a) :
      Completes (.call (.send m) next) (m :: sent) received a
  | recv {m : μ} {next : Option μ → Prog μ α} {sent received : List μ} {a : α}
      (h : Completes (next (some m)) sent received a) :
      Completes (.call .recv next) sent (m :: received) a
  | timeOut {next : Option μ → Prog μ α} {sent received : List μ} {a : α}
      (h : Completes (next none) sent received a) :
      Completes (.call .recv next) sent received a

/-- A program that returns has nothing left to send or receive. -/
theorem completes_ret {a b : α} {sent received : List μ} :
    Completes (.ret a) sent received b ↔ sent = [] ∧ received = [] ∧ b = a := by
  constructor
  · rintro ⟨⟩
    exact ⟨rfl, rfl, rfl⟩
  · rintro ⟨rfl, rfl, rfl⟩
    exact .ret b

/-- A program that sends completes if the rest does. -/
theorem completes_send {m : μ} {next : Bool → Prog μ α} {sent received : List μ} {a : α} :
    Completes (.call (.send m) next) sent received a ↔
      ∃ rest, sent = m :: rest ∧ Completes (next true) rest received a := by
  constructor
  · rintro (_ | h)
    exact ⟨_, rfl, h⟩
  · rintro ⟨rest, rfl, h⟩
    exact .send h

/-- A program that receives completes with the next message, or without one. -/
theorem completes_recv {next : Option μ → Prog μ α} {sent received : List μ} {a : α} :
    Completes (.call .recv next) sent received a ↔
      (∃ m rest, received = m :: rest ∧ Completes (next (some m)) sent rest a) ∨
        Completes (next none) sent received a := by
  constructor
  · rintro (_ | _ | h | h)
    · exact Or.inl ⟨_, _, rfl, h⟩
    · exact Or.inr h
  · rintro (⟨m, rest, rfl, h⟩ | h)
    · exact .recv h
    · exact .timeOut h

/-- The same for a send and a continuation. -/
theorem completes_send_bind {m : μ} {k : Bool → Prog μ α} {sent received : List μ} {a : α} :
    Completes (Dialogue.send m >>= k) sent received a ↔
      ∃ rest, sent = m :: rest ∧ Completes (k true) rest received a :=
  completes_send

/-- The same for a receive and a continuation. -/
theorem completes_recv_bind {k : Option μ → Prog μ α} {sent received : List μ} {a : α} :
    Completes (Dialogue.recv >>= k) sent received a ↔
      (∃ m rest, received = m :: rest ∧ Completes (k (some m)) sent rest a) ∨
        Completes (k none) sent received a :=
  completes_recv

/-- A composed program completes in two parts. -/
theorem completes_bind {p : Prog μ α} {k : α → Prog μ β} {sent received : List μ} {b : β} :
    Completes (p >>= k) sent received b ↔
      ∃ a sent₁ received₁ sent₂ received₂, Completes p sent₁ received₁ a ∧
        Completes (k a) sent₂ received₂ b ∧ sent = sent₁ ++ sent₂ ∧
        received = received₁ ++ received₂ := by
  constructor
  · intro h
    -- Induction on the first program; what it exchanges comes first.
    induction p generalizing sent received with
    | ret a => exact ⟨a, [], [], sent, received, .ret a, h, rfl, rfl⟩
    | call i next ih =>
      cases i with
      | send m =>
        obtain ⟨rest, rfl, hrest⟩ := completes_send.mp h
        obtain ⟨a, s₁, r₁, s₂, r₂, h₁, h₂, rfl, rfl⟩ := ih true hrest
        exact ⟨a, m :: s₁, r₁, s₂, r₂, .send h₁, h₂, rfl, rfl⟩
      | recv =>
        rcases completes_recv.mp h with ⟨m, rest, rfl, hrest⟩ | hrest
        · obtain ⟨a, s₁, r₁, s₂, r₂, h₁, h₂, rfl, rfl⟩ := ih (some m) hrest
          exact ⟨a, s₁, m :: r₁, s₂, r₂, .recv h₁, h₂, rfl, rfl⟩
        · obtain ⟨a, s₁, r₁, s₂, r₂, h₁, h₂, rfl, rfl⟩ := ih none hrest
          exact ⟨a, s₁, r₁, s₂, r₂, .timeOut h₁, h₂, rfl, rfl⟩
  · rintro ⟨a, s₁, r₁, s₂, r₂, h₁, h₂, rfl, rfl⟩
    -- Induction on how the first part completes.
    induction h₁ with
    | ret a => exact h₂
    | send _ ih => exact .send (ih h₂)
    | recv _ ih => exact .recv (ih h₂)
    | timeOut _ ih => exact .timeOut (ih h₂)

/-- Run a program in which no receive times out, on the messages it receives: what it sends and
returns. -/
def converse : Prog μ α → List μ → Option (List μ × α)
  | .ret a, [] => some ([], a)
  | .ret _, _ :: _ => none
  | .call (.send m) next, received =>
      (converse (next true) received).map fun r => (m :: r.1, r.2)
  | .call .recv _, [] => none
  | .call .recv next, m :: received => converse (next (some m)) received

/-- A computed conversation is one that completes. -/
theorem completes_of_converse {p : Prog μ α} {sent received : List μ} {a : α}
    (h : converse p received = some (sent, a)) : Completes p sent received a := by
  induction p generalizing sent received with
  | ret b =>
    cases received with
    | nil =>
      obtain ⟨rfl, rfl⟩ := Prod.mk.inj (Option.some.inj h)
      exact .ret b
    | cons m rest => exact nomatch h
  | call i next ih =>
    cases i with
    | send m =>
      obtain ⟨⟨rest, b⟩, hrest, hr⟩ := Option.map_eq_some_iff.mp h
      obtain ⟨rfl, rfl⟩ := Prod.mk.inj hr
      exact .send (ih true hrest)
    | recv =>
      cases received with
      | nil => exact nomatch h
      | cons m rest => exact .recv (ih (some m) h)

/-! ### The system -/

/-- One end: what is left of its program, the messages it has sent, oldest first, and the number of
messages it has received. -/
structure End (μ α : Type) where
  prog : Prog μ α
  sent : List μ := []
  taken : ℕ := 0

/-- An end makes its next call, or its receive times out. -/
inductive Action
  | go (s : Side)
  | timeOut (s : Side)

/-- What an end does, given the messages the other one has sent. -/
def End.go (x : End μ α) (sentByOther : List μ) : Option (End μ α) :=
  match x.prog with
  | .ret _ => none
  | .call (.send m) next => some { x with prog := next true, sent := x.sent ++ [m] }
  | .call .recv next =>
      sentByOther[x.taken]?.map fun m => { x with prog := next (some m), taken := x.taken + 1 }

def End.timeOut (x : End μ α) : Option (End μ α) :=
  match x.prog with
  | .call .recv next => some { x with prog := next none }
  | _ => none

def step (m : Side → End μ α) : Action → Option (Side → End μ α)
  | .go s => ((m s).go (m s.other).sent).map (Function.update m s)
  | .timeOut s => (m s).timeOut.map (Function.update m s)

def machine : Machine (Side → End μ α) Action := ⟨step⟩

def start (p : Side → Prog μ α) : Side → End μ α := fun s => { prog := p s }

/-- What an end still does completes what it has done. -/
structure Continues (p : Prog μ α) (x y : End μ α) : Prop where
  taken_le : x.taken ≤ y.sent.length
  completes : ∀ {sent received : List μ} {a : α}, Completes x.prog sent received a →
    Completes p (x.sent ++ sent) (y.sent.take x.taken ++ received) a

/-- A step of one side keeps its program going, and what it has sent only grows. -/
theorem Continues.go {p : Prog μ α} {x x' y : End μ α} (h : Continues p x y)
    (hgo : x.go y.sent = some x') :
    Continues p x' y ∧ ∃ extra, x'.sent = x.sent ++ extra := by
  rw [End.go] at hgo
  split at hgo
  · exact nomatch hgo
  · next m next hprog =>
    obtain rfl := Option.some.inj hgo
    refine ⟨⟨h.taken_le, fun hcompletes => ?_⟩, [m], rfl⟩
    rw [List.append_assoc]
    exact h.completes (hprog ▸ .send hcompletes)
  · next next hprog =>
    obtain ⟨m, hm, rfl⟩ := Option.map_eq_some_iff.mp hgo
    obtain ⟨hlt, -⟩ := List.getElem?_eq_some_iff.mp hm
    refine ⟨⟨hlt, fun hcompletes => ?_⟩, [], (List.append_nil _).symm⟩
    rw [List.take_add_one, hm, List.append_assoc]
    exact h.completes (hprog ▸ .recv hcompletes)

/-- A time-out keeps the program going and sends nothing. -/
theorem Continues.timeOut {p : Prog μ α} {x x' y : End μ α} (h : Continues p x y)
    (hgo : x.timeOut = some x') : Continues p x' y ∧ x'.sent = x.sent := by
  rw [End.timeOut] at hgo
  split at hgo
  · next next hprog =>
    obtain rfl := Option.some.inj hgo
    exact ⟨⟨h.taken_le, fun hcompletes => h.completes (hprog ▸ .timeOut hcompletes)⟩, rfl⟩
  · exact nomatch hgo

/-- What an end has received does not change when the other one sends more. -/
theorem Continues.append {p : Prog μ α} {x y y' : End μ α} (h : Continues p x y) {extra : List μ}
    (hsent : y'.sent = y.sent ++ extra) : Continues p x y' := by
  refine ⟨?_, fun hcompletes => ?_⟩
  · rw [hsent, List.length_append]
    exact Nat.le_trans h.taken_le (Nat.le_add_right _ _)
  · rw [hsent, List.take_append_of_le_length h.taken_le]
    exact h.completes hcompletes

variable {p : Side → Prog μ α} {m m' : Side → End μ α}

/-- Every step keeps the programs of both sides going. -/
theorem continues_step (h : ∀ s, Continues (p s) (m s) (m s.other)) {act : Action}
    (hstep : step m act = some m') (s : Side) : Continues (p s) (m' s) (m' s.other) := by
  -- The end `t` that moved goes on, and what it has sent before stays.
  have hmoved : ∀ t x, Continues (p t) x (m t.other) → (∃ extra, x.sent = (m t).sent ++ extra) →
      ∀ s, Continues (p s) (Function.update m t x s) (Function.update m t x s.other) := by
    intro t x hx ⟨extra, hsent⟩ s
    by_cases hs : s = t
    · subst hs
      rwa [Function.update_self, Function.update_of_ne s.other_ne]
    · obtain rfl := Side.eq_other_of_ne hs
      rw [Function.update_of_ne hs, Side.other_other, Function.update_self]
      have hold := h t.other
      rw [Side.other_other] at hold
      exact hold.append hsent
  cases act with
  | go t =>
    obtain ⟨x, hx, rfl⟩ := Option.map_eq_some_iff.mp hstep
    obtain ⟨hcontinues, hsent⟩ := (h t).go hx
    exact hmoved t x hcontinues hsent s
  | timeOut t =>
    obtain ⟨x, hx, rfl⟩ := Option.map_eq_some_iff.mp hstep
    obtain ⟨hcontinues, hsent⟩ := (h t).timeOut hx
    exact hmoved t x hcontinues ⟨[], hsent.trans (List.append_nil _).symm⟩ s

/-- Programs that have both returned have completed, each having received the first messages of the
other. -/
theorem run_completes {acts : List Action}
    (hrun : machine.Run Machine.always (start p) acts m) {a : Side → α}
    (hret : ∀ s, (m s).prog = .ret (a s)) :
    ∃ sent received : Side → List μ, (∀ s, Completes (p s) (sent s) (received s) (a s)) ∧
      ∀ s, received s <+: sent s.other := by
  have h : ∀ s, Continues (p s) (m s) (m s.other) := by
    refine hrun.invariant (I := fun m => ∀ s, Continues (p s) (m s) (m s.other)) (fun s => ?_)
      fun _ _ _ h _ hstep => continues_step h hstep
    exact ⟨Nat.zero_le _, fun hcompletes => hcompletes⟩
  refine ⟨fun s => (m s).sent, fun s => (m s.other).sent.take (m s).taken, fun s => ?_, fun s =>
    List.take_prefix _ _⟩
  have hdone : Completes (m s).prog [] [] (a s) := hret s ▸ .ret (a s)
  have hcompletes := (h s).completes hdone
  rwa [List.append_nil, List.append_nil] at hcompletes

end Dialogue
