import Mathlib.Logic.Function.Basic
import Mathlib.Data.Nat.Init
import Mathlib.Tactic.SplitIfs
import RetroPark.Support.Machine

/-!
# Two parties over FIFO channels

Two parties exchange messages over two reliable FIFO channels. A party is driven by calls that
overlap freely with those of the other: a call begins by announcing its input to the other party and
ends after receiving some of the messages on their way. Messages may be on their way for any length
of time.

* `Protocol` is what one party does; `Protocol.machine` is the system of two of them;
* `Inductive` packages an invariant of a party together with one of each channel, and
  `Inductive.run` is the induction over a run;
* `run_follows` turns a condition on single calls, that an input announced again for the same slot
  is the same input (`Repeats`), into one assignment of inputs to slots that the whole run follows.
-/

namespace Duplex

/-- The two ends of a link. -/
inductive Side
  | left
  | right
  deriving DecidableEq, Repr

namespace Side

/-- The other end. -/
def other : Side → Side
  | left => right
  | right => left

/-- The other side of the other side is the side. -/
@[simp]
theorem other_other (s : Side) : s.other.other = s := by cases s <;> rfl

/-- The other side is another. -/
theorem other_ne (s : Side) : s.other ≠ s := by cases s <;> decide

/-- There are two sides. -/
theorem eq_other_of_ne {s t : Side} (h : t ≠ s) : t = s.other := by
  cases s <;> cases t <;> first | rfl | exact absurd rfl h

end Side

/-- What one party does, in a state `π`, with inputs `ι`, choices `ω` of the caller that stay
local, and messages `μ`. -/
structure Protocol (π ι ω μ : Type*) where
  /-- The messages sent so far, oldest first. -/
  sent : π → List μ
  /-- Whether a call gets to announce its input. -/
  ready : π → Bool
  /-- The slot the input of the next call is for. -/
  slot : π → ℕ
  /-- The message a call sends as it begins. -/
  announce : π → ι → μ
  /-- The slot and the input a message announces, if it does. -/
  announced : μ → Option (ℕ × ι)
  /-- A whole call, given the messages that can be received by its end: the state after it, with
  the announcement among the messages sent, and the number of messages received. -/
  finish : π → ι → ω → List μ → π × ℕ

/-- One end of a link. -/
structure Party (π ι : Type*) where
  /-- The party as it was before the call that is under way. -/
  state : π
  /-- The input of the call under way. -/
  calling : Option ι := none
  /-- The number of messages received from the other end. -/
  taken : ℕ := 0

/-- The two ends. -/
abbrev Link (π ι : Type*) := Side → Party π ι

/-- A call begins at end `s`, or ends there with the first `n` of the messages on their way at
hand. -/
inductive Action (ι ω : Type*)
  | begin (s : Side) (i : ι)
  | finish (s : Side) (n : ℕ) (o : ω)

namespace Protocol

variable {π ι ω μ : Type*} (P : Protocol π ι ω μ)

/-- The messages an end has sent, the announcement of the call under way included. -/
def outbox (x : Party π ι) : List μ :=
  match x.calling with
  | none => P.sent x.state
  | some i => P.sent x.state ++ [P.announce x.state i]

/-- The messages on their way from `y` to `x`. -/
def inFlight (x y : Party π ι) : List μ := (P.outbox y).drop x.taken

/-- A party after its call has ended. -/
def ended (x y : Party π ι) (i : ι) (n : ℕ) (o : ω) : Party π ι :=
  let r := P.finish x.state i o ((P.inFlight x y).take n)
  { state := r.1, taken := x.taken + r.2 }

/-- One step of the system. -/
def step (m : Link π ι) : Action ι ω → Option (Link π ι)
  | .begin s i =>
      if (m s).calling.isNone && P.ready (m s).state then
        some (Function.update m s { m s with calling := some i })
      else none
  | .finish s n o =>
      match (m s).calling with
      | none => none
      | some i =>
          if n ≤ (P.inFlight (m s) (m s.other)).length then
            some (Function.update m s (P.ended (m s) (m s.other) i n o))
          else none

/-- The system of the two parties. -/
def machine : Machine (Link π ι) (Action ι ω) := ⟨P.step⟩

/-- A condition on the calls that begin. -/
def onBegin (G : Side → π → ι → Prop) (m : Link π ι) : Action ι ω → Prop
  | .begin s i => G s (m s).state i
  | .finish _ _ _ => True

instance (G : Side → π → ι → Prop) [∀ s x i, Decidable (G s x i)] (m : Link π ι)
    (act : Action ι ω) : Decidable (onBegin G m act) :=
  match act with
  | .begin s i => inferInstanceAs (Decidable (G s (m s).state i))
  | .finish _ _ _ => .isTrue trivial

section Step

variable {P} {m m' : Link π ι} {s : Side}

/-- What the beginning of a call does. -/
theorem step_begin {i : ι} (h : P.step m (.begin s i) = some m') :
    (m s).calling = none ∧ P.ready (m s).state = true ∧
      m' = Function.update m s { m s with calling := some i } := by
  rw [Protocol.step] at h
  split_ifs at h with henabled
  obtain ⟨hidle, hready⟩ := Bool.and_eq_true_iff.mp henabled
  exact ⟨Option.isNone_iff_eq_none.mp hidle, hready, (Option.some.inj h).symm⟩

/-- What the end of a call does: it takes some messages that are in flight. -/
theorem step_finish {n : ℕ} {o : ω} (h : P.step m (.finish s n o) = some m') :
    ∃ i, (m s).calling = some i ∧ n ≤ (P.inFlight (m s) (m s.other)).length ∧
      m' = Function.update m s (P.ended (m s) (m s.other) i n o) := by
  rw [Protocol.step] at h
  cases hcalling : (m s).calling with
  | none => simp [hcalling] at h
  | some i =>
    simp only [hcalling] at h
    split_ifs at h with hn
    exact ⟨i, rfl, hn, (Option.some.inj h).symm⟩

end Step

/-! ### Invariants -/

/-- An invariant `I` of each party and an invariant `C` of what each receives from the other. -/
def Holds (I : Side → Party π ι → Prop) (C : Side → Party π ι → Party π ι → Prop)
    (m : Link π ι) : Prop :=
  ∀ s, I s (m s) ∧ C s (m s) (m s.other)

/-- Both kinds of step keep the invariants, from the point of view of the end that takes it. -/
structure Inductive (G : Side → π → ι → Prop) (I : Side → Party π ι → Prop)
    (C : Side → Party π ι → Party π ι → Prop) : Prop where
  begin : ∀ {s : Side} {x y : Party π ι} {i : ι}, I s x → C s x y → C s.other y x →
    x.calling = none → P.ready x.state = true → G s x.state i →
    I s { x with calling := some i } ∧ C s { x with calling := some i } y ∧
      C s.other y { x with calling := some i }
  finish : ∀ {s : Side} {x y : Party π ι} {i : ι} {n : ℕ} {o : ω}, I s x → C s x y →
    C s.other y x → x.calling = some i → n ≤ (P.inFlight x y).length →
    I s (P.ended x y i n o) ∧ C s (P.ended x y i n o) y ∧ C s.other y (P.ended x y i n o)

section Inductive

variable {P} {G : Side → π → ι → Prop} {I : Side → Party π ι → Prop}
  {C : Side → Party π ι → Party π ι → Prop} {m m' : Link π ι}

/-- A step at end `s` replaces the party there. -/
theorem Holds.update {s : Side} {x : Party π ι} (h : Holds I C m) (hI : I s x)
    (hC : C s x (m s.other)) (hC' : C s.other (m s.other) x) :
    Holds I C (Function.update m s x) := by
  intro t
  by_cases ht : t = s
  · subst ht
    rw [Function.update_self, Function.update_of_ne t.other_ne]
    exact ⟨hI, hC⟩
  · obtain rfl := Side.eq_other_of_ne ht
    rw [Function.update_of_ne ht, Side.other_other, Function.update_self]
    exact ⟨(h s.other).1, hC'⟩

/-- Every guarded step keeps an inductive relation. -/
theorem Inductive.step (hind : P.Inductive G I C) {act : Action ι ω} (h : Holds I C m)
    (hguard : onBegin G m act) (hstep : P.step m act = some m') : Holds I C m' := by
  -- Seen from the other end, the two parties change their places.
  have hback : ∀ s, C s.other (m s.other) (m s) := fun s => by
    have := (h s.other).2
    rwa [Side.other_other] at this
  cases act with
  | begin s i =>
    obtain ⟨hidle, hready, rfl⟩ := step_begin hstep
    obtain ⟨hI, hC, hC'⟩ := hind.begin (h s).1 (h s).2 (hback s) hidle hready hguard
    exact h.update hI hC hC'
  | finish s n o =>
    obtain ⟨i, hcalling, hn, rfl⟩ := step_finish hstep
    obtain ⟨hI, hC, hC'⟩ := hind.finish (o := o) (h s).1 (h s).2 (hback s) hcalling hn
    exact h.update hI hC hC'

/-- Inductive invariants hold along every run. -/
theorem Inductive.run (hind : P.Inductive G I C) {acts : List (Action ι ω)} (h : Holds I C m)
    (hrun : P.machine.Run (onBegin G) m acts m') : Holds I C m' :=
  hrun.invariant h fun _ _ _ hm hguard hstep => hind.step hm hguard hstep

/-- What a party keeps beside an inductive invariant may be added to it. -/
theorem Inductive.strengthen {J : Side → Party π ι → Prop} (hind : P.Inductive G I C)
    (hbegin : ∀ {s : Side} {x : Party π ι} {i : ι}, J s x → J s { x with calling := some i })
    (hfinish : ∀ {s : Side} {x y : Party π ι} {i : ι} {n : ℕ} {o : ω}, I s x → J s x → C s x y →
      x.calling = some i → n ≤ (P.inFlight x y).length → J s (P.ended x y i n o)) :
    P.Inductive G (fun s x => I s x ∧ J s x) C where
  begin hI hC hC' hidle hready hguard :=
    (hind.begin hI.1 hC hC' hidle hready hguard).imp_left fun h => ⟨h, hbegin hI.2⟩
  finish hI hC hC' hcalling hn :=
    (hind.finish hI.1 hC hC' hcalling hn).imp_left fun h =>
      ⟨h, hfinish hI.1 hI.2 hC hcalling hn⟩

end Inductive

/-! ### The inputs a run follows -/

/-- The slots and inputs a list of messages announces. -/
def announcements (l : List μ) : List (ℕ × ι) := l.filterMap P.announced

/-- The announcements of two lists of messages. -/
@[simp]
theorem announcements_append (l l' : List μ) :
    P.announcements (l ++ l') = P.announcements l ++ P.announcements l' :=
  List.filterMap_append

/-- The announcement of a call is its only message that announces an input. -/
structure Lawful : Prop where
  announced_announce : ∀ x i, P.announced (P.announce x i) = some (P.slot x, i)
  finish_sent : ∀ x i o ms, P.ready x = true → ∃ rest,
    P.sent (P.finish x i o ms).1 = P.sent x ++ [P.announce x i] ++ rest ∧
      P.announcements rest = []

/-- A call whose slot has been announced before has the same input again. -/
def Repeats (_ : Side) (x : π) (i : ι) : Prop :=
  ∀ a ∈ P.announcements (P.sent x), a.1 = P.slot x → a.2 = i

instance [DecidableEq ι] (s : Side) (x : π) (i : ι) : Decidable (P.Repeats s x i) :=
  inferInstanceAs (Decidable (∀ a ∈ _, _ → _))

/-- A call has the input that `inp` assigns to its slot. -/
def Follows (inp : Side → ℕ → ι) (s : Side) (x : π) (i : ι) : Prop := i = inp s (P.slot x)

instance [DecidableEq ι] (inp : Side → ℕ → ι) (s : Side) (x : π) (i : ι) :
    Decidable (P.Follows inp s x i) := inferInstanceAs (Decidable (i = inp s (P.slot x)))

/-- No slot has two inputs. -/
def OneValue (l : List (ℕ × ι)) : Prop := ∀ a ∈ l, ∀ b ∈ l, a.1 = b.1 → a.2 = b.2

/-- The first input a list has for a slot. -/
def inputAt [Inhabited ι] (l : List (ℕ × ι)) (k : ℕ) : ι := (l.lookup k).getD default

/-- The input of a slot is any input announced for it. -/
theorem OneValue.inputAt_eq [Inhabited ι] {l : List (ℕ × ι)} (h : OneValue l) {a : ℕ × ι}
    (ha : a ∈ l) : inputAt l a.1 = a.2 := by
  unfold inputAt
  cases hlookup : l.lookup a.1 with
  | none =>
    have := List.lookup_eq_none_iff.mp hlookup a ha
    simp at this
  | some v =>
    have hmem : (a.1, v) ∈ l := by
      obtain ⟨l₁, l₂, heq, -⟩ := List.lookup_eq_some_iff.mp hlookup
      simp [heq]
    exact h (a.1, v) hmem a ha rfl

/-- The inputs an end has announced. -/
def inputs [Inhabited ι] (m : Link π ι) (s : Side) : ℕ → ι :=
  inputAt (P.announcements (P.outbox (m s)))

/-- Each end has announced one input for each slot, and calls only when it is ready. -/
def Single (m : Link π ι) : Prop :=
  ∀ s, OneValue (P.announcements (P.outbox (m s))) ∧
    ((m s).calling ≠ none → P.ready (m s).state = true)

section Follows

variable {P} {m m' : Link π ι}

/-- A side outside a call has sent what it has sent. -/
theorem outbox_idle {x : Party π ι} (h : x.calling = none) :
    P.outbox x = P.sent x.state := by simp [outbox, h]

/-- A step with a repeated input keeps the outboxes single, and only adds to them. -/
theorem Single.step (hlaw : P.Lawful) {act : Action ι ω} (h : P.Single m)
    (hrepeats : onBegin P.Repeats m act) (hstep : P.step m act = some m') :
    P.Single m' ∧ (∀ s, P.announcements (P.outbox (m s)) ⊆ P.announcements (P.outbox (m' s))) ∧
      ∀ s i, act = .begin s i → (P.slot (m s).state, i) ∈ P.announcements (P.outbox (m' s)) := by
  cases act with
  | begin s i =>
    obtain ⟨hidle, hready, rfl⟩ := step_begin hstep
    have hnew : P.announcements (P.outbox { m s with calling := some i }) =
        P.announcements (P.outbox (m s)) ++ [(P.slot (m s).state, i)] := by
      rw [outbox_idle hidle, outbox]
      simp [announcements, hlaw.announced_announce]
    have hone := (h s).1
    -- The guard compares the new input with the earlier ones of its slot.
    have hrepeats : ∀ a ∈ P.announcements (P.outbox (m s)), a.1 = P.slot (m s).state → a.2 = i := by
      rw [outbox_idle hidle]
      exact hrepeats
    refine ⟨fun t => ?_, fun t => ?_, ?_⟩
    · by_cases ht : t = s
      · subst ht
        rw [Function.update_self, hnew]
        refine ⟨?_, fun _ => hready⟩
        intro a ha b hb heq
        rcases List.mem_append.mp ha with ha | ha <;> rcases List.mem_append.mp hb with hb | hb
        · exact hone a ha b hb heq
        · obtain rfl := List.mem_singleton.mp hb
          exact hrepeats a ha heq
        · obtain rfl := List.mem_singleton.mp ha
          exact (hrepeats b hb heq.symm).symm
        · rw [List.mem_singleton.mp ha, List.mem_singleton.mp hb]
      · rw [Function.update_of_ne ht]
        exact h t
    · by_cases ht : t = s
      · subst ht
        rw [Function.update_self, hnew]
        exact List.subset_append_left _ _
      · rw [Function.update_of_ne ht]
        exact List.Subset.refl _
    · rintro t j ⟨⟩
      rw [Function.update_self, hnew]
      exact List.mem_append_right _ (List.mem_singleton.mpr rfl)
  | finish s n o =>
    obtain ⟨i, hcalling, hn, rfl⟩ := step_finish hstep
    have hready := (h s).2 (by simp [hcalling])
    have hsame : P.announcements (P.outbox (P.ended (m s) (m s.other) i n o)) =
        P.announcements (P.outbox (m s)) := by
      obtain ⟨rest, hrest, hnone⟩ := hlaw.finish_sent (m s).state i o
        ((P.inFlight (m s) (m s.other)).take n) hready
      rw [outbox_idle rfl, ended]
      dsimp only
      rw [hrest, announcements_append, hnone, List.append_nil, outbox, hcalling]
    refine ⟨fun t => ?_, fun t => ?_, fun _ _ hact => by simp at hact⟩
    · by_cases ht : t = s
      · subst ht
        rw [Function.update_self, hsame]
        exact ⟨(h t).1, fun hne => absurd rfl hne⟩
      · rw [Function.update_of_ne ht]
        exact h t
    · by_cases ht : t = s
      · subst ht
        rw [Function.update_self, hsame]
        exact List.Subset.refl _
      · rw [Function.update_of_ne ht]
        exact List.Subset.refl _

/-- A run that repeats its inputs follows the inputs its ends have announced by its end. -/
theorem run_follows [Inhabited ι] (hlaw : P.Lawful) {acts : List (Action ι ω)} (h : P.Single m)
    (hrun : P.machine.Run (onBegin P.Repeats) m acts m') :
    P.machine.Run (onBegin (P.Follows (P.inputs m'))) m acts m' ∧ P.Single m' ∧
      ∀ s, P.announcements (P.outbox (m s)) ⊆ P.announcements (P.outbox (m' s)) := by
  induction hrun with
  | nil m => exact ⟨.nil m, h, fun _ => List.Subset.refl _⟩
  | @cons m m₁ m' act acts hrepeats hstep _ ih =>
    obtain ⟨hsingle, hgrows, hnew⟩ := h.step hlaw hrepeats hstep
    obtain ⟨hrest, hend, hgrows'⟩ := ih hsingle
    refine ⟨.cons ?_ hstep hrest, hend, fun s => List.Subset.trans (hgrows s) (hgrows' s)⟩
    cases act with
    | begin s i => exact ((hend s).1.inputAt_eq (hgrows' s (hnew s i rfl))).symm
    | finish s n o => trivial

end Follows

end Protocol

end Duplex
