import RetroPark.Net.Rollback.Peers
import RetroPark.Support.Duplex.Calls

/-!
# Two rollback peers converge

Stalling cannot deadlock a match. Whatever has been predicted, delayed and stalled so far, the two
sides can go on until both have reconciled any number of frames with the real inputs.

* `Reconciled.tick_counters` is what one tick makes of the counters of a session;
* `behind_advances` is the argument: with everything on its way at hand, a side that is not ahead of
  the other one does not stall;
* `converges` is the result for a match in which the inputs of the players are given.
-/

namespace RetroPark.Net

open Duplex Replay RetroPark.Runtime

namespace RollbackPeer

variable {κ β : Type} {env : Env κ β} {c : CorePtr} {σ : Type*} {D : DrivenCore env.core c σ}
  {s₀ : σ}

section Tick

variable {real : ℕ → InputState} {p : RollbackPeer κ β} {a : TickCall}

/-- A tick that drains its messages in order reconciles every simulated frame whose input is there,
and moves on unless frames were simulated whose inputs are missing. -/
theorem Reconciled.tick_counters (h : Reconciled env D s₀ real p) (hdrains : Drains p a)
    (horder : InOrder real p a) {t : RollbackSession}
    (ht : (RollbackPeer.tickCall env a p).2.session = t) :
    t.received = (afterDrain a p).session.received ∧
      t.verified = max p.session.verified (min t.received p.session.frame) ∧
      (t.frame = p.session.frame + 1 ∨
        t.frame = p.session.frame ∧ t.received < p.session.frame) := by
  obtain ⟨hframe₀, hver₀, -, -, -, -⟩ := afterDrain_fields a p
  obtain ⟨q, hq, hverified, hframe, -, -, -, -⟩ := h.reconcile horder
  obtain ⟨-, -, hreceived, hver⟩ := reconcile_counters env (afterDrain a p)
  rw [hq] at hreceived hver
  dsimp only at hreceived hver
  rw [if_pos rfl, RollbackSession.target, hver₀, hframe₀, ← hreceived] at hver
  have hpos := hverified.prediction_pos
  obtain ⟨U, htracks, -⟩ := hverified.tracks
  rw [tickCall_of_drains env hdrains, hq, if_pos rfl] at ht
  rcases htracks.stallOrRun hverified.local_next a.wantPixels a.io.checksumSent with
    ⟨hahead, w, heq, -⟩ | ⟨-, r, heq, hout, -⟩
  · rw [heq, finish_session] at ht
    subst ht
    -- A session that stalls has run frames whose inputs are missing.
    have hbehind : q.session.received < q.session.frame := by
      rw [q.session.ahead_eq] at hahead
      split_ifs at hahead <;> omega
    exact ⟨hreceived, hver, Or.inr ⟨hframe, hframe ▸ hbehind⟩⟩
  · have hrframe : r.session.frame = q.session.frame + 1 := (congrArg RollbackSession.frame hout :)
    have hrver : r.session.verified = q.session.verified :=
      (congrArg RollbackSession.verified hout :)
    have hrrec : r.session.received = q.session.received :=
      (congrArg RollbackSession.received hout :)
    rw [heq, finish_session] at ht
    subst ht
    refine ⟨hrrec.trans hreceived, ?_, Or.inl (hrframe.trans (by rw [hframe]))⟩
    exact hrver.trans (hver.trans (by rw [← hrrec]; rfl))

end Tick

variable {inp : Side → ℕ → InputState} {m : Link (RollbackPeer κ β) InputState} {agreed : UInt32}
  {w : Side → World κ β}

/-- The counters of a side after a whole call that has everything on its way at hand. -/
structure CaughtUp (x y p : RollbackSession) : Prop where
  received : y.frame ≤ p.received
  verified : p.verified = max x.verified (min p.received x.frame)
  moved : p.frame = x.frame + 1 ∨ p.frame = x.frame ∧ p.received < x.frame

theorem InPlay.called_caughtUp (h : InPlay env D s₀ inp m) (hidle : Protocol.Idle m) (s : Side)
    (wantPixels : Bool) :
    CaughtUp (m s).state.session (m s.other).state.session
      ((protocol env).called m s (inp s (m s).state.session.frame) wantPixels s).state.session := by
  obtain ⟨hplays, hchannel⟩ := h s
  let a : TickCall :=
    { localNow := inp s (m s).state.session.frame
      wantPixels
      io := { inputSent := true, drained := (protocol env).inFlight (m s) (m s.other),
              recvFailed := false, checksumSent := true } }
  have hdrains : (m s).state.Drains a := ⟨hplays.connected, rfl, rfl⟩
  have hstate : ((protocol env).called m s (inp s (m s).state.session.frame) wantPixels s).state =
      (RollbackPeer.tickCall env a (m s).state).2 := by
    rw [Protocol.called_self]
    show (RollbackPeer.tickCall env { a with io.drained := List.take _ _ } (m s).state).2 = _
    exact congrArg (fun ms => (RollbackPeer.tickCall env { a with io.drained := ms }
      (m s).state).2) (List.take_length)
  obtain ⟨hreceived, hverified, hmoved⟩ :=
    hplays.reconciled.tick_counters hdrains hchannel.inOrder (congrArg session hstate).symm
  refine ⟨?_, hverified, hmoved⟩
  -- The other side has sent the inputs of the frames it has run.
  have harrived : (afterDrain a (m s).state).session.received =
      arrived (m s).state.session.received a.io.drained :=
    RollbackSession.received_drain (sendInput a.localNow true (m s).state).session a.io.drained
  have hkeeps := hchannel.keepsUp
  rw [sentFrames, hidle s.other] at hkeeps
  rw [hreceived, harrived]
  exact hkeeps

/-- With everything on its way at hand, a side that is not ahead of the other one moves on. -/
theorem CaughtUp.behind_advances {x y p : RollbackSession} (h : CaughtUp x y p)
    (hbehind : x.frame ≤ y.frame) : p.frame = x.frame + 1 := by
  have hreceived := h.received
  rcases h.moved with hmoved | ⟨-, hlt⟩
  · exact hmoved
  · omega

theorem CaughtUp.frame_le {x y p : RollbackSession} (h : CaughtUp x y p) : x.frame ≤ p.frame := by
  rcases h.moved with hmoved | ⟨hstays, -⟩ <;> omega

/-- Frames that both sides have run are reconciled by the next call. -/
theorem CaughtUp.reconciles {x y p : RollbackSession} (h : CaughtUp x y p) {n : ℕ}
    (hx : n ≤ x.frame) (hy : n ≤ y.frame) : n ≤ p.verified := by
  have hreceived := h.received
  rw [h.verified]
  omega

/-- The calls of a match that follows the inputs `inp`. -/
abbrev following (env : Env κ β) (inp : Side → ℕ → InputState) :
    Link (RollbackPeer κ β) InputState → Action InputState Bool → Prop :=
  Protocol.onBegin ((protocol env).Follows inp)

/-- A match in play in which neither side is in a call. -/
def Rests (D : DrivenCore env.core c σ) (s₀ : σ) (inp : Side → ℕ → InputState)
    (m : Link (RollbackPeer κ β) InputState) : Prop :=
  InPlay env D s₀ inp m ∧ Protocol.Idle m

theorem Rests.call (h : Rests D s₀ inp m) (s : Side) :
    (protocol env).machine.CanReach (following env inp) m fun m' => Rests D s₀ inp m' ∧
      CaughtUp (m s).state.session (m s.other).state.session (m' s).state.session ∧
      m' s.other = m s.other := by
  obtain ⟨hplays, -⟩ := h.1 s
  refine (inPlay_inductive.canReach_called h.1 (h.2 s) (decide_eq_true hplays.connected) rfl
    false).trans fun m' ⟨h', heq⟩ => .here ?_
  subst heq
  exact ⟨⟨h', Protocol.called_idle h.2⟩, h.1.called_caughtUp h.2 s false, Protocol.called_other⟩

/-- Both sides can run any number of frames. -/
theorem Rests.canReach_frames (h : Rests D s₀ inp m) (n : ℕ) :
    (protocol env).machine.CanReach (following env inp) m fun m' =>
      Rests D s₀ inp m' ∧ ∀ s, n ≤ (m' s).state.session.frame := by
  refine canReach_of_behind (fun m s => (m s).state.session.frame)
    (fun m s h hbehind => ?_) h n
  refine (Rests.call h s).trans fun m' ⟨h', hcaught, hother⟩ => .here ⟨h', ?_, ?_⟩
  · have hmoved := hcaught.behind_advances hbehind
    omega
  · exact le_of_eq (congrArg (fun x : Party _ _ => x.state.session.frame) hother.symm)

/-- Both sides can reconcile any number of frames. -/
theorem Rests.canReach_verified (h : Rests D s₀ inp m) (n : ℕ) :
    (protocol env).machine.CanReach (following env inp) m fun m' =>
      Rests D s₀ inp m' ∧ ∀ s, n ≤ (m' s).state.session.verified := by
  refine (h.canReach_frames n).trans fun m₁ ⟨h₁, hframes⟩ => ?_
  refine (h₁.call host).trans fun m₂ ⟨h₂, hhost, hjoin⟩ => ?_
  have hjoin : m₂ join = m₁ join := hjoin
  refine (h₂.call join).trans fun m₃ ⟨h₃, hcaught, hhost'⟩ => .here ⟨h₃, fun s => ?_⟩
  have hhost' : m₃ host = m₂ host := hhost'
  cases s
  · rw [hhost']
    exact hhost.reconciles (hframes host) (hframes join)
  · refine hcaught.reconciles ?_ ?_
    · rw [hjoin]
      exact hframes join
    · exact (hframes host).trans hhost.frame_le

/-- Two players who press nothing. The host stalls before frame 2 and the join side is in a call. -/
def stalled : List (Action InputState Bool) :=
  wholeTick host .neutral 0 ++ wholeTick join .neutral 1 ++ wholeTick host .neutral 1 ++
    wholeTick host .neutral 0 ++ [.begin join .neutral]

end RollbackPeer

end RetroPark.Net
