import RetroPark.Net.NetSession
import RetroPark.Runtime.Frames
import RetroPark.Support.Machine
import RetroPark.Cores.RefCoreRollback

/-!
# What one lockstep tick does

`advance_shown` says what follows the receive loop of `tick_recv_and_advance`, for any runtime and
any transport: the next frame is presented, a checksum may be recorded and sent, and the tick goes
on to the next frame or returns early.

`tick_frames` is about the frames of the core. The core runs in the middle of the tick, and the
checksums are of the state after it, so that a tick that finds a desync or cannot send its checksum
has run the core without moving on to the next frame.
-/

namespace RetroPark.Net

open RetroPark.Runtime

namespace NetPeer

variable {κ β : Type} (env : Env κ β)

/-- Whether `tick_recv_and_advance` gets as far as presenting a frame. -/
def presents (p : NetPeer κ β) (arriving : List Message) (recvFailed : Bool) : Bool :=
  decide (p.session.status ≠ .disconnected) &&
    (p.session.awaitRemote recvFailed arriving).1.isNone

/-! ### The steps of a tick -/

/-- What a tick makes of the periodic checksum of the frame it has presented: the own checksums
afterwards, the checksum sent, and whether the tick goes on. -/
inductive Records (s : NetSession) (checksumSent : Bool) :
    OrderedMap ℕ UInt32 → List Checksum → Bool → Prop
  | skipped : Records s checksumSent s.ownCrc [] true
  | sent (crc : UInt32) (due : s.frame % NetSession.checksumEvery = 0) (out : checksumSent = true) :
      Records s checksumSent (s.ownCrc.insert s.frame crc) [{ frame := s.frame, crc }] true
  | lost (crc : UInt32) (due : s.frame % NetSession.checksumEvery = 0)
      (out : checksumSent = false) :
      Records s checksumSent (s.ownCrc.insert s.frame crc) [] false

theorem Records.frame_eq {s : NetSession} {own : OrderedMap ℕ UInt32} {cs : List Checksum}
    {sent goesOn : Bool} (h : Records s sent own cs goesOn) : ∀ c ∈ cs, c.frame = s.frame := by
  intro c hc
  cases h with
  | skipped => exact absurd hc (by simp)
  | sent crc _ _ => rw [List.mem_singleton.mp hc]
  | lost _ _ _ => exact absurd hc (by simp)

/-- `q` is `p` after it has presented its next frame and dealt with its checksum; `goesOn` says
whether the checksum message, if there is one, went out. -/
structure Shown (checksumSent : Bool) (p q : NetPeer κ β) (goesOn : Bool) : Prop where
  gauge : gauge q.world = (p.world.rt.footing, p.world.rt.paused,
    p.world.coreFrames + if p.world.rt.runsFrame then 1 else 0)
  applied : ∃ r, q.applied = r :: p.applied ∧ r.frame = p.session.frame
  records : ∃ own cs, q.session = { p.session with ownCrc := own } ∧
    q.sent = p.sent ++ cs.map Message.checksum ∧ Records p.session checksumSent own cs goesOn

/-- Presenting touches the world and the log of applied frames only. -/
theorem present_cases (p : NetPeer κ β) :
    ∃ w r, present env p = { p with world := w, applied := r :: p.applied } ∧
      r.frame = p.session.frame ∧ Runtime.gauge w = (p.world.rt.footing, p.world.rt.paused,
        p.world.coreFrames + if p.world.rt.runsFrame then 1 else 0) := by
  refine ⟨_, _, rfl, rfl, ?_⟩
  have hlocal := run_of_triple (setInput_gauge (κ := κ) (β := β) (g := Runtime.gauge p.world)
    p.session.localPort ((p.session.localPending.find? p.session.frame).getD .neutral))
    (w := p.world) rfl
  have hremote := run_of_triple (setInput_gauge (κ := κ) (β := β) p.session.remotePort
    ((p.session.remotePending.find? p.session.frame).getD .neutral)) hlocal
  exact run_of_triple (present_gauge env false) hremote

/-- The periodic checksum is skipped, or recorded and sent if its message goes out. -/
theorem maybeSendChecksum_cases (checksumSent : Bool) (p : NetPeer κ β) :
    (∃ w, Runtime.gauge w = Runtime.gauge p.world ∧
      maybeSendChecksum env checksumSent p = (true, { p with world := w })) ∨
    p.session.frame % NetSession.checksumEvery = 0 ∧
      ∃ w state, Runtime.gauge w = Runtime.gauge p.world ∧
        maybeSendChecksum env checksumSent p =
          sendChecksum state checksumSent { p with world := w } := by
  unfold maybeSendChecksum
  by_cases hdue : p.session.frame % NetSession.checksumEvery = 0
  · rw [if_pos hdue]
    have hsize :=
      run_of_triple (serializeSize_gauge env (g := Runtime.gauge p.world)) (w := p.world) rfl
    by_cases hempty : ((serializeSize env).run p.world).1 = 0
    · exact Or.inr ⟨hdue, _, _, hsize, if_pos hempty⟩
    · have hsaved := run_of_triple
        (saveState_gauge env true ((serializeSize env).run p.world).1) hsize
      dsimp only
      rw [if_neg hempty]
      split_ifs with hok
      · exact Or.inr ⟨hdue, _, _, hsaved, rfl⟩
      · exact Or.inl ⟨_, hsaved, rfl⟩
  · rw [if_neg hdue]
    exact Or.inl ⟨p.world, rfl, rfl⟩

/-- What follows the receive loop, in terms of the peer once the frame is shown. -/
theorem advance_shown (checksumSent : Bool) (p : NetPeer κ β) :
    ∃ q goesOn, Shown checksumSent p q goesOn ∧ advance env checksumSent p =
      if !goesOn then leave .disconnected q
      else if q.session.hasMismatch then leave .desync q
      else (.ok, { q with
        session := { q.session.prune with frame := q.session.frame + 1, status := .ok } }) := by
  obtain ⟨w, r, hpresent, hframe, hgauge⟩ := present_cases env p
  refine ⟨_, _, ?_, rfl⟩
  rw [hpresent]
  rcases maybeSendChecksum_cases env checksumSent { p with world := w, applied := r :: p.applied }
    with ⟨w', hw', heq⟩ | ⟨hdue, w', state, hw', heq⟩
  · rw [heq]
    exact ⟨hw'.trans hgauge, ⟨r, rfl, hframe⟩, _, [], rfl, (List.append_nil _).symm, .skipped⟩
  · rw [heq]
    -- The message goes out or is lost; the checksum is on record either way.
    cases checksumSent with
    | true => exact ⟨hw'.trans hgauge, ⟨r, rfl, hframe⟩, _, [_], rfl, rfl, .sent _ hdue rfl⟩
    | false =>
      exact ⟨hw'.trans hgauge, ⟨r, rfl, hframe⟩, _, [], rfl, (List.append_nil _).symm,
        .lost _ hdue rfl⟩

/-- The receive loop touches the maps of received messages only. -/
theorem awaitRemote_fields (recvFailed : Bool) (ms : List Message) (s : NetSession) :
    ∃ remote peer, (s.awaitRemote recvFailed ms).2.1 =
      { s with remotePending := remote, peerCrc := peer } := by
  induction ms generalizing s with
  | nil =>
    rw [NetSession.awaitRemote]
    split_ifs <;> exact ⟨_, _, rfl⟩
  | cons m ms ih =>
    rw [NetSession.awaitRemote]
    split_ifs
    · exact ⟨_, _, rfl⟩
    · obtain ⟨remote, peer, heq⟩ := ih (s.receive m)
      refine ⟨remote, peer, heq.trans ?_⟩
      cases m <;> rfl

/-- The receive loop ends with the remote input at hand, or with `Waiting` or `Disconnected`. -/
theorem awaitRemote_status (recvFailed : Bool) (ms : List Message) (s : NetSession) :
    (s.awaitRemote recvFailed ms).1 = none ∨
      (s.awaitRemote recvFailed ms).1 = some (if recvFailed then .disconnected else .waiting) := by
  induction ms generalizing s with
  | nil =>
    rw [NetSession.awaitRemote]
    by_cases hhas : s.hasRemote = true
    · exact Or.inl (by rw [if_pos hhas])
    · exact Or.inr (by rw [if_neg hhas])
  | cons m ms ih =>
    rw [NetSession.awaitRemote]
    by_cases hhas : s.hasRemote = true
    · exact Or.inl (by rw [if_pos hhas])
    · rw [if_neg hhas]
      exact ih _

/-! ### Frames of the session and frames of the core -/

theorem coreFrames_of_gauge {w w' : World κ β} {b : Bool} (hruns : w.rt.runsFrame = b)
    (h : Runtime.gauge w' = (w.rt.footing, w.rt.paused,
      w.coreFrames + if w.rt.runsFrame then 1 else 0)) :
    w'.coreFrames = w.coreFrames + if b then 1 else 0 := by
  subst hruns
  exact congrArg (fun g => g.2.2) h

/-- A call moves on to the next frame exactly when it returns `Ok`, and runs the core exactly when
it presents, which every `Ok` and every desync does and no `Waiting`. -/
theorem tickRecvAndAdvance_frames {p : NetPeer κ β} (hruns : p.world.rt.runsFrame = true)
    (arriving : List Message) (recvFailed checksumSent : Bool) :
    let r := p.tickRecvAndAdvance env arriving recvFailed checksumSent
    r.2.1.session.frame = p.session.frame + (if r.1 = .ok then 1 else 0) ∧
      r.2.1.world.coreFrames =
        p.world.coreFrames + (if p.presents arriving recvFailed then 1 else 0) ∧
      (r.1 = .ok ∨ r.1 = .desync → p.presents arriving recvFailed = true) ∧
      (r.1 = .waiting → p.presents arriving recvFailed = false) := by
  intro r
  by_cases hconnected : p.session.status = .disconnected
  · have hr : r = (.disconnected, p, 0) := by
      show p.tickRecvAndAdvance env arriving recvFailed checksumSent = _
      rw [tickRecvAndAdvance, if_pos hconnected]
    simp [hr, presents, hconnected]
  obtain ⟨remote, peer, hsession⟩ := awaitRemote_fields recvFailed arriving p.session
  have hpresents : p.presents arriving recvFailed =
      (p.session.awaitRemote recvFailed arriving).1.isNone := by
    simp [presents, hconnected]
  rcases awaitRemote_status recvFailed arriving p.session with hstatus | hstatus
  · -- The remote input is at hand, and the frame is presented.
    obtain ⟨q, goesOn, hshown, hadvance⟩ := advance_shown env checksumSent
      { p with session := { p.session with remotePending := remote, peerCrc := peer } }
    have hr : (r.1, r.2.1) = advance env checksumSent
        { p with session := { p.session with remotePending := remote, peerCrc := peer } } := by
      show ((p.tickRecvAndAdvance env arriving recvFailed checksumSent).1,
        (p.tickRecvAndAdvance env arriving recvFailed checksumSent).2.1) = _
      rw [tickRecvAndAdvance, if_neg hconnected]
      dsimp only
      rw [hstatus, hsession]
    have hcore := coreFrames_of_gauge hruns hshown.gauge
    obtain ⟨own, cs, hq, -, -⟩ := hshown.records
    rw [hadvance] at hr
    have hframe : q.session.frame = p.session.frame := by rw [hq]
    have hcore : q.world.coreFrames = p.world.coreFrames + 1 := hcore
    rw [hpresents, hstatus]
    split_ifs at hr <;> obtain ⟨h₁, h₂⟩ := Prod.ext_iff.mp hr <;>
      simp_all [leave, NetSession.prune]
  · -- The wait ends the tick before it presents.
    have hr : (r.1, r.2.1) = leave (if recvFailed then .disconnected else .waiting)
        { p with session := { p.session with remotePending := remote, peerCrc := peer } } := by
      show ((p.tickRecvAndAdvance env arriving recvFailed checksumSent).1,
        (p.tickRecvAndAdvance env arriving recvFailed checksumSent).2.1) = _
      rw [tickRecvAndAdvance, if_neg hconnected]
      dsimp only
      rw [hstatus, hsession]
    obtain ⟨h₁, h₂⟩ := Prod.ext_iff.mp hr
    rw [hpresents, hstatus]
    cases recvFailed <;> simp_all [leave]

/-! ### Frames over a run -/

/-- A call of a public method of the session, or of its runtime by the host program. -/
inductive SessionCall
  | tickSend (localNow : InputState) (inputSent : Bool)
  | tickRecvAndAdvance (arriving : List Message) (recvFailed checksumSent : Bool)
  | runtime (call : ApiCall)

/-- A session with what its ticks have done so far. -/
structure Tally (κ β : Type) where
  peer : NetPeer κ β
  /-- The number of frames the ticks have run the core for. -/
  ran : ℕ := 0
  /-- The number of ticks that presented a frame and did not return `Ok`. -/
  cut : ℕ := 0

/-- Whether a call presents a frame and does not return `Ok`. -/
def cutShort (p : NetPeer κ β) (arriving : List Message) (recvFailed checksumSent : Bool) : Bool :=
  p.presents arriving recvFailed &&
    decide ((p.tickRecvAndAdvance env arriving recvFailed checksumSent).1 ≠ .ok)

/-- The calls made on a session and its runtime, in any order. -/
def callMachine : Machine (Tally κ β) SessionCall where
  step t
    | .tickSend localNow inputSent => some { t with peer := t.peer.tickSend localNow inputSent }
    | .tickRecvAndAdvance arriving recvFailed checksumSent =>
        let q := (t.peer.tickRecvAndAdvance env arriving recvFailed checksumSent).2.1
        some
          { peer := q
            ran := t.ran + (q.world.coreFrames - t.peer.world.coreFrames)
            cut := t.cut + if cutShort env t.peer arriving recvFailed checksumSent then 1 else 0 }
    | .runtime call =>
        some { t with peer.world := ((Runtime.call env call).run t.peer.world).2 }

/-- A call of `tick_recv_and_advance` finds a runtime that runs a frame when it presents. -/
def CanPresent (t : Tally κ β) : SessionCall → Prop
  | .tickRecvAndAdvance _ _ _ => t.peer.world.rt.runsFrame = true
  | _ => True

instance (t : Tally κ β) (call : SessionCall) : Decidable (CanPresent t call) :=
  match call with
  | .tickRecvAndAdvance _ _ _ => inferInstanceAs (Decidable (_ = true))
  | .tickSend _ _ => .isTrue trivial
  | .runtime _ => .isTrue trivial

theorem tickSend_frame (p : NetPeer κ β) (localNow : InputState) (inputSent : Bool) :
    (p.tickSend localNow inputSent).session.frame = p.session.frame := by
  unfold tickSend
  split_ifs <;> rfl

/-- One call keeps the frames run in step with the frame counter and the ticks cut short. -/
theorem tally_step {n : ℕ} {t t' : Tally κ β} {call : SessionCall}
    (h : t.ran + n = t.peer.session.frame + t.cut) (hcan : CanPresent t call)
    (hstep : (callMachine env).step t call = some t') :
    t'.ran + n = t'.peer.session.frame + t'.cut := by
  cases call with
  | tickSend localNow inputSent =>
    obtain rfl := Option.some.inj hstep
    show t.ran + n = (t.peer.tickSend localNow inputSent).session.frame + t.cut
    rw [tickSend_frame, h]
  | tickRecvAndAdvance arriving recvFailed checksumSent =>
    obtain rfl := Option.some.inj hstep
    obtain ⟨hframe, hcore, hpresents, -⟩ :=
      tickRecvAndAdvance_frames env hcan arriving recvFailed checksumSent
    dsimp only
    rw [hframe, hcore, Nat.add_sub_cancel_left, cutShort]
    -- A presented frame either moves the counter or is counted as cut short.
    by_cases hok : (t.peer.tickRecvAndAdvance env arriving recvFailed checksumSent).1 = .ok
    · simp [hok, hpresents (Or.inl hok)]
      omega
    · cases hp : t.peer.presents arriving recvFailed <;> simp [hok]
      · exact h
      · omega
  | runtime call =>
    obtain rfl := Option.some.inj hstep
    exact h

/-- On a runtime that runs a frame when it presents, a call returns `Ok` exactly when the core has
run one frame and the frame counter has grown by one. A `Waiting` runs and counts nothing, a desync
has run the core without counting the frame, and a disconnect has done so only if it presented
first. Over any run, the ticks have run the core as often as the counter says and once more for each
tick that was cut short after presenting. -/
theorem tick_frames (env : Env κ β) :
    (∀ (p : NetPeer κ β) (arriving : List Message) (recvFailed checksumSent : Bool),
      p.world.rt.runsFrame = true →
      let r := p.tickRecvAndAdvance env arriving recvFailed checksumSent
      let frames := r.2.1.world.coreFrames
      let before := p.world.coreFrames
      (r.1 = .ok ↔ frames = before + 1 ∧ r.2.1.session.frame = p.session.frame + 1) ∧
        (r.1 ≠ .ok → r.2.1.session.frame = p.session.frame) ∧
        (r.1 = .waiting → frames = before) ∧ (r.1 = .desync → frames = before + 1) ∧
        (r.1 = .disconnected →
          frames = before + if p.presents arriving recvFailed then 1 else 0)) ∧
      ∀ (p : NetPeer κ β) (calls : List SessionCall) (t : Tally κ β),
        (callMachine env).Run CanPresent { peer := p } calls t →
        t.ran + p.session.frame = t.peer.session.frame + t.cut := by
  constructor
  · intro p arriving recvFailed checksumSent hruns r frames before
    obtain ⟨hframe, hcore, hpresents, hwaiting⟩ :=
      tickRecvAndAdvance_frames env hruns arriving recvFailed checksumSent
    refine ⟨⟨fun hok => ⟨?_, ?_⟩, fun h => ?_⟩, fun hne => ?_, fun hw => ?_, fun hd => ?_,
      fun _ => hcore⟩
    · rw [hpresents (Or.inl hok)] at hcore
      exact hcore
    · exact hframe.trans (by rw [if_pos hok])
    · -- A tick that does not return `Ok` leaves the counter.
      by_contra hne
      rw [if_neg hne] at hframe
      exact absurd (hframe.symm.trans h.2) (by simp)
    · exact hframe.trans (by rw [if_neg hne]; rfl)
    · rw [hwaiting hw] at hcore
      exact hcore
    · rw [hpresents (Or.inr hd)] at hcore
      exact hcore
  · intro p calls t hrun
    exact hrun.invariant (I := fun t => t.ran + p.session.frame = t.peer.session.frame + t.cut)
      (by simp) fun _ _ _ h hcan hstep => tally_step env h hcan hstep

/-- A session of the reference core without input delay, at its first frame. -/
def refPeer : NetPeer RefCoreRollback Unit := { session := {}, world := RefCoreRollback.loaded }

/-- A tick that counts its frame, one that waits, a call of the host program, and a tick that finds
a desync. -/
def mixedCalls : List SessionCall :=
  [.tickSend .neutral true, .tickRecvAndAdvance [.input ⟨0, 1, .neutral⟩] false true,
    .tickRecvAndAdvance [] false true, .runtime (.setInput 0 .neutral),
    .tickRecvAndAdvance [.checksum ⟨0, 0⟩, .input ⟨1, 1, .neutral⟩] false true]

/-- Ticks and calls of the host, with one frame waited for. -/
theorem tick_frames_mixedCalls :
    (refPeer.tickRecvAndAdvance RefCoreRollback.env [.input ⟨0, 1, .neutral⟩] false true).1 = .ok ∧
      ∃ t, (callMachine RefCoreRollback.env).exec CanPresent
        { peer := refPeer } mixedCalls = some t ∧
        t.ran + 0 = t.peer.session.frame + t.cut := by
  obtain ⟨hcall, hrun⟩ := tick_frames RefCoreRollback.env
  have hsome : ((callMachine RefCoreRollback.env).exec CanPresent { peer := refPeer }
      mixedCalls).isSome := by decide +kernel
  obtain ⟨t, ht⟩ := Option.isSome_iff_exists.mp hsome
  exact ⟨(hcall refPeer _ false true (by decide +kernel)).1.mpr (by decide +kernel), t, ht,
    hrun refPeer mixedCalls t (Machine.run_iff_exec.mpr ht)⟩

/-- A tick that receives a differing checksum of its frame returns `Desync` after it has run the
core, and the counter stays. -/
theorem desync_runs_frame :
    let r := refPeer.tickRecvAndAdvance RefCoreRollback.env
      [.checksum ⟨0, 0⟩, .input ⟨0, 1, .neutral⟩] false true
    r.1 = .desync ∧ r.2.1.world.coreFrames = refPeer.world.coreFrames + 1 ∧
      r.2.1.session.frame = refPeer.session.frame := by
  decide +kernel

end NetPeer

end RetroPark.Net
