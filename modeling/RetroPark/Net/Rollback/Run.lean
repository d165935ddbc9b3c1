import RetroPark.Net.Rollback.Fields
import RetroPark.Support.Machine

/-!
# Runs of one rollback session

A session starts as `start_host` or `start_join` leaves a newly constructed object, and then takes
one tick after another. `tickMachine` is that system for an arbitrary transport and runtime.

A tick reaches its reconcile step exactly when the session is connected, its `Input` message went
out, and the drain did not end in an error (`Drains`); then it is `tickRest` on the peer
`afterDrain`. Any other tick leaves the session disconnected (`Cut`).
-/

namespace RetroPark.Net

namespace RollbackSession

/-- The first lines of `start_host` and `start_join`. -/
def resetFor (isHost : Bool) (s : RollbackSession) : RollbackSession :=
  { s with
    localPort := if isHost then 0 else 1
    remotePort := if isHost then 1 else 0
    frame := 0
    confirmed := 0
    haveConfirmed := false
    verified := 0
    rollbackCount := 0
    status := .ok }

/-- The end of `handshake`: the host's prediction window, `8` if it is zero. -/
def adoptPrediction (agreed : UInt32) (s : RollbackSession) : RollbackSession :=
  { s with maxPrediction := if agreed = 0 then 8 else agreed }

/-- A newly constructed session after its start returned `RP_OK`. -/
def begin (isHost : Bool) (agreed : UInt32) : RollbackSession :=
  ({} : RollbackSession).resetFor isHost |>.adoptPrediction agreed

/-- A session predicts at least one frame. -/
theorem begin_maxPrediction_pos (isHost : Bool) (agreed : UInt32) :
    1 ≤ (begin isHost agreed).maxPrediction.toNat := by
  change 1 ≤ (if agreed = 0 then 8 else agreed).toNat
  split_ifs with h
  · decide
  · exact Nat.pos_of_ne_zero fun h0 => h (UInt32.toNat_inj.mp h0)

end RollbackSession

/-- The arguments of one call of `tick` and what the transport does during it. -/
structure TickCall where
  localNow : InputState
  wantPixels : Bool
  io : TickIo

/-- A tick in which the transport works and delivers the messages `ms`. -/
def TickCall.delivering (localNow : InputState) (ms : List Message) : TickCall :=
  { localNow
    wantPixels := false
    io := { inputSent := true, drained := ms, recvFailed := false, checksumSent := true } }

namespace RollbackPeer

variable {κ β : Type} (env : Env κ β)

/-- A peer whose session has just been started. -/
def begin (isHost : Bool) (agreed : UInt32) (w : World κ β) : RollbackPeer κ β :=
  { session := .begin isHost agreed, world := w }

/-- One tick with its arguments packed. -/
def tickCall (a : TickCall) (p : RollbackPeer κ β) : RbStatus × RollbackPeer κ β :=
  tick env a.localNow a.wantPixels a.io p

/-- The system that takes one tick after another. -/
def tickMachine : Machine (RollbackPeer κ β) TickCall :=
  ⟨fun p a => some (tickCall env a p).2⟩

/-- The peer after a list of ticks. -/
def runTicks (as : List TickCall) (p : RollbackPeer κ β) : RollbackPeer κ β :=
  as.foldl (fun p a => (tickCall env a p).2) p

/-- A list of ticks is a run. -/
theorem run_runTicks (as : List TickCall) (p : RollbackPeer κ β) :
    (tickMachine env).Run Machine.always p as (runTicks env as p) := by
  induction as generalizing p with
  | nil => exact .nil p
  | cons a as ih => exact .cons trivial rfl (ih _)

/-- The tick gets past its drain. -/
def Drains (p : RollbackPeer κ β) (a : TickCall) : Prop :=
  p.session.status ≠ .disconnected ∧ a.io.inputSent = true ∧ a.io.recvFailed = false

instance (p : RollbackPeer κ β) (a : TickCall) : Decidable (Drains p a) :=
  inferInstanceAs (Decidable (_ ∧ _ ∧ _))

/-- The peer once the tick has sent its input and drained the transport. -/
def afterDrain (a : TickCall) (p : RollbackPeer κ β) : RollbackPeer κ β :=
  let p := sendInput a.localNow true p
  { p with session := p.session.drain a.io.drained }

/-- The drain leaves the counters, the snapshots and the own checksums alone. -/
theorem afterDrain_fields (a : TickCall) (p : RollbackPeer κ β) :
    (afterDrain a p).session.frame = p.session.frame ∧
      (afterDrain a p).session.verified = p.session.verified ∧
      (afterDrain a p).session.maxPrediction = p.session.maxPrediction ∧
      (afterDrain a p).session.ring = p.session.ring ∧
      (afterDrain a p).session.ownCrc = p.session.ownCrc ∧
      p.session.received ≤ (afterDrain a p).session.received := by
  have h := (sendInput a.localNow true p).session.drain_offline a.io.drained
  exact ⟨(congrArg RollbackSession.frame h :), (congrArg RollbackSession.verified h :),
    (congrArg RollbackSession.maxPrediction h :), (congrArg RollbackSession.ring h :),
    (congrArg RollbackSession.ownCrc h :),
    RollbackSession.received_le_drain (sendInput a.localNow true p).session a.io.drained⟩

/-- A tick that gets past its drain reconciles, and then stalls or runs. -/
theorem tickCall_of_drains {p : RollbackPeer κ β} {a : TickCall} (h : Drains p a) :
    tickCall env a p =
      if (reconcile env (afterDrain a p)).1 then
        stallOrRun env a.localNow a.wantPixels a.io.checksumSent
          (reconcile env (afterDrain a p)).2
      else (.desync, (reconcile env (afterDrain a p)).2) := by
  obtain ⟨hstatus, hsent, hrecv⟩ := h
  unfold tickCall tick
  rw [if_neg hstatus, hsent]
  dsimp only
  rw [if_pos rfl, tickRest, hrecv]
  rfl

/-- What a tick that does not get past its drain leaves behind: a disconnected session that may
have received messages, and an `Input` message at most. -/
structure Cut (p q : RollbackPeer κ β) : Prop where
  status : q.session.status = .disconnected
  fields : q.session.outline.offline = p.session.outline.offline
  ring : q.session.ring = p.session.ring
  received : p.session.received ≤ q.session.received
  world : q.world = p.world
  ran : q.ran = p.ran
  sent : ∀ m : Checksum, .checksum m ∈ q.sent ↔ .checksum m ∈ p.sent

/-- A tick that is cut short leaves the counters alone. -/
theorem Cut.counters {p q : RollbackPeer κ β} (h : Cut p q) :
    q.session.frame = p.session.frame ∧ q.session.maxPrediction = p.session.maxPrediction ∧
      q.session.verified = p.session.verified :=
  ⟨(congrArg RollbackSession.frame h.fields :),
    (congrArg RollbackSession.maxPrediction h.fields :),
    (congrArg RollbackSession.verified h.fields :)⟩

/-- The drain takes no snapshots. -/
theorem drain_ring (s : RollbackSession) (ms : List Message) : (s.drain ms).ring = s.ring :=
  (congrArg RollbackSession.ring (s.drain_offline ms) :)

/-- A tick that does not get past its drain is cut short. -/
theorem cut_of_not_drains {p : RollbackPeer κ β} {a : TickCall} (h : ¬Drains p a) :
    (tickCall env a p).1 = .disconnected ∧ Cut p (tickCall env a p).2 := by
  unfold tickCall tick
  by_cases hstatus : p.session.status = .disconnected
  · rw [if_pos hstatus]
    exact ⟨rfl, hstatus, rfl, rfl, le_rfl, rfl, rfl, fun _ => Iff.rfl⟩
  rw [if_neg hstatus]
  cases hsent : a.io.inputSent with
  | false => exact ⟨rfl, rfl, rfl, rfl, le_rfl, rfl, rfl, fun _ => Iff.rfl⟩
  | true =>
    -- The input was sent, so it is the receive that failed.
    have hrecv : a.io.recvFailed = true := by
      by_contra hne
      exact h ⟨hstatus, hsent, by simpa using hne⟩
    dsimp only
    rw [if_pos rfl, tickRest, hrecv]
    refine ⟨rfl, rfl, ?_, ?_, ?_, rfl, rfl, fun m => by simp [leave, sendInput]⟩
    · have := (sendInput a.localNow true p).session.drain_offline a.io.drained
      exact (congrArg RollbackSession.outline this :)
    · exact drain_ring _ _
    · exact RollbackSession.received_le_drain (sendInput a.localNow true p).session a.io.drained

/-- What the second half of a tick returns is the status. -/
theorem stallOrRun_status (localNow : InputState) (wantPixels checksumSent : Bool)
    (p : RollbackPeer κ β) :
    (stallOrRun env localNow wantPixels checksumSent p).1 =
      (stallOrRun env localNow wantPixels checksumSent p).2.session.status := by
  unfold stallOrRun
  dsimp only
  split_ifs <;> rfl

/-! ### What a tick sends -/

/-- `q` is a later moment of the same tick as `p`, after its drain: checksums may have been sent and
the frame may have been completed, and nothing else was received. If the transport takes the
checksums of the tick, the new own ones are among them. -/
structure Later (checksumSent : Bool) (p q : RollbackPeer κ β) : Prop where
  sent : ∃ cs : List Checksum, q.sent = p.sent ++ cs.map .checksum
  received : q.session.received = p.session.received
  localPort : q.session.localPort = p.session.localPort
  peerCrc : q.session.peerCrc = p.session.peerCrc
  frame_le : q.session.frame ≤ p.session.frame + 1
  ownCrc : checksumSent = true → ∀ f crc, q.session.ownCrc.find? f = some crc →
    p.session.ownCrc.find? f = some crc ∨ .checksum { frame := f, crc } ∈ q.sent

variable {checksumSent : Bool}

/-- What has the same outline as a later state is later. -/
theorem Later.sameOutline {p q r : RollbackPeer κ β} (h : Later checksumSent p q)
    (hsame : SameOutline q r) : Later checksumSent p r := by
  obtain ⟨cs, hcs⟩ := h.sent
  obtain ⟨hframe, -, hreceived, -⟩ := RollbackSession.counters_of_outline hsame.outline
  refine ⟨⟨cs, hsame.sent.trans hcs⟩, hreceived.trans h.received, ?_, ?_,
    hframe.trans_le h.frame_le,
    ?_⟩
  · exact (congrArg RollbackSession.localPort hsame.outline :).trans h.localPort
  · exact (congrArg RollbackSession.peerCrc hsame.outline :).trans h.peerCrc
  · have hown : r.session.ownCrc = q.session.ownCrc :=
      (congrArg RollbackSession.ownCrc hsame.outline :)
    rw [hown, hsame.sent]
    exact h.ownCrc

/-- A later state is later when its frame is moved on by at most one. -/
theorem Later.moved {p q : RollbackPeer κ β} (h : Later checksumSent p q) {n : ℕ}
    (hn : n ≤ p.session.frame + 1) (w : World κ β) :
    Later checksumSent p { q with world := w, session.frame := n } :=
  ⟨h.sent, h.received, h.localPort, h.peerCrc, hn, h.ownCrc⟩

/-- The end of a tick sends at most one checksum, the one it adds to the own ones. -/
theorem Later.finish {p q : RollbackPeer κ β} (h : Later checksumSent p q) (status : RbStatus) :
    Later checksumSent p (finish status checksumSent q).2 := by
  obtain ⟨cs, hcs⟩ := h.sent
  have hfields := finish_session status checksumSent q
  have hsent : (RollbackPeer.finish status checksumSent q).2.sent =
      (maybeSendChecksum checksumSent q).sent := rfl
  refine ⟨?_, ?_, ?_, ?_, ?_, ?_⟩
  · rw [hsent]
    rcases maybeSendChecksum_cases checksumSent q with ⟨heq, -⟩ | ⟨state, -, -, -, heq⟩
    · exact ⟨cs, by rw [heq, hcs]⟩
    · cases checksumSent with
      | false => exact ⟨cs, by rw [heq]; exact hcs⟩
      | true =>
        exact ⟨cs ++ [{ frame := q.session.verified, crc := crc32 state }], by rw [heq, hcs]; simp⟩
  · rw [hfields]
    exact h.received
  · rw [hfields]
    exact h.localPort
  · rw [hfields]
    exact h.peerCrc
  · rw [hfields]
    exact h.frame_le
  · rw [hsent, hfields]
    intro htaken f crc hf
    change (maybeSendChecksum checksumSent q).session.ownCrc.find? f = some crc at hf
    rcases maybeSendChecksum_cases checksumSent q with ⟨heq, -⟩ | ⟨state, -, -, -, heq⟩ <;>
      rw [heq] at hf ⊢
    · exact h.ownCrc htaken f crc hf
    · -- The checksum just added is the one just sent, since the transport took it.
      rw [if_pos htaken]
      rw [OrderedMap.find?_insert] at hf
      split_ifs at hf with hv
      · obtain rfl := Option.some.inj hf
        exact Or.inr (by simp [hv])
      · exact (h.ownCrc htaken f crc hf).imp_right (List.mem_append_left _)

/-- A tick that gets past its drain leaves a later state. -/
theorem tickCall_later {p : RollbackPeer κ β} {a : TickCall} (h : Drains p a) :
    Later a.io.checksumSent (afterDrain a p) (tickCall env a p).2 := by
  -- A reconcile sends nothing and keeps what has been received.
  have hrec : Later a.io.checksumSent (afterDrain a p) (reconcile env (afterDrain a p)).2 := by
    obtain ⟨hsent, hout⟩ := reconcile_outline env (afterDrain a p)
    have hown : (reconcile env (afterDrain a p)).2.session.ownCrc =
      (afterDrain a p).session.ownCrc :=
      (congrArg RollbackSession.ownCrc hout :)
    exact ⟨⟨[], by simpa using hsent⟩, (congrArg RollbackSession.received hout :),
      (congrArg RollbackSession.localPort hout :), (congrArg RollbackSession.peerCrc hout :),
      (congrArg RollbackSession.frame hout :).trans_le (Nat.le_succ _),
      fun _ f crc hf => Or.inl (by rwa [hown] at hf)⟩
  have hframe := (reconcile_counters env (afterDrain a p)).1
  rw [tickCall_of_drains env h]
  split_ifs
  · generalize (reconcile env (afterDrain a p)).2 = q at *
    have hran := hrec.sameOutline ((saveRing_sameOutline env q.session.frame q).trans
      (runFrame_sameOutline env q.session.frame a.localNow true _))
    unfold stallOrRun
    dsimp only
    split_ifs
    · exact (hrec.moved hrec.frame_le _).finish .stalled
    · exact ⟨hran.sent, hran.received, hran.localPort, hran.peerCrc, hran.frame_le, hran.ownCrc⟩
    · exact (hran.moved (Nat.succ_le_succ hframe.le) _).finish .ok
  · exact hrec

/-- The status a tick returns is the session's status after it. -/
theorem tickCall_status (a : TickCall) (p : RollbackPeer κ β) :
    (tickCall env a p).1 = (tickCall env a p).2.session.status := by
  by_cases h : Drains p a
  · rw [tickCall_of_drains env h]
    cases hrec : (reconcile env (afterDrain a p)).1 with
    | true => exact stallOrRun_status env _ _ _ _
    | false => exact (reconcile_status env hrec).symm
  · obtain ⟨hret, hcut⟩ := cut_of_not_drains env h
    rw [hret, hcut.status]

end RollbackPeer

end RetroPark.Net
