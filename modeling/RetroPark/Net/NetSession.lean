import RetroPark.Runtime.Runtime
import RetroPark.Support.OrderedMap
import RetroPark.Net.Crc32
import RetroPark.Net.NetProtocol

/-!
# The lockstep session

`NetSession::tick_send` and `NetSession::tick_recv_and_advance`. A tick works on a `NetPeer`: the
session, the world of its runtime, and two logs nothing reads back, the messages sent and the frames
applied.

What the transport does during a tick is its argument `NetIo`. The blocking `recv` of the receive
loop returns the messages of `NetIo.arriving` one after another, as far as the loop asks for them;
after them it times out, or fails.
-/

namespace RetroPark.Net

/-- `rp::net::NetStatus`. -/
inductive NetStatus
  | ok
  | waiting
  | desync
  | disconnected
  deriving DecidableEq, Repr, Inhabited

/-- `rp::net::NetSession`. -/
structure NetSession where
  localPort : UInt32 := 0
  remotePort : UInt32 := 1
  /-- Frames between sampling an input and applying it. -/
  delay : UInt32 := 0
  /-- Next frame to apply. -/
  frame : ℕ := 0
  status : NetStatus := .ok
  /-- Inputs by the frame they apply to. -/
  localPending : OrderedMap ℕ InputState := .empty
  remotePending : OrderedMap ℕ InputState := .empty
  ownCrc : OrderedMap ℕ UInt32 := .empty
  peerCrc : OrderedMap ℕ UInt32 := .empty

/-- A frame that was applied: what both ports were set to, and the core side before it. -/
structure AppliedFrame (κ : Type) where
  frame : ℕ
  port0 : InputState
  port1 : InputState
  before : κ

/-- A session with its runtime, and the logs of messages sent and frames applied. -/
structure NetPeer (κ β : Type) where
  session : NetSession
  world : World κ β
  /-- Oldest first. -/
  sent : List Message := []
  /-- Newest first. -/
  applied : List (AppliedFrame κ) := []

/-- What the transport does during one tick. -/
structure NetIo where
  inputSent : Bool
  arriving : List Message
  recvFailed : Bool
  checksumSent : Bool

namespace NetSession

/-- `kChecksumEvery`. -/
def checksumEvery : ℕ := 60

/-- The frame the input of the next tick applies to. -/
def applyFrame (s : NetSession) : ℕ := s.frame + s.delay.toNat

/-- The remote input of the next frame is at hand, or none is owed for it. -/
def hasRemote (s : NetSession) : Bool :=
  decide (s.frame < s.delay.toNat) || s.remotePending.contains s.frame

/-- One message of the receive loop. -/
def receive (s : NetSession) : Message → NetSession
  | .input m => { s with remotePending := s.remotePending.insert m.frame m.state }
  | .checksum m => { s with peerCrc := s.peerCrc.insert m.frame m.crc }
  | .other => s

/-- The receive loop: `none` once the remote input is at hand, otherwise the status the tick
returns; the session after it; and the number of messages it took. -/
def awaitRemote (recvFailed : Bool) :
    List Message → NetSession → Option NetStatus × NetSession × ℕ
  | [], s =>
      if s.hasRemote then (none, s, 0)
      else (some (if recvFailed then .disconnected else .waiting), s, 0)
  | m :: ms, s =>
      if s.hasRemote then (none, s, 0)
      else
        let r := awaitRemote recvFailed ms (s.receive m)
        (r.1, r.2.1, r.2.2 + 1)

/-- Whether some frame has an own checksum and a different received one. -/
def hasMismatch (s : NetSession) : Bool :=
  s.ownCrc.any fun f own =>
    match s.peerCrc.find? f with
    | some peer => decide (peer ≠ own)
    | none => false

theorem hasMismatch_iff (s : NetSession) : s.hasMismatch = true ↔
    ∃ f own peer, s.ownCrc.find? f = some own ∧ s.peerCrc.find? f = some peer ∧ peer ≠ own := by
  unfold hasMismatch
  rw [OrderedMap.any_eq_true_iff]
  constructor
  · rintro ⟨f, own, hown, hp⟩
    cases hpeer : s.peerCrc.find? f with
    | none => simp [hpeer] at hp
    | some peer => exact ⟨f, own, peer, hown, hpeer, by simpa [hpeer] using hp⟩
  · rintro ⟨f, own, peer, hown, hpeer, hne⟩
    exact ⟨f, own, hown, by simpa [hpeer] using hne⟩

/-- The pruning at the end of a tick. -/
def prune (s : NetSession) : NetSession :=
  { s with
    remotePending := s.remotePending.eraseBelow (s.frame - 3)
    localPending := s.localPending.eraseBelow (s.frame - 3)
    ownCrc := s.ownCrc.eraseBelow (s.frame - 2 * checksumEvery)
    peerCrc := s.peerCrc.eraseBelow (s.frame - 2 * checksumEvery) }

end NetSession

namespace NetPeer

variable {κ β : Type} (env : Env κ β)

/-- The `Input` message a tick sends. -/
def inputMessage (p : NetPeer κ β) (localNow : InputState) : Message :=
  .input { frame := p.session.applyFrame, port := p.session.localPort.toUInt8, state := localNow }

/-- `NetSession::tick_send`. -/
def tickSend (localNow : InputState) (inputSent : Bool) (p : NetPeer κ β) : NetPeer κ β :=
  if p.session.status = .disconnected then p
  else
    let pending := p.session.localPending.insert p.session.applyFrame localNow
    if inputSent then
      { p with session.localPending := pending, sent := p.sent ++ [p.inputMessage localNow] }
    else
      { p with session.localPending := pending, session.status := .disconnected }

/-- Apply the input pair of the next frame and present it headlessly, whatever the result. -/
def present (p : NetPeer κ β) : NetPeer κ β :=
  let lin := (p.session.localPending.find? p.session.frame).getD .neutral
  let rin := (p.session.remotePending.find? p.session.frame).getD .neutral
  let w := ((Runtime.setInput p.session.localPort lin).run p.world).2
  let w := ((Runtime.setInput p.session.remotePort rin).run w).2
  { p with
    world := ((Runtime.present env false).run w).2
    applied := { frame := p.session.frame, port0 := w.rt.input0, port1 := w.rt.input1
                 before := w.core } :: p.applied }

/-- Record and send the checksum of a state; `false` if its message did not go out. -/
def sendChecksum (state : Blob) (checksumSent : Bool) (p : NetPeer κ β) : Bool × NetPeer κ β :=
  let msg : Message := .checksum { frame := p.session.frame, crc := crc32 state }
  (checksumSent,
    { p with
      session.ownCrc := p.session.ownCrc.insert p.session.frame (crc32 state)
      sent := if checksumSent then p.sent ++ [msg] else p.sent })

/-- The periodic checksum, of the state after the frame was presented; `false` if its message did
not go out. A state that cannot be saved is skipped. -/
def maybeSendChecksum (checksumSent : Bool) (p : NetPeer κ β) : Bool × NetPeer κ β :=
  if p.session.frame % NetSession.checksumEvery = 0 then
    let size := (Runtime.serializeSize env).run p.world
    if size.1 = 0 then sendChecksum [] checksumSent { p with world := size.2 }
    else
      let saved := (Runtime.saveState env true size.1).run size.2
      if saved.1.1 = .ok then
        sendChecksum (fillBuffer size.1 saved.1.2) checksumSent { p with world := saved.2 }
      else (true, { p with world := saved.2 })
  else (true, p)

/-- End a tick early with the given status. -/
def leave (status : NetStatus) (p : NetPeer κ β) : NetStatus × NetPeer κ β :=
  (status, { p with session.status := status })

/-- What follows the receive loop. A desync returns before the frame counter moves. -/
def advance (checksumSent : Bool) (p : NetPeer κ β) : NetStatus × NetPeer κ β :=
  let r := maybeSendChecksum env checksumSent (present env p)
  if !r.1 then leave .disconnected r.2
  else if r.2.session.hasMismatch then leave .desync r.2
  else
    (.ok,
      { r.2 with
        session := { r.2.session.prune with frame := r.2.session.frame + 1, status := .ok } })

/-- `NetSession::tick_recv_and_advance`, with the number of messages received. -/
def tickRecvAndAdvance (arriving : List Message) (recvFailed checksumSent : Bool)
    (p : NetPeer κ β) : NetStatus × NetPeer κ β × ℕ :=
  if p.session.status = .disconnected then (.disconnected, p, 0)
  else
    let r := p.session.awaitRemote recvFailed arriving
    let q := match r.1 with
      | some status => leave status { p with session := r.2.1 }
      | none => advance env checksumSent { p with session := r.2.1 }
    (q.1, q.2, r.2.2)

/-- `NetSession::tick`, with the number of messages received. -/
def tick (localNow : InputState) (io : NetIo) (p : NetPeer κ β) : NetStatus × NetPeer κ β × ℕ :=
  tickRecvAndAdvance env io.arriving io.recvFailed io.checksumSent
    (tickSend localNow io.inputSent p)

end NetPeer

end RetroPark.Net
