import RetroPark.Runtime.Runtime
import RetroPark.Net.Crc32
import RetroPark.Net.NetProtocol
import RetroPark.Net.RollbackPredict

/-!
# The rollback session

`RollbackSession::tick` with its helpers. A tick works on a `RollbackPeer`: the session, the
world of its runtime, and two logs nothing reads back: the messages sent, oldest first, and the
frames run, newest first.

What the transport does during a tick is its argument `TickIo`: whether the `Input` message went
out, the messages a non-blocking `recv` returned one after another, whether the last `recv` failed
instead of finding nothing, and whether the `Checksum` message went out. The session looks at all
of them but the last.
-/

namespace RetroPark.Net

/-- `rp::net::RbStatus`. -/
inductive RbStatus
  | ok
  | stalled
  | desync
  | disconnected
  deriving DecidableEq, Repr, Inhabited

/-- `rp::net::RollbackSession`. -/
structure RollbackSession where
  localPort : UInt32 := 0
  remotePort : UInt32 := 1
  maxPrediction : UInt32 := 8
  /-- Next frame to simulate. -/
  frame : ℕ := 0
  /-- Highest frame with a real remote input. -/
  confirmed : ℕ := 0
  haveConfirmed : Bool := false
  /-- Frames below are reconciled with the real remote input. -/
  verified : ℕ := 0
  rollbackCount : ℕ := 0
  status : RbStatus := .ok
  /-- Frame to serialized state before it. -/
  ring : OrderedMap ℕ Blob := .empty
  locals : OrderedMap ℕ InputState := .empty
  remotes : OrderedMap ℕ InputState := .empty
  used : OrderedMap ℕ InputState := .empty
  ownCrc : OrderedMap ℕ UInt32 := .empty
  peerCrc : OrderedMap ℕ UInt32 := .empty

/-- `kChecksumEvery`. -/
def checksumEvery : ℕ := 60

namespace RollbackSession

/-- The remote input a frame is simulated with: the real one if it has arrived. -/
def remoteInput (s : RollbackSession) (f : ℕ) : InputState :=
  (s.remotes.find? f).getD (rbPredict s.remotes s.confirmed)

/-- One message of the drain loop. -/
def receive (s : RollbackSession) : Message → RollbackSession
  | .input m =>
      let s := { s with remotes := s.remotes.insert m.frame m.state }
      if !s.haveConfirmed || s.confirmed < m.frame then
        { s with confirmed := m.frame, haveConfirmed := true }
      else s
  | .checksum m => { s with peerCrc := s.peerCrc.insert m.frame m.crc }
  | .other => s

/-- The drain loop. -/
def drain (s : RollbackSession) (ms : List Message) : RollbackSession := ms.foldl receive s

/-- The last frame a reconcile checks. -/
def reconcileEnd (s : RollbackSession) : ℕ :=
  if s.confirmed < s.frame - 1 then s.confirmed else s.frame - 1

/-- How far the simulated frames run ahead of the confirmed ones. -/
def ahead (s : RollbackSession) : ℕ :=
  if 0 < s.frame ∧ s.haveConfirmed ∧ s.confirmed < s.frame - 1 then s.frame - 1 - s.confirmed
  else 0

/-- The own and the received checksum of frame `f` differ. -/
def Mismatch (s : RollbackSession) : Prop :=
  ∃ f own peer, s.ownCrc.find? f = some own ∧ s.peerCrc.find? f = some peer ∧ peer ≠ own

/-- The loop of `check_desync`. -/
def hasMismatch (s : RollbackSession) : Bool :=
  s.ownCrc.any fun f own =>
    match s.peerCrc.find? f with
    | some peer => decide (peer ≠ own)
    | none => false

/-- `RollbackSession::check_desync`. -/
def checkDesync (s : RollbackSession) : RollbackSession :=
  if s.hasMismatch then { s with status := .desync } else s

/-- The slack of `prune`, computed in 32-bit arithmetic. -/
def slack (s : RollbackSession) : ℕ := (s.maxPrediction + 2).toNat

/-- The frame below which `prune` erases. -/
def floor (s : RollbackSession) : ℕ := if s.slack < s.verified then s.verified - s.slack else 0

/-- `RollbackSession::prune`. -/
def prune (s : RollbackSession) : RollbackSession :=
  { s with
    ring := s.ring.eraseBelow s.floor
    locals := s.locals.eraseBelow s.floor
    remotes := s.remotes.eraseBelow s.floor
    used := s.used.eraseBelow s.floor }

end RollbackSession

/-- One call of `advance` by a session: the frame, what both ports were set to, whether audio was
emitted (only the first run of a frame does), and the core side before it. -/
structure FrameRun (κ : Type) where
  frame : ℕ
  port0 : InputState
  port1 : InputState
  emit : Bool
  before : κ

/-- A session with its runtime, and the logs of messages sent and frames run. -/
structure RollbackPeer (κ β : Type) where
  session : RollbackSession
  world : World κ β
  /-- Oldest first. -/
  sent : List Message := []
  /-- Newest first. -/
  ran : List (FrameRun κ) := []

/-- What the transport does during one tick. -/
structure TickIo where
  inputSent : Bool
  drained : List Message
  recvFailed : Bool
  checksumSent : Bool

namespace RollbackPeer

variable {κ β : Type} (env : Env κ β)

/-- `RollbackSession::save_ring`. -/
def saveRing (f : ℕ) (p : RollbackPeer κ β) : RollbackPeer κ β :=
  let size := (Runtime.serializeSize env).run p.world
  if size.1 = 0 then
    { p with world := size.2, session.ring := p.session.ring.insert f [] }
  else
    let saved := (Runtime.saveState env true size.1).run size.2
    if saved.1.1 = .ok then
      { p with
        world := saved.2
        session.ring := p.session.ring.insert f (fillBuffer size.1 saved.1.2) }
    else { p with world := saved.2 }

/-- Simulate frame `f` with the local input `lin`: choose and record the remote input, set both
ports and advance. -/
def runFrame (f : ℕ) (lin : InputState) (emit : Bool) (p : RollbackPeer κ β) :
    RpResult × RollbackPeer κ β :=
  let rin := p.session.remoteInput f
  let w := ((Runtime.setInput p.session.localPort lin).run p.world).2
  let w := ((Runtime.setInput p.session.remotePort rin).run w).2
  let r := (Runtime.advance env emit).run w
  (r.1,
    { p with
      session.used := p.session.used.insert f rin
      world := r.2
      ran := { frame := f, port0 := w.rt.input0, port1 := w.rt.input1, emit, before := w.core }
        :: p.ran })

/-- The resimulation loop over `n` frames from `f`; `false` if the runtime failed. -/
def resimulate : ℕ → ℕ → RollbackPeer κ β → Bool × RollbackPeer κ β
  | 0, _, p => (true, p)
  | n + 1, f, p =>
      let lin := p.session.locals.index f .neutral
      let r := runFrame env f lin.1 false { p with session.locals := lin.2 }
      if r.1 ≠ .ok then (false, { r.2 with session.status := .desync })
      else resimulate n (f + 1) (saveRing env (f + 1) r.2)

/-- Load the snapshot before frame `g` and resimulate up to the current frame. -/
def rollBack (g : ℕ) (p : RollbackPeer κ β) : Bool × RollbackPeer κ β :=
  let snap := p.session.ring.index g []
  let r := (Runtime.loadState env snap.1).run p.world
  let p := { p with session.ring := snap.2, world := r.2 }
  if r.1 ≠ .ok then (false, { p with session.status := .desync })
  else
    let q := resimulate env (p.session.frame - g) g p
    if q.1 then
      (true, { q.2 with session.rollbackCount := q.2.session.rollbackCount + 1 })
    else q

/-- Step 3 of a tick: check the frames that are now confirmed and roll back to the first one that
was mispredicted. -/
def reconcile (p : RollbackPeer κ β) : Bool × RollbackPeer κ β :=
  let s := p.session
  if s.haveConfirmed && decide (0 < s.frame) then
    if s.verified ≤ s.reconcileEnd then
      match rbFirstMispredicted s.remotes s.used s.verified s.reconcileEnd with
      | none => (true, { p with session.verified := s.reconcileEnd + 1 })
      | some g =>
          let q := rollBack env g p
          if q.1 then (true, { q.2 with session.verified := s.reconcileEnd + 1 }) else q
    else (true, p)
  else (true, p)

/-- `RollbackSession::maybe_send_checksum`. The digest is recorded whether or not it goes out. -/
def maybeSendChecksum (checksumSent : Bool) (p : RollbackPeer κ β) : RollbackPeer κ β :=
  let s := p.session
  if s.verified = 0 ∨ s.verified % checksumEvery ≠ 0 then p
  else
    match s.ring.find? s.verified with
    | none => p
    | some state =>
        { p with
          session.ownCrc := s.ownCrc.insert s.verified (crc32 state)
          sent :=
            if checksumSent then
              p.sent ++ [.checksum { frame := s.verified, crc := crc32 state }]
            else p.sent }

/-- The end of a tick: checksum, desync check, pruning, and the status the tick returns. -/
def finish (status : RbStatus) (checksumSent : Bool) (p : RollbackPeer κ β) :
    RbStatus × RollbackPeer κ β :=
  let p := maybeSendChecksum checksumSent p
  (status, { p with session := { p.session.checkDesync.prune with status } })

/-- End a tick early with the given status. -/
def leave (status : RbStatus) (p : RollbackPeer κ β) : RbStatus × RollbackPeer κ β :=
  (status, { p with session.status := status })

/-- Steps 4 to 6 of a tick: stall, or simulate and display the next frame. -/
def stallOrRun (localNow : InputState) (wantPixels checksumSent : Bool) (p : RollbackPeer κ β) :
    RbStatus × RollbackPeer κ β :=
  let f := p.session.frame
  if p.session.maxPrediction.toNat ≤ p.session.ahead then
    finish .stalled checksumSent
      { p with world := ((Runtime.render env wantPixels).run p.world).2 }
  else
    let r := runFrame env f localNow true (saveRing env f p)
    if r.1 ≠ .ok then leave .desync r.2
    else
      finish .ok checksumSent
        { r.2 with
          world := ((Runtime.render env wantPixels).run r.2.world).2
          session.frame := f + 1 }

/-- Step 1 of a tick: record the local input and send it. -/
def sendInput (localNow : InputState) (inputSent : Bool) (p : RollbackPeer κ β) :
    RollbackPeer κ β :=
  let s := p.session
  let msg : Input := { frame := s.frame, port := s.localPort.toUInt8, state := localNow }
  { p with
    session.locals := s.locals.insert s.frame localNow
    sent := if inputSent then p.sent ++ [.input msg] else p.sent }

/-- Steps 2 to 6 of a tick. -/
def tickRest (localNow : InputState) (wantPixels : Bool) (io : TickIo) (p : RollbackPeer κ β) :
    RbStatus × RollbackPeer κ β :=
  let p := { p with session := p.session.drain io.drained }
  if io.recvFailed then leave .disconnected p
  else
    let r := reconcile env p
    if r.1 then stallOrRun env localNow wantPixels io.checksumSent r.2 else (.desync, r.2)

/-- `RollbackSession::tick`. -/
def tick (localNow : InputState) (wantPixels : Bool) (io : TickIo) (p : RollbackPeer κ β) :
    RbStatus × RollbackPeer κ β :=
  if p.session.status = .disconnected then (.disconnected, p)
  else
    let p := sendInput localNow io.inputSent p
    if io.inputSent then tickRest env localNow wantPixels io p
    else leave .disconnected p

end RollbackPeer

end RetroPark.Net
