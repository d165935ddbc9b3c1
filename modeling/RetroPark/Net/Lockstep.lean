import RetroPark.Net.NetSession
import RetroPark.Runtime.Driven
import RetroPark.Support.Replay
import RetroPark.Cores.RefCoreRollback

/-!
# Two lockstep peers

A host and a join session with the same input delay over reliable FIFO channels. Either side calls
`tick` whenever it wants, and the calls of the two sides overlap freely: a call begins with
`tick_send` and ends with `tick_recv_and_advance`, whose blocking `recv` times out once it has taken
the messages at hand.

* `NetPeer.protocol` is one side, and its `machine` the system of the two;
* a `Course` is one assignment of inputs to frames with what follows from it: the ports of every
  frame, the state before it, and the checksum after it;
* `InStep` is the invariant of a side that keeps to a course;
* `lockstep_agrees` is about the callers that make the two sides keep to one: a tick after a
  `Waiting` one passes the same input again (`Protocol.Repeats`).
-/

namespace RetroPark.Net

open Duplex Replay RetroPark.Runtime

namespace NetSession

/-- A newly constructed session after its start returned `RP_OK`, with the host's input delay. -/
def begin (isHost : Bool) (delay : UInt32) : NetSession :=
  { localPort := if isHost then 0 else 1
    remotePort := if isHost then 1 else 0
    delay
    frame := 0
    status := .ok }

end NetSession

/-! ### The course of a match -/

/-- What a match is about: the state both cores start in, whether the runtimes are paused, the input
delay, and the input of each side for each frame. -/
structure Course (σ : Type*) where
  start : σ
  paused : Bool
  delay : ℕ
  inp : Side → ℕ → InputState

namespace Course

variable {κ : Type} {core : CoreEnv κ} {c : CorePtr} {σ : Type*} (C : Course σ)
  (D : DrivenCore core c σ)

/-- The inputs of both ports in a frame. Nobody sends an input for the first `delay` frames. -/
def portsAt (k : ℕ) : InputState × InputState :=
  if k < C.delay then (.neutral, .neutral) else ports C.inp k

/-- What presenting a frame does to the core; nothing while the runtime is paused. -/
def step (s : σ) (i : InputState × InputState) : σ := if C.paused then s else D.step s i

/-- The state before a frame. -/
def state (k : ℕ) : σ := replay (C.step D) C.start C.portsAt k

/-- The checksum of a frame, of the state after it. -/
def crc (k : ℕ) : UInt32 := crc32 (D.enc (C.state D (k + 1)))

/-- The state after one more frame of the course. -/
theorem state_succ (k : ℕ) : C.state D (k + 1) = C.step D (C.state D k) (C.portsAt k) := rfl

/-- A message of side `s` that agrees with the course. -/
def Agrees (s : Side) : Message → Prop
  | .input m => C.delay ≤ m.frame ∧ m.state = C.inp s m.frame
  | .checksum m => m.crc = C.crc D m.frame
  | .other => True

end Course

namespace NetPeer

variable {κ β : Type} (env : Env κ β)

/-- One side of a match: a call is a whole `tick` over a transport that does not fail. -/
def protocol : Protocol (NetPeer κ β) InputState Unit Message where
  sent p := p.sent
  ready p := decide (p.session.status ≠ .disconnected)
  slot p := p.session.applyFrame
  announce p localNow := p.inputMessage localNow
  announced
    | .input m => some (m.frame, m.state)
    | _ => none
  finish p localNow _ ms :=
    (p.tick env localNow
      { inputSent := true, arriving := ms, recvFailed := false, checksumSent := true }).2

/-- A call at a connected side: its input goes out, the receive loop takes messages, and the tick
goes on or leaves with the status the loop ended with. -/
theorem finish_eq {p : NetPeer κ β} (hconnected : p.session.status ≠ .disconnected)
    (localNow : InputState) (ms : List Message) :
    (protocol env).finish p localNow () ms =
      let p₁ := tickSend localNow true p
      let r := p₁.session.awaitRemote false ms
      ((match r.1 with
        | some status => leave status { p₁ with session := r.2.1 }
        | none => advance env true { p₁ with session := r.2.1 }).2, r.2.2) := by
  have hstatus : (tickSend localNow true p).session.status ≠ .disconnected := by
    rw [tickSend, if_neg hconnected]
    exact hconnected
  exact congrArg Prod.snd (if_neg hstatus)

/-- What follows the receive loop sends a checksum at most. -/
theorem advance_sent (p : NetPeer κ β) :
    ∃ cs : List Checksum, (advance env true p).2.sent = p.sent ++ cs.map .checksum := by
  have hchecksum : ∃ cs : List Checksum,
      (maybeSendChecksum env true (present env p)).2.sent = p.sent ++ cs.map .checksum := by
    unfold maybeSendChecksum
    dsimp only
    split_ifs with hdue hnone hsaved
    · exact ⟨[_], rfl⟩
    · exact ⟨[_], rfl⟩
    · exact ⟨[], (List.append_nil _).symm⟩
    · exact ⟨[], (List.append_nil _).symm⟩
  obtain ⟨cs, hcs⟩ := hchecksum
  refine ⟨cs, ?_⟩
  unfold advance
  dsimp only
  split_ifs <;> exact hcs

/-- Checksums announce no input. -/
theorem announcements_checksums (cs : List Checksum) :
    (protocol env).announcements (cs.map .checksum) = [] := by
  induction cs with
  | nil => rfl
  | cons c cs ih => exact ih

/-- The protocol of lockstep sessions is lawful. -/
theorem protocol_lawful : (protocol env).Lawful where
  announced_announce _ _ := rfl
  finish_sent p localNow _ ms hready := by
    have hconnected : p.session.status ≠ .disconnected := of_decide_eq_true hready
    have hsent : (tickSend localNow true p).sent = p.sent ++ [p.inputMessage localNow] := by
      rw [tickSend, if_neg hconnected]
      rfl
    rw [finish_eq env hconnected]
    cases hv : ((tickSend localNow true p).session.awaitRemote false ms).1 with
    | none =>
      -- The loop has the remote input, and the advance sends checksums alone.
      obtain ⟨cs, hcs⟩ := advance_sent env { tickSend localNow true p with
        session := ((tickSend localNow true p).session.awaitRemote false ms).2.1 }
      refine ⟨cs.map .checksum, ?_, announcements_checksums env cs⟩
      dsimp only
      rw [hv]
      exact hcs.trans (congrArg (· ++ _) hsent)
    | some status =>
      refine ⟨[], ?_, rfl⟩
      dsimp only
      rw [hv]
      exact hsent.trans (List.append_nil _).symm

/-- Both sides right after their start, with the runtimes `w`. -/
def startMatch (delay : UInt32) (w : Side → World κ β) : Link (NetPeer κ β) InputState :=
  fun s => { state := { session := .begin (isHost s) delay, world := w s } }

/-- The last time a frame was applied. -/
def appliedAt (p : NetPeer κ β) (k : ℕ) : Option (AppliedFrame κ) :=
  p.applied.find? fun r => r.frame = k

variable {c : CorePtr} {σ : Type*} {D : DrivenCore env.core c σ}

/-- Side `s` keeps to the course `C`: it has applied the frames so far with the inputs of the
course, and what it holds for the frames to come agrees with it. -/
structure InStep (D : DrivenCore env.core c σ) (C : Course σ) (s : Side) (p : NetPeer κ β) :
    Prop where
  localPort : p.session.localPort = portOf s
  remotePort : p.session.remotePort = portOf s.other
  delay : p.session.delay.toNat = C.delay
  live : Live env D p.world (C.state D p.session.frame)
  paused : p.world.rt.paused = C.paused
  locals : ∀ k v, p.session.localPending.find? k = some v → C.delay ≤ k ∧ v = C.inp s k
  stocked : ∀ k, C.delay ≤ k → p.session.frame ≤ k → k < p.session.applyFrame →
    (p.session.localPending.find? k).isSome
  remotes : ∀ k v, p.session.remotePending.find? k = some v → C.delay ≤ k ∧ v = C.inp s.other k
  ownCrc : ∀ f crc, p.session.ownCrc.find? f = some crc → crc = C.crc D f
  peerCrc : ∀ f crc, p.session.peerCrc.find? f = some crc → crc = C.crc D f
  applied : ∀ k < p.session.frame, ∃ r, p.appliedAt k = some r ∧
    (r.port0, r.port1) = C.portsAt k ∧ D.view r.before = C.state D k

section InStep

variable {env} {C : Course σ} {s : Side} {p : NetPeer κ β}

/-- A session that begins is in step. -/
theorem inStep_begin {delay : UInt32} {w : World κ β} (hlive : Live env D w C.start)
    (hpaused : w.rt.paused = C.paused) (hdelay : delay.toNat = C.delay) :
    InStep env D C s { session := .begin (isHost s) delay, world := w } where
  localPort := by cases s <;> rfl
  remotePort := by cases s <;> rfl
  delay := hdelay
  live := hlive
  paused := hpaused
  locals k v hk := by
    change (OrderedMap.empty : OrderedMap ℕ InputState).find? k = some v at hk
    simp at hk
  stocked k hk _ hlt := by
    change k < 0 + delay.toNat at hlt
    omega
  remotes k v hk := by
    change (OrderedMap.empty : OrderedMap ℕ InputState).find? k = some v at hk
    simp at hk
  ownCrc f crc hf := by
    change (OrderedMap.empty : OrderedMap ℕ UInt32).find? f = some crc at hf
    simp at hf
  peerCrc f crc hf := by
    change (OrderedMap.empty : OrderedMap ℕ UInt32).find? f = some crc at hf
    simp at hf
  applied k hk := absurd hk (Nat.not_lt_zero k)

/-- Recording the next input of the course keeps to it, and stocks one frame more. -/
theorem InStep.tickSend (h : InStep env D C s p) (hconnected : p.session.status ≠ .disconnected) :
    ∃ q, NetPeer.tickSend (C.inp s p.session.applyFrame) true p = q ∧ InStep env D C s q ∧
      (q.session.localPending.find? q.session.applyFrame).isSome ∧
      q.session.status = p.session.status ∧
      q.sent = p.sent ++ [p.inputMessage (C.inp s p.session.applyFrame)] := by
  have hle : C.delay ≤ p.session.applyFrame := h.delay.symm.trans_le (Nat.le_add_left _ _)
  refine ⟨_, rfl, ?_⟩
  rw [NetPeer.tickSend, if_neg hconnected]
  refine ⟨?_, ?_, rfl, rfl⟩
  · refine ⟨h.localPort, h.remotePort, h.delay, h.live, h.paused, ?_, ?_, h.remotes, h.ownCrc,
      h.peerCrc, h.applied⟩
    · intro k v hk
      change (p.session.localPending.insert _ _).find? k = some v at hk
      rw [OrderedMap.find?_insert] at hk
      split_ifs at hk with heq
      · exact ⟨heq ▸ hle, heq ▸ (Option.some.inj hk).symm⟩
      · exact h.locals k v hk
    · intro k hk hkf hlt
      change ((p.session.localPending.insert _ _).find? k).isSome
      rw [OrderedMap.find?_insert]
      split_ifs
      · rfl
      · exact h.stocked k hk hkf hlt
  · change ((p.session.localPending.insert _ _).find? p.session.applyFrame).isSome
    rw [OrderedMap.find?_insert_self]
    rfl

/-- A message that agrees with the course keeps to it. -/
theorem InStep.receive {m : Message} (h : InStep env D C s p) (hm : C.Agrees D s.other m) :
    InStep env D C s { p with session := p.session.receive m } := by
  cases m with
  | input m =>
    refine ⟨h.localPort, h.remotePort, h.delay, h.live, h.paused, h.locals, h.stocked, ?_, h.ownCrc,
      h.peerCrc, h.applied⟩
    intro k v hk
    change (p.session.remotePending.insert m.frame m.state).find? k = some v at hk
    rw [OrderedMap.find?_insert] at hk
    split_ifs at hk with heq
    · obtain ⟨hle, hstate⟩ := hm
      rw [heq, ← Option.some.inj hk]
      exact ⟨hle, hstate⟩
    · exact h.remotes k v hk
  | checksum m =>
    refine ⟨h.localPort, h.remotePort, h.delay, h.live, h.paused, h.locals, h.stocked, h.remotes,
      h.ownCrc, ?_, h.applied⟩
    intro f crc hf
    change (p.session.peerCrc.insert m.frame m.crc).find? f = some crc at hf
    rw [OrderedMap.find?_insert] at hf
    split_ifs at hf with heq
    · rw [heq, ← Option.some.inj hf]
      exact hm
    · exact h.peerCrc f crc hf
  | other => exact h

/-- The receive loop keeps to the course. It ends with the remote input at hand, or times out. -/
theorem InStep.awaitRemote {ms : List Message} (h : InStep env D C s p)
    (hms : ∀ m ∈ ms, C.Agrees D s.other m) :
    ∃ v t n, p.session.awaitRemote false ms = (v, t, n) ∧
      InStep env D C s { p with session := t } ∧ t.localPending = p.session.localPending ∧
      t.applyFrame = p.session.applyFrame ∧ t.status = p.session.status ∧
      (v = none ∧ t.hasRemote = true ∨ v = some .waiting) := by
  -- Induction on the messages at hand.
  induction ms generalizing p with
  | nil =>
    rw [NetSession.awaitRemote]
    by_cases hhas : p.session.hasRemote = true
    · rw [if_pos hhas]
      exact ⟨_, _, _, rfl, h, rfl, rfl, rfl, Or.inl ⟨rfl, hhas⟩⟩
    · rw [if_neg hhas]
      exact ⟨_, _, _, rfl, h, rfl, rfl, rfl, Or.inr rfl⟩
  | cons m ms ih =>
    rw [NetSession.awaitRemote]
    split_ifs with hhas
    · exact ⟨_, _, _, rfl, h, rfl, rfl, rfl, Or.inl ⟨rfl, hhas⟩⟩
    · have hsame : (p.session.receive m).localPending = p.session.localPending ∧
          (p.session.receive m).applyFrame = p.session.applyFrame ∧
          (p.session.receive m).status = p.session.status := by
        cases m <;> exact ⟨rfl, rfl, rfl⟩
      obtain ⟨v, t, n, heq, ht, hlocals, hframe, hstatus, hv⟩ :=
        ih (h.receive (hms m List.mem_cons_self)) fun m' hm' =>
          hms m' (List.mem_cons_of_mem _ hm')
      rw [heq]
      exact ⟨v, t, n + 1, rfl, ht, hlocals.trans hsame.1,
        hframe.trans hsame.2.1, hstatus.trans hsame.2.2, hv⟩

/-- With the remote input at hand, the input pair of the next frame is that of the course. -/
theorem InStep.pair_eq (h : InStep env D C s p) (hremote : p.session.hasRemote = true)
    (hlocal : C.delay ≤ p.session.frame →
      (p.session.localPending.find? p.session.frame).isSome) :
    let lin := (p.session.localPending.find? p.session.frame).getD .neutral
    let rin := (p.session.remotePending.find? p.session.frame).getD .neutral
    (if p.session.localPort &&& 1 = 0 then (lin, rin) else (rin, lin)) =
      C.portsAt p.session.frame := by
  intro lin rin
  have hpair : lin = (if p.session.frame < C.delay then .neutral else C.inp s p.session.frame) ∧
      rin = (if p.session.frame < C.delay then .neutral
        else C.inp s.other p.session.frame) := by
    split_ifs with hearly
    · -- No input is on record for the first frames.
      constructor
      · change (p.session.localPending.find? p.session.frame).getD .neutral = _
        cases hfind : p.session.localPending.find? p.session.frame with
        | none => rfl
        | some v => exact absurd (h.locals _ v hfind).1 (by omega)
      · change (p.session.remotePending.find? p.session.frame).getD .neutral = _
        cases hfind : p.session.remotePending.find? p.session.frame with
        | none => rfl
        | some v => exact absurd (h.remotes _ v hfind).1 (by omega)
    · constructor
      · -- From the delay on both inputs are on record, and they are those of the course.
        obtain ⟨v, hv⟩ := Option.isSome_iff_exists.mp (hlocal (by omega))
        change (p.session.localPending.find? p.session.frame).getD .neutral = _
        rw [hv, Option.getD_some]
        exact (h.locals _ v hv).2
      · have hsome : (p.session.remotePending.find? p.session.frame).isSome := by
          rw [NetSession.hasRemote, h.delay] at hremote
          simpa [hearly, OrderedMap.contains] using hremote
        obtain ⟨v, hv⟩ := Option.isSome_iff_exists.mp hsome
        change (p.session.remotePending.find? p.session.frame).getD .neutral = _
        rw [hv, Option.getD_some]
        exact (h.remotes _ v hv).2
  rw [hpair.1, hpair.2, h.localPort, Course.portsAt]
  cases s <;> split_ifs <;> first | rfl | contradiction

/-- Presenting the next frame steps the core along the course. -/
theorem InStep.present (h : InStep env D C s p) (hremote : p.session.hasRemote = true)
    (hlocal : C.delay ≤ p.session.frame →
      (p.session.localPending.find? p.session.frame).isSome) :
    ∃ w k, NetPeer.present env p =
        { p with
          world := w
          applied := { frame := p.session.frame, port0 := (C.portsAt p.session.frame).1
                       port1 := (C.portsAt p.session.frame).2, before := k } :: p.applied } ∧
      Live env D w (C.state D (p.session.frame + 1)) ∧ w.rt.paused = C.paused ∧
      D.view k = C.state D p.session.frame := by
  -- The two ports are set in the seats of the session.
  have hseat : (p.session.localPort = 0 ∧ p.session.remotePort = 1) ∨
      (p.session.localPort = 1 ∧ p.session.remotePort = 0) := by
    rw [h.localPort, h.remotePort]
    cases s
    · exact Or.inl ⟨rfl, rfl⟩
    · exact Or.inr ⟨rfl, rfl⟩
  obtain ⟨w₁, hw₁, hlive₁, hpaused₁, hports⟩ := h.live.setInputs hseat
    ((p.session.localPending.find? p.session.frame).getD .neutral)
    ((p.session.remotePending.find? p.session.frame).getD .neutral)
  obtain ⟨r, w₂, hrun₂, hlive₂, hpaused₂⟩ := hlive₁.present false
  have hports := hports.trans (h.pair_eq hremote hlocal)
  have hpaused : w₁.rt.paused = C.paused := hpaused₁.trans h.paused
  refine ⟨w₂, w₁.core, ?_, ?_, hpaused₂.trans hpaused, hlive₁.view⟩
  · unfold NetPeer.present
    dsimp only
    rw [hw₁, hrun₂, ← hports]
  · rw [C.state_succ, Course.step, ← hpaused, ← hports]
    exact hlive₂

/-- The periodic checksum is of the state of the core, and does not move it. -/
theorem maybeSendChecksum_live {t : σ} (h : Live env D p.world t) :
    ∃ w own, ∃ cs : List Checksum, NetPeer.maybeSendChecksum env true p =
        (true, { p with world := w, session.ownCrc := own, sent := p.sent ++ cs.map .checksum }) ∧
      Live env D w t ∧ w.rt.paused = p.world.rt.paused ∧
      (∀ f crc, own.find? f = some crc →
        p.session.ownCrc.find? f = some crc ∨ f = p.session.frame ∧ crc = crc32 (D.enc t)) ∧
      ∀ cs' ∈ cs, cs'.frame = p.session.frame ∧ cs'.crc = crc32 (D.enc t) := by
  unfold NetPeer.maybeSendChecksum
  by_cases hdue : p.session.frame % NetSession.checksumEvery = 0
  · obtain ⟨w₁, w₂, hsize, hsave, hlive, hpaused⟩ := h.snapshot
    refine ⟨w₂, p.session.ownCrc.insert p.session.frame (crc32 (D.enc t)),
      [{ frame := p.session.frame, crc := crc32 (D.enc t) }], ?_, hlive, hpaused, ?_, ?_⟩
    · rw [if_pos hdue, hsize]
      dsimp only
      rw [if_neg (D.enc_pos t).ne', hsave, fillBuffer_length]
      rfl
    · intro f crc hf
      rw [OrderedMap.find?_insert] at hf
      split_ifs at hf with heq
      · exact Or.inr ⟨heq, (Option.some.inj hf).symm⟩
      · exact Or.inl hf
    · intro cs' hcs
      rw [List.mem_singleton.mp hcs]
      exact ⟨rfl, rfl⟩
  · rw [if_neg hdue]
    exact ⟨p.world, p.session.ownCrc, [], by simp, h, rfl, fun f crc hf => Or.inl hf,
      fun cs' hcs => by simp at hcs⟩

/-- Checksums that agree with one course do not differ. -/
theorem hasMismatch_eq_false {t : NetSession}
    (hown : ∀ f crc, t.ownCrc.find? f = some crc → crc = C.crc D f)
    (hpeer : ∀ f crc, t.peerCrc.find? f = some crc → crc = C.crc D f) :
    t.hasMismatch = false := by
  by_contra hmismatch
  rw [Bool.not_eq_false, NetSession.hasMismatch_iff] at hmismatch
  obtain ⟨f, own, peer, hfind, hpeerf, hne⟩ := hmismatch
  exact hne ((hpeer f peer hpeerf).trans (hown f own hfind).symm)

/-- What follows the receive loop applies one frame of the course and moves on to the next. -/
theorem InStep.advance (h : InStep env D C s p) (hremote : p.session.hasRemote = true)
    (hnext : (p.session.localPending.find? p.session.applyFrame).isSome) :
    ∃ q, NetPeer.advance env true p = (.ok, q) ∧ InStep env D C s q ∧ q.session.status = .ok ∧
      ∃ cs : List Checksum, q.sent = p.sent ++ cs.map .checksum ∧
        ∀ cs' ∈ cs, cs'.crc = C.crc D cs'.frame := by
  -- The inputs from the current frame up to the one just sent are on record.
  have hstocked : ∀ k, C.delay ≤ k → p.session.frame ≤ k → k ≤ p.session.applyFrame →
      (p.session.localPending.find? k).isSome := by
    intro k hk hkf hle
    rcases Nat.lt_or_eq_of_le hle with hlt | rfl
    · exact h.stocked k hk hkf hlt
    · exact hnext
  have happly : p.session.applyFrame = p.session.frame + C.delay := by
    rw [NetSession.applyFrame, h.delay]
  obtain ⟨w₁, k₀, hpresent, hlive₁, hpaused₁, hview⟩ :=
    h.present hremote fun hle => hstocked _ hle le_rfl (by omega)
  obtain ⟨w₂, own, cs, hchecksum, hlive₂, hpaused₂, hown, hcs⟩ :=
    maybeSendChecksum_live (p := { p with world := w₁, applied := _ :: p.applied }) hlive₁
  have hownCrc : ∀ f crc, own.find? f = some crc → crc = C.crc D f := by
    intro f crc hf
    rcases hown f crc hf with hold | ⟨rfl, hnew⟩
    · exact h.ownCrc f crc hold
    · exact hnew
  -- All checksums are of the course, so none differ.
  have hmatch : ({ p.session with ownCrc := own } : NetSession).hasMismatch = false :=
    hasMismatch_eq_false hownCrc h.peerCrc
  refine ⟨{ p with
      world := w₂
      applied := { frame := p.session.frame, port0 := (C.portsAt p.session.frame).1
                   port1 := (C.portsAt p.session.frame).2, before := k₀ } :: p.applied
      sent := p.sent ++ cs.map .checksum
      session := { ({ p.session with ownCrc := own } : NetSession).prune with
        frame := p.session.frame + 1, status := .ok } },
    ?_, ?_, rfl, cs, rfl, fun cs' hcs' => ?_⟩
  · unfold NetPeer.advance
    rw [hpresent, hchecksum]
    dsimp only
    rw [hmatch]
    rfl
  · refine ⟨h.localPort, h.remotePort, h.delay, hlive₂, hpaused₂.trans hpaused₁, ?_, ?_, ?_, ?_, ?_,
      ?_⟩
    · exact fun k v hk => h.locals k v (OrderedMap.find?_of_find?_eraseBelow hk).2
    · intro k hk hkf hlt
      change p.session.frame + 1 ≤ k at hkf
      change k < p.session.frame + 1 + p.session.delay.toNat at hlt
      rw [h.delay] at hlt
      change ((p.session.localPending.eraseBelow (p.session.frame - 3)).find? k).isSome
      -- Pruning keeps the inputs of the last three frames.
      rw [OrderedMap.find?_eraseBelow_of_le _ (by omega)]
      exact hstocked k hk (by omega) (by omega)
    · exact fun k v hk => h.remotes k v (OrderedMap.find?_of_find?_eraseBelow hk).2
    · exact fun f crc hf => hownCrc f crc (OrderedMap.find?_of_find?_eraseBelow hf).2
    · exact fun f crc hf => h.peerCrc f crc (OrderedMap.find?_of_find?_eraseBelow hf).2
    · intro k hk
      change ∃ r, (_ :: p.applied).find? _ = some r ∧ _
      rw [List.find?_cons]
      by_cases heq : p.session.frame = k
      · subst heq
        exact ⟨{ frame := p.session.frame, port0 := (C.portsAt p.session.frame).1
                 port1 := (C.portsAt p.session.frame).2, before := k₀ }, by simp, rfl, hview⟩
      · simp only [heq, decide_false]
        exact h.applied k (by change k < p.session.frame + 1 at hk; omega)
  · obtain ⟨hframe, hcrc⟩ := hcs cs' hcs'
    rw [hcrc, hframe]
    rfl

end InStep

/-! ### The invariant of a match -/

/-- A side of a match that keeps to the course `C`. -/
structure Plays (D : DrivenCore env.core c σ) (C : Course σ) (s : Side)
    (x : Party (NetPeer κ β) InputState) : Prop where
  connected : x.state.session.status ≠ .disconnected
  inStep : InStep env D C s x.state
  calling : ∀ i, x.calling = some i → i = C.inp s x.state.session.applyFrame

variable {env} {C : Course σ} {m : Link (NetPeer κ β) InputState}

/-- A call that ends keeps its side on the course, and adds checksums of the course to what it has
sent. -/
theorem Plays.finish {s : Side} {x : Party (NetPeer κ β) InputState} {localNow : InputState}
    {ms : List Message} (h : Plays env D C s x) (hcalling : x.calling = some localNow)
    (hms : ∀ m ∈ ms, C.Agrees D s.other m) :
    ∃ q n, (protocol env).finish x.state localNow () ms = (q, n) ∧
      (∀ taken, Plays env D C s { state := q, taken }) ∧
      ∃ cs : List Checksum, q.sent = (protocol env).outbox x ++ cs.map .checksum ∧
        ∀ cs' ∈ cs, cs'.crc = C.crc D cs'.frame := by
  obtain rfl := h.calling localNow hcalling
  obtain ⟨p₁, hp₁, hin₁, hnext₁, hstatus₁, hsent₁⟩ := h.inStep.tickSend h.connected
  obtain ⟨v, t, k, hawait, hin₂, hlocals, hframe, hstatus₂, hv⟩ := hin₁.awaitRemote hms
  have hout : p₁.sent = (protocol env).outbox x := by
    rw [hsent₁, Protocol.outbox, hcalling]
    rfl
  rw [finish_eq env h.connected, hp₁]
  dsimp only
  rw [hawait]
  rcases hv with ⟨rfl, hremote⟩ | rfl
  · -- The remote input is at hand, and the frame is applied.
    obtain ⟨q, hq, hin, hstatus, cs, hcs, hcrc⟩ :=
      hin₂.advance hremote (by rw [hlocals, hframe]; exact hnext₁)
    refine ⟨q, k, by simp only [hq], fun _ => ⟨?_, hin, fun i hi => by simp at hi⟩, cs, ?_, hcrc⟩
    · rw [hstatus]
      decide
    · rw [hcs, ← hout]
  · -- The receive times out. The input that was sent stays on record.
    refine ⟨_, k, rfl, fun _ => ⟨?_, ?_, fun i hi => by simp at hi⟩, [], ?_, by simp⟩
    · rintro ⟨⟩
    · exact ⟨hin₂.localPort, hin₂.remotePort, hin₂.delay, hin₂.live, hin₂.paused, hin₂.locals,
        hin₂.stocked, hin₂.remotes, hin₂.ownCrc, hin₂.peerCrc, hin₂.applied⟩
    · rw [List.map_nil, List.append_nil, ← hout]
      rfl

/-- Everything side `y` has sent to side `s` agrees with the course. -/
def Channel (D : DrivenCore env.core c σ) (C : Course σ) (s : Side)
    (_ y : Party (NetPeer κ β) InputState) : Prop :=
  ∀ msg ∈ (protocol env).outbox y, C.Agrees D s.other msg

/-- The invariant of a match whose sides keep to the course `C`. -/
def InPlay (D : DrivenCore env.core c σ) (C : Course σ)
    (m : Link (NetPeer κ β) InputState) : Prop :=
  Protocol.Holds (Plays env D C) (Channel D C) m

/-- A match that starts is in play. -/
theorem inPlay_start {delay : UInt32} {w : Side → World κ β} (hlive : ∀ s, Live env D (w s) C.start)
    (hpaused : ∀ s, (w s).rt.paused = C.paused) (hdelay : delay.toNat = C.delay) :
    InPlay D C (startMatch delay w) := by
  intro s
  refine ⟨⟨?_, inStep_begin (hlive s) (hpaused s) hdelay, fun i hi => ?_⟩, fun msg hmsg => ?_⟩
  · exact fun h => nomatch h
  · simp [startMatch] at hi
  · simp [startMatch, Protocol.outbox, protocol] at hmsg

/-- Calls with the inputs of the course keep the match in play. -/
theorem inPlay_inductive : (protocol env).Inductive ((protocol env).Follows C.inp)
    (Plays env D C) (Channel D C) where
  begin := by
    intro s x y localNow hplays hchannel hother hidle _ hfollows
    obtain rfl : localNow = C.inp s x.state.session.applyFrame := hfollows
    refine ⟨⟨hplays.connected, hplays.inStep, fun i hi => (Option.some.inj hi).symm⟩, hchannel, ?_⟩
    intro msg hmsg
    rw [Side.other_other]
    rcases List.mem_append.mp hmsg with hold | hnew
    · -- The input just announced is the one message the other side has not seen before.
      have hsent := hother msg
      rw [Protocol.outbox_idle hidle, Side.other_other] at hsent
      exact hsent hold
    · rw [List.mem_singleton.mp hnew]
      exact ⟨hplays.inStep.delay.symm.trans_le (Nat.le_add_left _ _), rfl⟩
  finish := by
    intro s x y localNow n _ hplays hchannel hother hcalling _
    have hms : ∀ msg ∈ ((protocol env).inFlight x y).take n, C.Agrees D s.other msg :=
      fun msg hmsg => hchannel msg (List.mem_of_mem_drop (List.mem_of_mem_take hmsg))
    obtain ⟨q, k, hq, hplays', cs, hcs, hcrc⟩ := hplays.finish hcalling hms
    have hended : (protocol env).ended x y localNow n () =
      { state := q, taken := x.taken + k } := by
      rw [Protocol.ended, hq]
    rw [hended]
    refine ⟨hplays' _, hchannel, fun msg hmsg => ?_⟩
    change msg ∈ q.sent at hmsg
    rw [hcs] at hmsg
    rcases List.mem_append.mp hmsg with hold | hnew
    · exact hother msg hold
    · obtain ⟨cs', hcs', rfl⟩ := List.mem_map.mp hnew
      exact hcrc cs' hcs'

/-- A match whose sides repeat their inputs is in play in every state. -/
theorem run_inPlay {s₀ : σ} {delay : UInt32} {paused : Bool} {w : Side → World κ β}
    (hlive : ∀ s, Live env D (w s) s₀) (hpaused : ∀ s, (w s).rt.paused = paused)
    {acts : List (Action InputState Unit)}
    (hrun : (protocol env).machine.Run (Protocol.onBegin (protocol env).Repeats)
      (startMatch delay w) acts m) :
    InPlay D ⟨s₀, paused, delay.toNat, (protocol env).inputs m⟩ m := by
  have hsingle : (protocol env).Single (startMatch delay w) :=
    fun s => ⟨fun a ha => by simp [startMatch, Protocol.outbox, protocol,
      Protocol.announcements] at ha, fun hne => absurd rfl hne⟩
  obtain ⟨hfollows, -, -⟩ := Protocol.run_follows (protocol_lawful env) hsingle hrun
  exact inPlay_inductive.run (inPlay_start hlive hpaused rfl) hfollows

/-- In every match whose sides repeat the inputs they have sent, both sides have applied every frame
they have advanced past with the same inputs of both ports, from the same state, and their cores are
in the same state whenever the sides are at the same frame. -/
theorem lockstep_agrees {s₀ : σ} {delay : UInt32} {paused : Bool} {w : Side → World κ β}
    (hlive : ∀ s, Live env D (w s) s₀) (hpaused : ∀ s, (w s).rt.paused = paused)
    {acts : List (Action InputState Unit)}
    (hrun : (protocol env).machine.Run (Protocol.onBegin (protocol env).Repeats)
      (startMatch delay w) acts m) :
    (∀ f, (∀ s, f < (m s).state.session.frame) → ∃ rh rj,
      (m host).state.appliedAt f = some rh ∧ (m join).state.appliedAt f = some rj ∧
        rh.port0 = rj.port0 ∧ rh.port1 = rj.port1 ∧ D.view rh.before = D.view rj.before) ∧
      ((m host).state.session.frame = (m join).state.session.frame →
        D.view (m host).state.world.core = D.view (m join).state.world.core) := by
  have h := run_inPlay hlive hpaused hrun
  refine ⟨fun f hf => ?_, fun hframe => ?_⟩
  · obtain ⟨rh, hrh, hports, hview⟩ := (h host).1.inStep.applied f (hf host)
    obtain ⟨rj, hrj, hports', hview'⟩ := (h join).1.inStep.applied f (hf join)
    have heq := Prod.ext_iff.mp (hports.trans hports'.symm)
    exact ⟨rh, rj, hrh, hrj, heq.1, heq.2, hview.trans hview'.symm⟩
  · rw [(h host).1.inStep.live.view, (h join).1.inStep.live.view, hframe]

/-- A whole call of `tick` with `n` messages at hand. -/
def wholeTick (s : Side) (localNow : InputState) (n : ℕ) : List (Action InputState Unit) :=
  [.begin s localNow, .finish s n ()]

/-- With an input delay of one frame: the host waits for the input of frame 1 while the join side
applies frame 2 with the input the host has sent, and then the host ticks again with the input
`retried`. -/
def hostRetries (retried : InputState) : List (Action InputState Unit) :=
  wholeTick host .neutral 0 ++ wholeTick host .neutral 0 ++ wholeTick join .neutral 0 ++
    wholeTick join .neutral 1 ++ wholeTick join .neutral 2 ++ wholeTick host retried 1 ++
    wholeTick host .neutral 2

/-- The match of two reference cores with an input delay of one frame. -/
def refStart : Link (NetPeer RefCoreRollback Unit) InputState :=
  startMatch 1 fun _ => RefCoreRollback.loaded

/-- The retry repeats the input of the tick that timed out, and the sides agree on frame 2. -/
theorem lockstep_agrees_hostRetries :
    ∃ m, (protocol RefCoreRollback.env).machine.exec
        (Protocol.onBegin (protocol RefCoreRollback.env).Repeats) refStart
        (hostRetries .neutral) = some m ∧
      ∃ rh rj, (m host).state.appliedAt 2 = some rh ∧ (m join).state.appliedAt 2 = some rj ∧
        rh.port0 = rj.port0 ∧ rh.port1 = rj.port1 ∧ rh.before.acc = rj.before.acc := by
  have hany : ((protocol RefCoreRollback.env).machine.exec
      (Protocol.onBegin (protocol RefCoreRollback.env).Repeats) refStart
      (hostRetries .neutral)).any (fun m => decide (2 < (m host).state.session.frame ∧
        2 < (m join).state.session.frame)) = true := by decide +kernel
  obtain ⟨m, hm, hframe⟩ := (Option.any_eq_true _ _).mp hany
  have hframe := of_decide_eq_true hframe
  obtain ⟨hagree, -⟩ := lockstep_agrees (D := RefCoreRollback.driven 1)
    (fun _ => RefCoreRollback.loaded_live) (fun _ => rfl) (Machine.run_iff_exec.mpr hm)
  refine ⟨m, hm, hagree 2 fun s => ?_⟩
  cases s
  · exact hframe.1
  · exact hframe.2

/-- The retry passes another input than the tick that timed out. Both sides advance past frame 2,
the host with the new input and the join side with the old one. -/
theorem lockstep_disagrees :
    ∃ m, (protocol RefCoreRollback.env).machine.exec Machine.always refStart
        (hostRetries RefCoreRollback.pressX) = some m ∧
      2 < (m host).state.session.frame ∧ 2 < (m join).state.session.frame ∧
      ((m host).state.appliedAt 2).map (·.port0) = some RefCoreRollback.pressX ∧
      ((m join).state.appliedAt 2).map (·.port0) = some .neutral ∧
      (m host).state.world.core.acc ≠ (m join).state.world.core.acc := by
  have hany : ((protocol RefCoreRollback.env).machine.exec Machine.always refStart
      (hostRetries RefCoreRollback.pressX)).any (fun m =>
        decide (2 < (m host).state.session.frame ∧ 2 < (m join).state.session.frame ∧
          ((m host).state.appliedAt 2).map (·.port0) = some RefCoreRollback.pressX ∧
          ((m join).state.appliedAt 2).map (·.port0) = some .neutral ∧
          (m host).state.world.core.acc ≠ (m join).state.world.core.acc)) = true := by
    decide +kernel
  obtain ⟨m, hm, hdisagree⟩ := (Option.any_eq_true _ _).mp hany
  exact ⟨m, hm, of_decide_eq_true hdisagree⟩

end NetPeer

end RetroPark.Net
