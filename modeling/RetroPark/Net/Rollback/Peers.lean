import RetroPark.Net.Rollback.GroundTruth
import RetroPark.Support.Duplex

/-!
# Two rollback peers

A host and a join session over reliable FIFO channels. Either side calls `tick` whenever it wants,
and the calls of the two sides overlap freely: a call begins when its `Input` message goes out and
ends after it has drained some of the messages that are on their way to it.

* `RollbackPeer.protocol` is one side, and its `machine` the system of the two;
* `Plays` and `Channel` are the invariant when both sides feed the session one input for each frame;
* `peers_agree` is about the callers that do: a tick whose frame has been sent before, as it is
  after a stalled one, passes the same input again (`Protocol.Repeats`).
-/

namespace RetroPark.Net

open Duplex Replay RetroPark.Runtime

namespace RollbackPeer

variable {κ β : Type} (env : Env κ β)

/-- One side of a match: a call is a whole `tick`, which drains the messages at hand, and whose
caller chooses whether it wants pixels. -/
def protocol : Protocol (RollbackPeer κ β) InputState Bool Message where
  sent p := p.sent
  ready p := decide (p.session.status ≠ .disconnected)
  slot p := p.session.frame
  announce p localNow := .input
    { frame := p.session.frame, port := p.session.localPort.toUInt8, state := localNow }
  announced
    | .input m => some (m.frame, m.state)
    | _ => none
  finish p localNow wantPixels ms :=
    ((p.tickCall env
      { localNow
        wantPixels
        io := { inputSent := true, drained := ms, recvFailed := false, checksumSent := true } }).2,
      ms.length)

/-- Checksums announce no input. -/
theorem announcements_checksums (cs : List Checksum) :
    (protocol env).announcements (cs.map .checksum) = [] := by
  induction cs with
  | nil => rfl
  | cons c cs ih => exact ih

/-- The protocol of rollback sessions is lawful. -/
theorem protocol_lawful : (protocol env).Lawful where
  announced_announce _ _ := rfl
  finish_sent p localNow wantPixels ms hready := by
    obtain ⟨cs, hcs⟩ := (tickCall_later env (p := p)
      (a := { localNow, wantPixels, io := ⟨true, ms, false, true⟩ })
      ⟨of_decide_eq_true hready, rfl, rfl⟩).sent
    exact ⟨cs.map .checksum, hcs, announcements_checksums env cs⟩

/-- Both sides right after their start, with the runtimes `w`. -/
def startMatch (agreed : UInt32) (w : Side → World κ β) : Link (RollbackPeer κ β) InputState :=
  fun s => { state := .begin (isHost s) agreed (w s) }

/-- The number of frames whose local input a side has sent. -/
def sentFrames (x : Party (RollbackPeer κ β) InputState) : ℕ :=
  x.state.session.frame + if x.calling.isSome then 1 else 0

/-! ### The channel between two sides -/

section Channel

variable {env} {x y : Party (RollbackPeer κ β) InputState} {real : ℕ → InputState}

/-- What is on its way from side `y` to side `x` arrives in order and brings every frame that `y`
has sent; the checksums `x` has received are from `y`. -/
structure Channel (env : Env κ β) (real : ℕ → InputState)
    (x y : Party (RollbackPeer κ β) InputState) : Prop where
  taken_le : x.taken ≤ ((protocol env).outbox y).length
  inOrder : ArrivesInOrder real x.state.session.received ((protocol env).inFlight x y)
  keepsUp : sentFrames y ≤ arrived x.state.session.received ((protocol env).inFlight x y)
  heard : ∀ f crc, x.state.session.peerCrc.find? f = some crc →
    .checksum { frame := f, crc } ∈ (protocol env).outbox y

/-- The sender adds to its outbox what continues the order. -/
theorem Channel.append {y' : Party (RollbackPeer κ β) InputState} {ms : List Message}
    (h : Channel env real x y) (hout : (protocol env).outbox y' = (protocol env).outbox y ++ ms)
    (horder : ∀ n, sentFrames y ≤ n → ArrivesInOrder real n ms ∧ sentFrames y' ≤ arrived n ms) :
    Channel env real x y' := by
  have hflight : (protocol env).inFlight x y' = (protocol env).inFlight x y ++ ms := by
    rw [Protocol.inFlight, hout, List.drop_append_of_le_length h.taken_le]
    rfl
  obtain ⟨hms, hkeeps⟩ := horder _ h.keepsUp
  refine ⟨?_, ?_, ?_, ?_⟩
  · rw [hout, List.length_append]
    exact h.taken_le.trans (Nat.le_add_right _ _)
  · rw [hflight, arrivesInOrder_append]
    exact ⟨h.inOrder, hms⟩
  · rw [hflight, arrived_append]
    exact hkeeps
  · rw [hout]
    exact fun f crc hf => List.mem_append_left _ (h.heard f crc hf)

/-- The sender begins a tick with the real input of its frame. -/
theorem Channel.send (h : Channel env real x y) (hidle : y.calling = none) :
    Channel env real x { y with calling := some (real y.state.session.frame) } := by
  have hsent : sentFrames y = y.state.session.frame := by simp [sentFrames, hidle]
  have hout : (protocol env).outbox { y with calling := some (real y.state.session.frame) } =
      (protocol env).outbox y ++
        [(protocol env).announce y.state (real y.state.session.frame)] := by
    rw [Protocol.outbox_idle hidle]
    rfl
  refine h.append hout fun n hn => ?_
  rw [hsent] at hn
  exact ⟨⟨hn, rfl, trivial⟩, le_max_right _ _⟩

/-- The sender ends a tick, which sends checksums at most. -/
theorem Channel.extend {y' : Party (RollbackPeer κ β) InputState} {cs : List Checksum}
    (h : Channel env real x y)
    (hout : (protocol env).outbox y' = (protocol env).outbox y ++ cs.map .checksum)
    (hsent : sentFrames y' ≤ sentFrames y) : Channel env real x y' := by
  refine h.append hout fun n hn => ?_
  obtain ⟨horder, harrived⟩ := arrives_checksums real n cs
  exact ⟨horder, by rw [harrived]; exact hsent.trans hn⟩

/-- The messages a tick drains are in order, and so are the ones it leaves. -/
theorem Channel.receive {n : ℕ} (h : Channel env real x y)
    (hn : n ≤ ((protocol env).inFlight x y).length) :
    ArrivesInOrder real x.state.session.received (((protocol env).inFlight x y).take n) ∧
      ∀ x' : Party (RollbackPeer κ β) InputState, x'.taken = x.taken + n →
        x'.state.session.received =
          arrived x.state.session.received (((protocol env).inFlight x y).take n) →
        (∀ f crc, x'.state.session.peerCrc.find? f = some crc →
          x.state.session.peerCrc.find? f = some crc ∨
            .checksum { frame := f, crc } ∈ ((protocol env).inFlight x y).take n) →
        Channel env real x' y := by
  have horder := h.inOrder
  have hkeeps := h.keepsUp
  -- What is in flight is what the tick takes, followed by what it leaves.
  rw [← List.take_append_drop n ((protocol env).inFlight x y)] at horder hkeeps
  rw [arrivesInOrder_append] at horder
  rw [arrived_append] at hkeeps
  refine ⟨horder.1, fun x' htaken hreceived hheard => ?_⟩
  have hflight : (protocol env).inFlight x' y = ((protocol env).inFlight x y).drop n := by
    rw [Protocol.inFlight, Protocol.inFlight, htaken, List.drop_drop]
  refine ⟨?_, ?_, ?_, ?_⟩
  · rw [Protocol.inFlight, List.length_drop] at hn
    have := h.taken_le
    omega
  · rw [hflight, hreceived]
    exact horder.2
  · rw [hflight, hreceived]
    exact hkeeps
  · intro f crc hf
    rcases hheard f crc hf with hold | hnew
    · exact h.heard f crc hold
    · exact List.mem_of_mem_drop (List.mem_of_mem_take hnew)

end Channel

/-! ### The invariant of a match -/

variable {c : CorePtr} {σ : Type*} {D : DrivenCore env.core c σ}

/-- Side `s` has run every frame with the input `inp` has for it, and is reconciled with the inputs
of the other side. -/
structure Plays (D : DrivenCore env.core c σ) (s₀ : σ) (inp : Side → ℕ → InputState) (s : Side)
    (x : Party (RollbackPeer κ β) InputState) : Prop where
  connected : x.state.session.status ≠ .disconnected
  localPort : x.state.session.localPort = portOf s
  reconciled : Reconciled env D s₀ (inp s.other) x.state
  sentTrue : SentTrue D s₀ (inp s.other) x.state
  recorded : ∀ k < x.state.session.frame, x.state.recorded k = inp s k
  calling : ∀ i, x.calling = some i → i = inp s x.state.session.frame
  ownSent : ∀ f crc, x.state.session.ownCrc.find? f = some crc →
    .checksum { frame := f, crc } ∈ x.state.sent

/-- The invariant of a match whose sides follow the inputs `inp`. -/
def InPlay (D : DrivenCore env.core c σ) (s₀ : σ) (inp : Side → ℕ → InputState)
    (m : Link (RollbackPeer κ β) InputState) : Prop :=
  Protocol.Holds (Plays env D s₀ inp) (fun s => Channel env (inp s.other)) m

variable {env} {s₀ : σ} {inp : Side → ℕ → InputState} {m : Link (RollbackPeer κ β) InputState}

/-- A match that starts is in play. -/
theorem inPlay_start {agreed : UInt32} {w : Side → World κ β} (h : ∀ s, Live env D (w s) s₀) :
    InPlay env D s₀ inp (startMatch agreed w) := by
  have hnone : ∀ f crc, (OrderedMap.empty : OrderedMap ℕ UInt32).find? f = some crc →
      ∀ P : Prop, P := fun f crc hf => by simp at hf
  intro s
  -- A side that begins has sent, received and run nothing.
  refine ⟨⟨?_, ?_, reconciled_begin (h s), ?_, ?_, ?_, ?_⟩, ⟨?_, ?_, ?_, ?_⟩⟩
  · exact fun h => nomatch h
  · cases s <;> rfl
  · intro m hm
    simp [startMatch, RollbackPeer.begin] at hm
  · exact fun k hk => absurd hk (Nat.not_lt_zero k)
  · exact fun i hi => by simp [startMatch] at hi
  · exact fun f crc hf => hnone f crc hf _
  · exact Nat.zero_le _
  · exact trivial
  · exact le_rfl
  · exact fun f crc hf => hnone f crc hf _

/-- A call that ends keeps its side in play and tells the other side nothing but checksums. -/
theorem Plays.finish {s : Side} {x : Party (RollbackPeer κ β) InputState} {localNow : InputState}
    {ms : List Message} (h : Plays env D s₀ inp s x) (hcalling : x.calling = some localNow)
    (horder : ArrivesInOrder (inp s.other) x.state.session.received ms) (wantPixels : Bool)
    {q : RollbackPeer κ β} (hq : ((protocol env).finish x.state localNow wantPixels ms).1 = q)
    (taken : ℕ) :
    Plays env D s₀ inp s { state := q, taken } ∧
      q.session.received = arrived x.state.session.received ms ∧
      (∃ cs : List Checksum, q.sent = (protocol env).outbox x ++ cs.map .checksum) ∧
      q.session.frame ≤ x.state.session.frame + 1 ∧
      ∀ f crc, q.session.peerCrc.find? f = some crc →
        x.state.session.peerCrc.find? f = some crc ∨ .checksum { frame := f, crc } ∈ ms := by
  -- The call is a tick that drains what the wire delivers.
  let a : TickCall := { localNow, wantPixels, io := ⟨true, ms, false, true⟩ }
  have hq : (x.state.tickCall env a).2 = q := hq
  have hdrains : x.state.Drains a := ⟨h.connected, rfl, rfl⟩
  obtain ⟨hret, hrec, hsent, hrecorded⟩ := h.reconciled.tickCall h.sentTrue hdrains horder
  have hlater := tickCall_later env hdrains
  have hoff := (x.state.sendInput localNow true).session.drain_offline ms
  have hstatus := tickCall_status env a x.state
  have hframe := hlater.frame_le
  rw [(afterDrain_fields a x.state).1] at hframe
  rw [hq] at hrec hsent hrecorded hlater hframe hstatus
  have hout : (protocol env).outbox x = (afterDrain a x.state).sent := by
    rw [Protocol.outbox, hcalling]
    rfl
  obtain ⟨cs, hcs⟩ := hlater.sent
  refine ⟨⟨?_, ?_, hrec, hsent, ?_, ?_, ?_⟩, ?_, ⟨cs, hcs.trans (by rw [hout])⟩, hframe, ?_⟩
  · rw [← hstatus]
    rcases hret with hret | hret <;> rw [hret] <;> decide
  · exact hlater.localPort.trans ((congrArg RollbackSession.localPort hoff :).trans h.localPort)
  · intro k hk
    rw [hrecorded k hk]
    -- The new frame ran with the input of the call, the others as before.
    split_ifs with heq
    · rw [← heq]
      exact h.calling localNow hcalling
    · exact h.recorded k (by dsimp only at hk; omega)
  · exact fun i hi => by simp at hi
  · intro f crc hf
    -- A checksum of its own is an old one, sent before, or the one just sent.
    rcases hlater.ownCrc rfl f crc hf with hold | hnew
    · rw [(afterDrain_fields a x.state).2.2.2.2.1] at hold
      rw [hcs]
      exact List.mem_append_left _ (List.mem_append_left _ (h.ownSent f crc hold))
    · exact hnew
  · rw [hlater.received]
    exact RollbackSession.received_drain (x.state.sendInput localNow true).session ms
  · intro f crc hf
    rw [hlater.peerCrc] at hf
    exact RollbackSession.mem_of_drain_peerCrc
      (s := (x.state.sendInput localNow true).session) hf

/-- Calls that follow the inputs `inp` keep the match in play. -/
theorem inPlay_inductive : (protocol env).Inductive ((protocol env).Follows inp)
    (Plays env D s₀ inp) (fun s => Channel env (inp s.other)) where
  begin := by
    intro s x y localNow hplays hchannel hother hidle _ hfollows
    obtain rfl : localNow = inp s x.state.session.frame := hfollows
    rw [Side.other_other] at hother ⊢
    refine ⟨⟨hplays.connected, hplays.localPort, hplays.reconciled, hplays.sentTrue,
      hplays.recorded, ?_, hplays.ownSent⟩, ?_, hother.send hidle⟩
    · exact fun i hi => (Option.some.inj hi).symm
    · exact ⟨hchannel.taken_le, hchannel.inOrder, hchannel.keepsUp, hchannel.heard⟩
  finish := by
    intro s x y localNow n wantPixels hplays hchannel hother hcalling hn
    rw [Side.other_other] at hother ⊢
    obtain ⟨horder, hreceive⟩ := hchannel.receive hn
    have hlen : (((protocol env).inFlight x y).take n).length = n := by simpa using hn
    obtain ⟨hplays', hreceived, ⟨cs, hcs⟩, hframe, hheard⟩ :=
      hplays.finish hcalling horder wantPixels rfl
        (x.taken + (((protocol env).inFlight x y).take n).length)
    refine ⟨hplays', hreceive _ (congrArg (x.taken + ·) hlen) hreceived hheard,
      hother.extend hcs ?_⟩
    simpa [sentFrames, hcalling, Protocol.ended] using hframe

/-- A match whose sides repeat their inputs is in play in every state. -/
theorem run_inPlay {agreed : UInt32} {w : Side → World κ β} (hlive : ∀ s, Live env D (w s) s₀)
    {acts : List (Action InputState Bool)}
    (hrun : (protocol env).machine.Run (Protocol.onBegin (protocol env).Repeats)
      (startMatch agreed w) acts m) :
    InPlay env D s₀ ((protocol env).inputs m) m := by
  -- Without a double call each side announces one input for a frame.
  have hsingle : (protocol env).Single (startMatch agreed w) :=
    fun s => ⟨fun a ha => by simp [startMatch, RollbackPeer.begin, Protocol.outbox, protocol,
      Protocol.announcements] at ha, fun hne => absurd rfl hne⟩
  obtain ⟨hfollows, -, -⟩ := Protocol.run_follows (protocol_lawful env) hsingle hrun
  exact inPlay_inductive.run (inPlay_start hlive) hfollows

/-- The local and the remote inputs of a side are the inputs of the two ports. -/
theorem Plays.fed_eq {s : Side} {x : Party (RollbackPeer κ β) InputState}
    (h : Plays env D s₀ inp s x) {k : ℕ}
    (hk : k < x.state.session.frame) :
    x.state.session.fed x.state.recorded (inp s.other) k = ports inp k := by
  rw [RollbackSession.fed, RollbackSession.seat, h.localPort, h.recorded k hk]
  cases s <;> rfl

/-- A verified frame was last run with the inputs of both ports. -/
theorem Plays.lastRun {s : Side} {x : Party (RollbackPeer κ β) InputState}
    (h : Plays env D s₀ inp s x) {f : ℕ}
    (hf : f < x.state.session.verified) :
    ∃ r, RollbackPeer.lastRun x.state.ran f = some r ∧ (r.port0, r.port1) = ports inp f ∧
      D.view r.before = replay D.step s₀ (ports inp) f := by
  obtain ⟨U, htracks, hreal⟩ := h.reconciled.tracks
  have hlt := h.reconciled.verified_lt
  have hle := h.reconciled.verified_le_received
  have hframe : f < x.state.session.frame := by omega
  have hfed : ∀ k ≤ f, x.state.session.fed x.state.recorded U k = ports inp k := by
    intro k hk
    rw [← h.fed_eq (hk.trans_lt hframe), RollbackSession.fed, RollbackSession.fed,
      hreal k (by omega) (by omega)]
  obtain ⟨r, hlast, hports, hview⟩ := htracks.log f hframe
  refine ⟨r, hlast, hports.trans (hfed f le_rfl), hview.trans ?_⟩
  exact replay_congr fun k hk => hfed k hk.le

/-- A checksum a side has sent is of the replay with the inputs of both ports. -/
theorem Plays.crc_eq {s : Side} {x : Party (RollbackPeer κ β) InputState}
    (h : Plays env D s₀ inp s x)
    {cs : Checksum} (hsent : .checksum cs ∈ (protocol env).outbox x) :
    cs.crc = crc32 (D.enc (replay D.step s₀ (ports inp) cs.frame)) := by
  have hmem : .checksum cs ∈ x.state.sent := by
    unfold Protocol.outbox at hsent
    cases hcalling : x.calling with
    | none => simpa [hcalling, protocol] using hsent
    | some localNow => simpa [hcalling, protocol] using hsent
  obtain ⟨hle, -, hcrc⟩ := h.sentTrue cs hmem
  rw [hcrc]
  exact congrArg crc32 (congrArg D.enc (replay_congr fun k hk => h.fed_eq (hk.trans_le hle)))

/-- Two sides that follow their inputs never hold differing checksums. -/
theorem InPlay.not_mismatch (h : InPlay env D s₀ inp m) (s : Side) :
    ¬(m s).state.session.Mismatch := by
  rintro ⟨f, own, peer, hown, hpeer, hne⟩
  obtain ⟨hplays, hchannel⟩ := h s
  obtain ⟨hother, -⟩ := h s.other
  refine hne ?_
  have hmem : .checksum { frame := f, crc := own } ∈ (protocol env).outbox (m s) := by
    have := hplays.ownSent f own hown
    unfold Protocol.outbox
    cases (m s).calling with
    | none => exact this
    | some localNow => exact List.mem_append_left _ this
  exact (hother.crc_eq (hchannel.heard f peer hpeer)).trans (hplays.crc_eq hmem).symm

/-- In every match whose sides repeat the inputs they have sent, both sides have run every frame
they have verified with the same inputs of both ports, from the same state. -/
theorem peers_agree {agreed : UInt32} {w : Side → World κ β} (hlive : ∀ s, Live env D (w s) s₀)
    {acts : List (Action InputState Bool)}
    (hrun : (protocol env).machine.Run (Protocol.onBegin (protocol env).Repeats)
      (startMatch agreed w) acts m) {f : ℕ}
    (hf : ∀ s, f < (m s).state.session.verified) :
    ∃ rh rj, lastRun (m host).state.ran f = some rh ∧ lastRun (m join).state.ran f = some rj ∧
      rh.port0 = rj.port0 ∧ rh.port1 = rj.port1 ∧ D.view rh.before = D.view rj.before := by
  have h := run_inPlay hlive hrun
  obtain ⟨rh, hrh, hports, hview⟩ := (h host).1.lastRun (hf host)
  obtain ⟨rj, hrj, hports', hview'⟩ := (h join).1.lastRun (hf join)
  have heq := Prod.ext_iff.mp (hports.trans hports'.symm)
  exact ⟨rh, rj, hrh, hrj, heq.1, heq.2, hview.trans hview'.symm⟩

/-- A whole call of `tick` that drains `n` messages. -/
def wholeTick (s : Side) (localNow : InputState) (n : ℕ) : List (Action InputState Bool) :=
  [.begin s localNow, .finish s n false]

/-- With a prediction window of one frame: the host stalls before frame 2, the join side verifies
three frames, and the host runs frame 2 with the input `retried`. -/
def hostRetries (retried : InputState) : List (Action InputState Bool) :=
  wholeTick host .neutral 0 ++ wholeTick join .neutral 1 ++ wholeTick host .neutral 1 ++
    wholeTick host .neutral 0 ++ wholeTick join .neutral 2 ++ wholeTick join .neutral 0 ++
    wholeTick join .neutral 0 ++ wholeTick host retried 3 ++ wholeTick host .neutral 0

/-- The match of two reference cores with a prediction window of one frame. -/
def refStart : Link (RollbackPeer RefCoreRollback Unit) InputState :=
  startMatch 1 fun _ => RefCoreRollback.loaded

/-- The retry repeats the input of the stalled tick, and the sides agree on frame 2. -/
theorem peers_agree_hostRetries :
    ∃ m, (protocol RefCoreRollback.env).machine.exec
        (Protocol.onBegin (protocol RefCoreRollback.env).Repeats) refStart
        (hostRetries .neutral) = some m ∧
      ∃ rh rj, lastRun (m host).state.ran 2 = some rh ∧ lastRun (m join).state.ran 2 = some rj ∧
        rh.port0 = rj.port0 ∧ rh.port1 = rj.port1 ∧ rh.before.acc = rj.before.acc := by
  have hany : ((protocol RefCoreRollback.env).machine.exec
      (Protocol.onBegin (protocol RefCoreRollback.env).Repeats) refStart
      (hostRetries .neutral)).any (fun m => decide (2 < (m host).state.session.verified ∧
        2 < (m join).state.session.verified)) = true := by decide +kernel
  obtain ⟨m, hm, hverified⟩ := (Option.any_eq_true _ _).mp hany
  have hverified := of_decide_eq_true hverified
  refine ⟨m, hm, peers_agree (D := RefCoreRollback.driven 1)
    (fun _ => RefCoreRollback.loaded_live) (Machine.run_iff_exec.mpr hm) fun s => ?_⟩
  cases s
  · exact hverified.1
  · exact hverified.2

/-- The retry passes another input than the stalled tick. Both sides verify frame 2, the host with
the new input and the join side with the old one. -/
theorem peers_disagree :
    ∃ m, (protocol RefCoreRollback.env).machine.exec Machine.always refStart
        (hostRetries RefCoreRollback.pressX) = some m ∧
      2 < (m host).state.session.verified ∧ 2 < (m join).state.session.verified ∧
      (lastRun (m host).state.ran 2).map (·.port0) = some RefCoreRollback.pressX ∧
      (lastRun (m join).state.ran 2).map (·.port0) = some .neutral := by
  have hany : ((protocol RefCoreRollback.env).machine.exec Machine.always refStart
      (hostRetries RefCoreRollback.pressX)).any (fun m =>
        decide (2 < (m host).state.session.verified ∧ 2 < (m join).state.session.verified ∧
          (lastRun (m host).state.ran 2).map (·.port0) = some RefCoreRollback.pressX ∧
          (lastRun (m join).state.ran 2).map (·.port0) = some .neutral)) = true := by
    decide +kernel
  obtain ⟨m, hm, hdisagree⟩ := (Option.any_eq_true _ _).mp hany
  exact ⟨m, hm, of_decide_eq_true hdisagree⟩

/-- Every checksum a session sends is of a state whose inputs had all arrived, the replay with the
real inputs on both ports, and the snapshot of a verified checkpoint is there and of that replay.
Two sides that repeat the inputs they have sent never hold differing checksums. -/
theorem checksums_of_confirmed_states (D : DrivenCore env.core c σ) (s₀ : σ) :
    (∀ {isHost : Bool} {agreed : UInt32} {w : World κ β} {real : ℕ → InputState}
        {as : List TickCall} {p : RollbackPeer κ β}, Live env D w s₀ →
      (tickMachine env).Run (InOrder real) (.begin isHost agreed w) as p →
      (∀ m : Checksum, .checksum m ∈ p.sent → m.frame ≤ p.session.received ∧
        m.crc = crc32 (D.enc (replay D.step s₀ (p.session.fed p.recorded real) m.frame))) ∧
      (p.session.status ≠ .disconnected → p.session.verified ≠ 0 →
        p.session.verified % checksumEvery = 0 →
        p.session.ring.find? p.session.verified = some
          (D.enc (replay D.step s₀ (p.session.fed p.recorded real) p.session.verified)))) ∧
    ∀ {agreed : UInt32} {w : Side → World κ β} {acts : List (Action InputState Bool)}
        {m : Link (RollbackPeer κ β) InputState}, (∀ s, Live env D (w s) s₀) →
      (protocol env).machine.Run (Protocol.onBegin (protocol env).Repeats)
        (startMatch agreed w) acts m →
      ∀ s, ¬(m s).state.session.Mismatch := by
  refine ⟨?_, fun hlive hrun s => (run_inPlay hlive hrun).not_mismatch s⟩
  intro isHost agreed w real as p hlive hrun
  obtain ⟨hp, hsent⟩ := run_reconciled hlive hrun
  refine ⟨fun m hm => (hsent m hm).2, fun hconnected hpos _ => ?_⟩
  exact (hp.resolve_left hconnected).ring_verified hpos

/-- A session that hears its peer every tick sends a true checksum of frame 60; in the match in
which the host repeats its input, neither side holds differing checksums. -/
theorem checksums_of_confirmed_states_steady :
    (∃ p crc, (tickMachine RefCoreRollback.env).exec (InOrder fun _ => .neutral)
        (.begin true 8 RefCoreRollback.loaded)
        (.delivering .neutral [] ::
          (List.range 60).map fun f => .delivering .neutral [.input ⟨f, 1, .neutral⟩]) = some p ∧
      .checksum { frame := 60, crc } ∈ p.sent ∧
      crc = crc32 (RefCoreRollback.bytes (replay (RefCoreRollback.driven 1).step 0
        (p.session.fed p.recorded fun _ => .neutral) 60))) ∧
    ∃ m, (protocol RefCoreRollback.env).machine.exec
        (Protocol.onBegin (protocol RefCoreRollback.env).Repeats) refStart
        (hostRetries .neutral) = some m ∧ ∀ s, ¬(m s).state.session.Mismatch := by
  have hall := @checksums_of_confirmed_states _ _ RefCoreRollback.env _ _
    (RefCoreRollback.driven 1) 0
  have hany : ((tickMachine RefCoreRollback.env).exec (InOrder fun _ => .neutral)
      (.begin true 8 RefCoreRollback.loaded)
      (.delivering .neutral [] ::
        (List.range 60).map fun f => .delivering .neutral [.input ⟨f, 1, .neutral⟩])).any
        (fun p => decide (p.ChecksumSent 60)) = true := by decide +kernel
  have hsome : ((protocol RefCoreRollback.env).machine.exec
      (Protocol.onBegin (protocol RefCoreRollback.env).Repeats) refStart
      (hostRetries .neutral)).isSome := by decide +kernel
  obtain ⟨p, hp, hsent⟩ := (Option.any_eq_true _ _).mp hany
  obtain ⟨crc, hcrc⟩ := of_decide_eq_true hsent
  obtain ⟨m, hm⟩ := Option.isSome_iff_exists.mp hsome
  obtain ⟨htrue, -⟩ := hall.1 RefCoreRollback.loaded_live (Machine.run_iff_exec.mpr hp)
  exact ⟨⟨p, crc, hp, hcrc, (htrue _ hcrc).2⟩, m, hm,
    hall.2 (fun _ => RefCoreRollback.loaded_live) (Machine.run_iff_exec.mpr hm)⟩

end RollbackPeer

end RetroPark.Net
