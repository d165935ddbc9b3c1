import RetroPark.Net.Lockstep
import RetroPark.Net.Lockstep.Ticks

/-!
# How far a lockstep peer can lead

The match of `RetroPark.Net.Lockstep` with any two runtimes, any inputs and any number of ticks that
time out.

* `finish_cases` is one whole tick over a transport that does not fail: what it receives, whether it
  presents, and what it sends;
* `Keeps` and `Hears` are what a side knows of its own messages and of those of the other side: the
  pending maps hold the last input sent and received for every frame from the current one on, and no
  frame the delay does not cover is applied before its input has been received;
* `lead_le` follows for every interleaving.
-/

namespace RetroPark.Net

open Duplex RetroPark.Runtime

/-! ### The latest message of a kind -/

/-- What the last message that `g` selects carries. -/
def latest {α : Type*} (g : Message → Option α) (ms : List Message) : Option α :=
  (ms.filterMap g).getLast?

section Latest

variable {α : Type*} {g : Message → Option α} {ms : List Message}

theorem latest_concat (ms : List Message) (m : Message) :
    latest g (ms ++ [m]) = (g m).or (latest g ms) := by
  rw [latest, List.filterMap_append]
  cases hm : g m with
  | none => simp [latest, hm]
  | some v => simp [hm]

theorem latest_append_of_none {ms' : List Message} (h : ∀ m ∈ ms', g m = none) :
    latest g (ms ++ ms') = latest g ms := by
  rw [latest, List.filterMap_append, List.filterMap_eq_nil_iff.mpr h, List.append_nil]
  rfl

theorem exists_of_latest {v : α} (h : latest g ms = some v) : ∃ m ∈ ms, g m = some v :=
  List.mem_filterMap.mp (List.mem_of_getLast? h)

theorem latest_isSome {m : Message} (hm : m ∈ ms) (h : (g m).isSome) : (latest g ms).isSome := by
  obtain ⟨v, hv⟩ := Option.isSome_iff_exists.mp h
  rw [latest, List.getLast?_isSome]
  exact List.ne_nil_of_mem (List.mem_filterMap.mpr ⟨m, hm, hv⟩)

theorem latest_isSome_append (h : (latest g ms).isSome) (ms' : List Message) :
    (latest g (ms ++ ms')).isSome := by
  obtain ⟨v, hv⟩ := Option.isSome_iff_exists.mp h
  obtain ⟨m, hm, hgm⟩ := exists_of_latest hv
  exact latest_isSome (List.mem_append_left _ hm) (by rw [hgm]; rfl)

end Latest

/-- The input a message carries for frame `k`, if it does. -/
def Message.inputFor (k : ℕ) : Message → Option InputState
  | .input m => if m.frame = k then some m.state else none
  | _ => none

/-- The checksum a message carries for frame `k`, if it does. -/
def Message.checksumFor (k : ℕ) : Message → Option UInt32
  | .checksum m => if m.frame = k then some m.crc else none
  | _ => none

/-- The last input a list of messages carries for frame `k`. -/
abbrev lastInput (k : ℕ) (ms : List Message) : Option InputState := latest (Message.inputFor k) ms

theorem inputFor_isSome {k : ℕ} {m : Message} (h : (m.inputFor k).isSome) :
    ∃ i : Input, i.frame = k ∧ m = .input i := by
  cases m with
  | input i =>
    rw [Message.inputFor] at h
    split_ifs at h with hframe
    · exact ⟨i, hframe, rfl⟩
    · exact absurd h (by decide)
  | checksum _ => exact absurd h (by simp [Message.inputFor])
  | other => exact absurd h (by simp [Message.inputFor])

/-- A frame with a last input has an `Input` message. -/
theorem exists_input_of_lastInput {k : ℕ} {ms : List Message} (h : (lastInput k ms).isSome) :
    ∃ i : Input, i.frame = k ∧ .input i ∈ ms := by
  obtain ⟨v, hv⟩ := Option.isSome_iff_exists.mp h
  obtain ⟨m, hm, hmv⟩ := exists_of_latest hv
  obtain ⟨i, hframe, rfl⟩ := inputFor_isSome (k := k) (m := m) (by rw [hmv]; rfl)
  exact ⟨i, hframe, hm⟩

theorem lastInput_append_checksums (k : ℕ) (ms : List Message) (cs : List Checksum) :
    lastInput k (ms ++ cs.map .checksum) = lastInput k ms := by
  refine latest_append_of_none fun m hm => ?_
  obtain ⟨c, -, rfl⟩ := List.mem_map.mp hm
  rfl

namespace NetSession

/-- The session after it has received some messages. -/
def receiveAll (s : NetSession) (ms : List Message) : NetSession := ms.foldl receive s

theorem receiveAll_concat (s : NetSession) (ms : List Message) (m : Message) :
    s.receiveAll (ms ++ [m]) = (s.receiveAll ms).receive m := by
  simp [receiveAll]

/-- The pending remote input of a frame stays the last one received. -/
theorem receiveAll_remotePending {s : NetSession} {k : ℕ} {l : List Message}
    (h : s.remotePending.find? k = lastInput k l) (ms : List Message) :
    (s.receiveAll ms).remotePending.find? k = lastInput k (l ++ ms) := by
  induction ms using List.reverseRecOn with
  | nil => rwa [List.append_nil]
  | append_singleton ms m ih =>
    rw [receiveAll_concat, ← List.append_assoc, lastInput, latest_concat, ← lastInput, ← ih]
    cases m with
    | input i =>
      show (OrderedMap.insert _ i.frame i.state).find? k = _
      rw [OrderedMap.find?_insert, Message.inputFor]
      by_cases hframe : i.frame = k
      · rw [if_pos hframe.symm, if_pos hframe]
        rfl
      · rw [if_neg (Ne.symm hframe), if_neg hframe]
        rfl
    | checksum _ => rfl
    | other => rfl

/-- The checksum received for a frame stays the last one received. -/
theorem receiveAll_peerCrc {s : NetSession} {k : ℕ} {l : List Message}
    (h : s.peerCrc.find? k = latest (Message.checksumFor k) l) (ms : List Message) :
    (s.receiveAll ms).peerCrc.find? k = latest (Message.checksumFor k) (l ++ ms) := by
  induction ms using List.reverseRecOn with
  | nil => rwa [List.append_nil]
  | append_singleton ms m ih =>
    rw [receiveAll_concat, ← List.append_assoc, latest_concat, ← ih]
    cases m with
    | checksum c =>
      show (OrderedMap.insert _ c.frame c.crc).find? k = _
      rw [OrderedMap.find?_insert, Message.checksumFor]
      by_cases hframe : c.frame = k
      · rw [if_pos hframe.symm, if_pos hframe]
        rfl
      · rw [if_neg (Ne.symm hframe), if_neg hframe]
        rfl
    | input _ => rfl
    | other => rfl

/-- The receive loop takes the first messages at hand, one after another as long as the remote input
is not there, and ends when it is there or none are left. -/
theorem awaitRemote_eq (recvFailed : Bool) (ms : List Message) (s : NetSession) :
    ∃ n ≤ ms.length, ∃ v, s.awaitRemote recvFailed ms = (v, s.receiveAll (ms.take n), n) ∧
      (∀ j < n, (s.receiveAll (ms.take j)).hasRemote = false) ∧
      (v = none ∧ (s.receiveAll (ms.take n)).hasRemote = true ∨
        v = some (if recvFailed then .disconnected else .waiting) ∧ n = ms.length ∧
          (s.receiveAll (ms.take n)).hasRemote = false) := by
  -- Induction on the messages at hand.
  induction ms generalizing s with
  | nil =>
    rw [awaitRemote]
    by_cases hhas : s.hasRemote = true
    · exact ⟨0, le_rfl, _, if_pos hhas, by simp, Or.inl ⟨rfl, hhas⟩⟩
    · exact ⟨0, le_rfl, _, if_neg hhas, by simp, Or.inr ⟨rfl, rfl, Bool.eq_false_iff.mpr hhas⟩⟩
  | cons m ms ih =>
    rw [awaitRemote]
    by_cases hhas : s.hasRemote = true
    · exact ⟨0, Nat.zero_le _, _, if_pos hhas, by simp, Or.inl ⟨rfl, hhas⟩⟩
    · obtain ⟨n, hn, v, heq, hmissing, hv⟩ := ih (s.receive m)
      refine ⟨n + 1, Nat.succ_le_succ hn, v, ?_, ?_, ?_⟩
      · rw [if_neg hhas, heq]
        rfl
      · rintro (_ | j) hj
        · exact Bool.eq_false_iff.mpr hhas
        · exact hmissing j (Nat.lt_of_succ_lt_succ hj)
      · refine hv.imp id ?_
        rintro ⟨h₁, h₂, h₃⟩
        exact ⟨h₁, congrArg (· + 1) h₂, h₃⟩

end NetSession

namespace NetPeer

variable {κ β : Type} {env : Env κ β}

/-! ### One tick over a transport that does not fail -/

/-- The end of a tick that has presented its frame: a desync, or on to the next frame. -/
def settle (q : NetPeer κ β) : NetPeer κ β :=
  if q.session.hasMismatch then { q with session.status := .desync }
  else
    { q with session := { q.session.prune with frame := q.session.frame + 1, status := .ok } }

/-- Settling a frame prunes the maps below the frames still to come, the checksums 120 frames
later. -/
structure Settled (q q' : NetPeer κ β) : Prop where
  sent : q'.sent = q.sent
  applied : q'.applied = q.applied
  delay : q'.session.delay = q.session.delay
  frame : q'.session.frame = q.session.frame ∧ q'.session.status = .desync ∨
    q'.session.frame = q.session.frame + 1 ∧ q'.session.status = .ok ∧ q.session.hasMismatch = false
  localPending : ∀ k, q.session.frame ≤ k →
    q'.session.localPending.find? k = q.session.localPending.find? k
  remotePending : ∀ k, q.session.frame ≤ k →
    q'.session.remotePending.find? k = q.session.remotePending.find? k
  ownCrc : ∀ f, q'.session.frame ≤ f + 121 →
    q'.session.ownCrc.find? f = q.session.ownCrc.find? f
  peerCrc : ∀ f, q'.session.frame ≤ f + 121 →
    q'.session.peerCrc.find? f = q.session.peerCrc.find? f

/-- What a tick leaves is settled. -/
theorem settle_settled (q : NetPeer κ β) : Settled q (settle q) := by
  unfold settle
  split_ifs with hmismatch
  · exact ⟨rfl, rfl, rfl, Or.inl ⟨rfl, rfl⟩, fun _ _ => rfl, fun _ _ => rfl, fun _ _ => rfl,
      fun _ _ => rfl⟩
  · have hcrc : ∀ f, q.session.frame + 1 ≤ f + 121 →
        q.session.frame - 2 * NetSession.checksumEvery ≤ f := by
      intro f hf
      rw [NetSession.checksumEvery]
      omega
    refine ⟨rfl, rfl, rfl, Or.inr ⟨rfl, rfl, by simpa using hmismatch⟩, fun k hk => ?_,
      fun k hk => ?_, fun f hf => ?_, fun f hf => ?_⟩
    · exact OrderedMap.find?_eraseBelow_of_le _ (by omega)
    · exact OrderedMap.find?_eraseBelow_of_le _ (by omega)
    · exact OrderedMap.find?_eraseBelow_of_le _ (hcrc f hf)
    · exact OrderedMap.find?_eraseBelow_of_le _ (hcrc f hf)

theorem Settled.frame_cases {q q' : NetPeer κ β} (h : Settled q q') :
    q'.session.status ≠ .disconnected ∧ q.session.frame ≤ q'.session.frame ∧
      q'.session.frame ≤ q.session.frame + 1 := by
  rcases h.frame with ⟨hf, hs⟩ | ⟨hf, hs, -⟩ <;> exact ⟨by rw [hs]; decide, by omega, by omega⟩

/-- A connected side once its tick has sent its input and received some messages. -/
def afterReceive (p : NetPeer κ β) (localNow : InputState) (ms : List Message) : NetPeer κ β :=
  { p with
    session := { p.session with
      localPending := p.session.localPending.insert p.session.applyFrame localNow
      remotePending := (p.session.receiveAll ms).remotePending
      peerCrc := (p.session.receiveAll ms).peerCrc }
    sent := p.sent ++ [p.inputMessage localNow] }

theorem tickSend_receiveAll {p : NetPeer κ β} (hconnected : p.session.status ≠ .disconnected)
    (localNow : InputState) (ms : List Message) :
    { tickSend localNow true p with
      session := (tickSend localNow true p).session.receiveAll ms } =
        afterReceive p localNow ms := by
  rw [tickSend, if_neg hconnected]
  dsimp only [if_true]
  induction ms using List.reverseRecOn with
  | nil => rfl
  | append_singleton ms m ih =>
    have ih := congrArg session ih
    rw [afterReceive, NetSession.receiveAll_concat, NetSession.receiveAll_concat]
    dsimp only [afterReceive] at ih ⊢
    rw [ih]
    cases m <;> rfl

variable (env) in
/-- A whole tick of a connected side. It takes the first `n` of the messages at hand, one after
another as long as the remote input it needs is not there; then it either times out, or presents the
frame and settles it. -/
theorem finish_cases {p : NetPeer κ β} (hconnected : p.session.status ≠ .disconnected)
    (localNow : InputState) (ms : List Message) :
    ∃ n ≤ ms.length, let t := fun j => afterReceive p localNow (ms.take j)
      (∀ j < n, (t j).session.hasRemote = false) ∧
        ((protocol env).finish p localNow () ms = ({ t n with session.status := .waiting }, n) ∧
            n = ms.length ∧ (t n).session.hasRemote = false ∨
          (t n).session.hasRemote = true ∧ ∃ q, Shown true (t n) q true ∧
            (protocol env).finish p localNow () ms = (settle q, n)) := by
  obtain ⟨n, hn, v, hawait, hmissing, hv⟩ :=
    (tickSend localNow true p).session.awaitRemote_eq false ms
  have hsession : ∀ j, (tickSend localNow true p).session.receiveAll (ms.take j) =
      (afterReceive p localNow (ms.take j)).session :=
    fun j => congrArg session (tickSend_receiveAll hconnected localNow (ms.take j))
  refine ⟨n, hn, fun j hj => by rw [← hsession]; exact hmissing j hj, ?_⟩
  rw [finish_eq env hconnected]
  dsimp only
  rw [hawait, ← tickSend_receiveAll hconnected localNow (ms.take n)]
  rcases hv with ⟨rfl, hremote⟩ | ⟨rfl, hlen, hremote⟩
  · obtain ⟨q, goesOn, hshown, hadvance⟩ := advance_shown env true
      { tickSend localNow true p with
        session := (tickSend localNow true p).session.receiveAll (ms.take n) }
    -- The checksum message goes out.
    obtain rfl : goesOn = true := by
      obtain ⟨own, cs, -, -, hrecords⟩ := hshown.records
      cases hrecords with
      | skipped => rfl
      | sent _ _ _ => rfl
      | lost _ _ out => exact absurd out (by decide)
    refine Or.inr ⟨hremote, q, hshown, ?_⟩
    dsimp only
    rw [hadvance, if_neg (by decide), settle]
    split_ifs <;> rfl
  · exact Or.inl ⟨rfl, hlen, hremote⟩

/-! ### What a side knows -/

section Lead

variable {D : ℕ} {x y : Party (NetPeer κ β) InputState} {m : Link (NetPeer κ β) InputState}

/-- The messages a side has received. -/
def received (env : Env κ β) (x y : Party (NetPeer κ β) InputState) : List Message :=
  ((protocol env).outbox y).take x.taken

/-- A side and its own messages: its inputs are for at most `D` frames ahead, and the last one sent
for a frame is pending until the frame is over. -/
structure Keeps (env : Env κ β) (D : ℕ) (x : Party (NetPeer κ β) InputState) : Prop where
  connected : x.state.session.status ≠ .disconnected
  delay : x.state.session.delay.toNat = D
  sent_le : ∀ i : Input, .input i ∈ (protocol env).outbox x → i.frame ≤ x.state.session.frame + D
  localPending : ∀ k, x.state.session.frame ≤ k →
    x.state.session.localPending.find? k = lastInput k x.state.sent

/-- A side and the messages of the other side: the last input received for a frame is pending until
the frame is over, and a frame that the delay does not cover is applied only once its input has been
received. -/
structure Hears (env : Env κ β) (D : ℕ) (x y : Party (NetPeer κ β) InputState) : Prop where
  taken_le : x.taken ≤ ((protocol env).outbox y).length
  remotePending : ∀ k, x.state.session.frame ≤ k →
    x.state.session.remotePending.find? k = lastInput k (received env x y)
  heard : ∀ k, D ≤ k → k < x.state.session.frame → (lastInput k (received env x y)).isSome
  applied : ∀ r ∈ x.state.applied, D ≤ r.frame → (lastInput r.frame (received env x y)).isSome

/-- What a side has received does not change when the other side sends more. -/
theorem received_append {y' : Party (NetPeer κ β) InputState} {ms : List Message}
    (hle : x.taken ≤ ((protocol env).outbox y).length)
    (hout : (protocol env).outbox y' = (protocol env).outbox y ++ ms) :
    received env x y' = received env x y := by
  rw [received, hout, List.take_append_of_le_length hle]
  rfl

/-- The receive loop ends once it has the last input sent for the frame, or at once if the delay
covers the frame. -/
theorem Hears.hasRemote_iff (h : Hears env D x y) (hdelay : x.state.session.delay.toNat = D)
    (localNow : InputState) (j : ℕ) :
    (x.state.afterReceive localNow
        (((protocol env).inFlight x y).take j)).session.hasRemote = true ↔
      x.state.session.frame < D ∨ (lastInput x.state.session.frame
        (received env x y ++ ((protocol env).inFlight x y).take j)).isSome := by
  rw [← NetSession.receiveAll_remotePending (h.remotePending _ le_rfl), ← hdelay,
    NetSession.hasRemote, Bool.or_eq_true, decide_eq_true_iff]
  exact Iff.rfl

theorem Hears.append {y' : Party (NetPeer κ β) InputState} (h : Hears env D x y)
    (ms : List Message) (hout : (protocol env).outbox y' = (protocol env).outbox y ++ ms) :
    Hears env D x y' := by
  have hsame := received_append h.taken_le hout
  refine ⟨?_, ?_, ?_, ?_⟩
  · rw [hout, List.length_append]
    exact h.taken_le.trans (Nat.le_add_right _ _)
  · rw [hsame]
    exact h.remotePending
  · rw [hsame]
    exact h.heard
  · rw [hsame]
    exact h.applied

/-- The lead of a side is bounded by the inputs the other side has sent. -/
theorem Hears.frame_le (h : Hears env D x y) (hy : Keeps env D y) :
    x.state.session.frame ≤ y.state.session.frame + D + 1 := by
  by_contra hlt
  obtain ⟨i, hframe, hmem⟩ := exists_input_of_lastInput
    (h.heard (x.state.session.frame - 1) (by omega) (by omega))
  have := hy.sent_le i (List.mem_of_mem_take hmem)
  omega

/-- A match that starts keeps its inputs. -/
theorem keeps_start {delay : UInt32} {w : Side → World κ β} (s : Side) :
    Keeps env delay.toNat (startMatch delay w s) where
  connected := fun h => nomatch h
  delay := rfl
  sent_le i hi := by simp [startMatch, Protocol.outbox, protocol] at hi
  localPending _ _ := rfl

/-- A match that starts has heard nothing. -/
theorem hears_start {delay : UInt32} {w : Side → World κ β} (s : Side) :
    Hears env delay.toNat (startMatch delay w s) (startMatch delay w s.other) where
  taken_le := Nat.zero_le _
  remotePending _ _ := rfl
  heard k _ hk := absurd hk (Nat.not_lt_zero k)
  applied r hr := by simp [startMatch] at hr

/-- A tick that begins announces an input for `D` frames ahead. -/
theorem Keeps.begin (h : Keeps env D x) (hidle : x.calling = none) (localNow : InputState) :
    Keeps env D { x with calling := some localNow } := by
  refine ⟨h.connected, h.delay, fun i hi => ?_, h.localPending⟩
  rcases List.mem_append.mp hi with hold | hnew
  · exact h.sent_le i (by rw [Protocol.outbox_idle hidle]; exact hold)
  · obtain rfl := Message.input.inj (List.mem_singleton.mp hnew)
    show x.state.session.applyFrame ≤ _
    rw [NetSession.applyFrame, h.delay]

variable (env) in
theorem afterReceive_sent {localNow : InputState} (hcalling : x.calling = some localNow)
    (ms : List Message) : (afterReceive x.state localNow ms).sent = (protocol env).outbox x := by
  rw [Protocol.outbox, hcalling]
  rfl

/-- The input a tick sends is on record, whatever the tick does after it. -/
theorem Keeps.afterReceive (h : Keeps env D x) (localNow : InputState) (ms : List Message) {k : ℕ}
    (hk : x.state.session.frame ≤ k) :
    (x.state.afterReceive localNow ms).session.localPending.find? k =
      lastInput k (x.state.afterReceive localNow ms).sent := by
  show (OrderedMap.insert _ _ _).find? k = lastInput k (_ ++ [_])
  rw [lastInput, latest_concat, ← lastInput, ← h.localPending k hk, OrderedMap.find?_insert,
    inputMessage, Message.inputFor]
  by_cases hframe : x.state.session.applyFrame = k
  · rw [if_pos hframe.symm, if_pos hframe]
    rfl
  · rw [if_neg (Ne.symm hframe), if_neg hframe]
    rfl

/-- A tick that ends has sent checksums at most, and keeps the inputs of the frames to come. -/
theorem Keeps.finish {localNow : InputState} (h : Keeps env D x)
    (hcalling : x.calling = some localNow) (ms : List Message) (taken : ℕ) :
    let q := ((protocol env).finish x.state localNow () ms).1
    Keeps env D { state := q, taken } ∧
      ∃ cs : List Checksum, q.sent = (protocol env).outbox x ++ cs.map .checksum ∧
        ∀ c ∈ cs, c.frame = x.state.session.frame := by
  obtain ⟨n, -, -, hcases⟩ := finish_cases env h.connected localNow ms
  have hout := afterReceive_sent env hcalling (ms.take n)
  dsimp only at hcases ⊢
  rcases hcases with ⟨hq, -⟩ | ⟨-, q, hshown, hq⟩
  · rw [hq]
    refine ⟨⟨fun h => (nomatch h), h.delay, fun i hi => ?_, fun k hk => ?_⟩, [], ?_, by simp⟩
    · exact h.sent_le i (hout ▸ hi)
    · exact h.afterReceive localNow (ms.take n) hk
    · rw [List.map_nil, List.append_nil, ← hout]
  · obtain ⟨own, cs, hsession, hcs, hrecords⟩ := hshown.records
    have hsettled := settle_settled q
    have hqframe : q.session.frame = x.state.session.frame := by rw [hsession]; rfl
    obtain ⟨hconnected, hge, -⟩ := hsettled.frame_cases
    rw [hqframe] at hge
    rw [hq]
    refine ⟨⟨?_, ?_, fun i hi => ?_, fun k hk => ?_⟩, cs, ?_, hrecords.frame_eq⟩
    · exact hconnected
    · rw [hsettled.delay, hsession]
      exact h.delay
    · have hi : Message.input i ∈ q.sent := hsettled.sent ▸ hi
      rw [hcs] at hi
      rcases List.mem_append.mp hi with hold | hnew
      · exact (h.sent_le i (hout ▸ hold)).trans (Nat.add_le_add_right hge _)
      · obtain ⟨_, -, hne⟩ := List.mem_map.mp hnew
        exact absurd hne (by simp)
    · -- Pruning keeps the inputs from three frames back on.
      rw [hsettled.localPending k (hqframe.trans_le (hge.trans hk)), hsettled.sent, hcs,
        lastInput_append_checksums, hsession]
      exact h.afterReceive _ _ (hge.trans hk)
    · rw [hsettled.sent, hcs, hout]

/-- A side whose tick ends has received the first `k` of the messages on their way, one after
another as long as the remote input it needs was not there. -/
theorem ended_cases (localNow : InputState) (hconnected : x.state.session.status ≠ .disconnected)
    (hle : x.taken ≤ ((protocol env).outbox y).length) {n : ℕ}
    (hn : n ≤ ((protocol env).inFlight x y).length) :
    ∃ k ≤ n, x.taken + k ≤ ((protocol env).outbox y).length ∧
      let t := fun j => x.state.afterReceive localNow (((protocol env).inFlight x y).take j)
      (∀ j < k, (t j).session.hasRemote = false) ∧
        ((protocol env).ended x y localNow n () =
            { state := { t k with session.status := .waiting }, taken := x.taken + k } ∧
            k = n ∧ (t k).session.hasRemote = false ∨
          (t k).session.hasRemote = true ∧ ∃ q, Shown true (t k) q true ∧
            (protocol env).ended x y localNow n () =
              { state := settle q, taken := x.taken + k }) := by
  obtain ⟨k, hk, hmissing, hcases⟩ :=
    finish_cases env hconnected localNow (((protocol env).inFlight x y).take n)
  rw [List.length_take, min_eq_left hn] at hk hcases
  -- What the tick takes is the front of what is in flight.
  have htake : ∀ j ≤ k, (((protocol env).inFlight x y).take n).take j =
      ((protocol env).inFlight x y).take j := by
    intro j hj
    rw [List.take_take, min_eq_left (hj.trans hk)]
  refine ⟨k, hk, ?_, fun j hj => ?_, ?_⟩
  · rw [Protocol.inFlight, List.length_drop] at hn
    omega
  · have := hmissing j hj
    dsimp only at this
    rwa [htake j hj.le] at this
  · dsimp only at hcases ⊢
    rw [htake k le_rfl] at hcases
    rw [Protocol.ended]
    rcases hcases with ⟨hq, hlen, hnone⟩ | ⟨hhas, q, hshown, hq⟩
    · exact Or.inl ⟨by rw [hq], hlen, hnone⟩
    · exact Or.inr ⟨hhas, q, hshown, by rw [hq]⟩

theorem received_ended (q : NetPeer κ β) (k : ℕ) :
    received env { state := q, taken := x.taken + k } y =
      received env x y ++ ((protocol env).inFlight x y).take k := by
  rw [received, List.take_add]
  rfl

/-- A tick that ends knows the inputs it has received, and applies a frame only with its input. -/
theorem Hears.finish (h : Hears env D x y) (localNow : InputState)
    (hconnected : x.state.session.status ≠ .disconnected)
    (hdelay : x.state.session.delay.toNat = D) {n : ℕ}
    (hn : n ≤ ((protocol env).inFlight x y).length) :
    Hears env D ((protocol env).ended x y localNow n ()) y := by
  obtain ⟨k, -, htaken, -, hcases⟩ := ended_cases localNow hconnected h.taken_le hn
  have hremote : ∀ j, x.state.session.frame ≤ j →
      (x.state.afterReceive localNow
        (((protocol env).inFlight x y).take k)).session.remotePending.find?
        j = lastInput j (received env x y ++ ((protocol env).inFlight x y).take k) :=
    fun j hj => NetSession.receiveAll_remotePending (h.remotePending j hj) _
  dsimp only at hcases
  rcases hcases with ⟨hq, -⟩ | ⟨hhas, q, hshown, hq⟩
  · rw [hq]
    refine ⟨htaken, ?_, ?_, ?_⟩ <;> rw [received_ended]
    · exact hremote
    · exact fun j hj hlt => latest_isSome_append (h.heard j hj hlt) _
    · exact fun r hr hD => latest_isSome_append (h.applied r hr hD) _
  · obtain ⟨own, cs, hsession, -, -⟩ := hshown.records
    obtain ⟨r₀, happlied, hr₀⟩ := hshown.applied
    have hsettled := settle_settled q
    have hqframe : q.session.frame = x.state.session.frame := by rw [hsession]; rfl
    obtain ⟨-, hge, hle⟩ := hsettled.frame_cases
    -- The frame presented has its input, unless the delay covers it.
    have hcurrent : D ≤ x.state.session.frame → (lastInput x.state.session.frame
        (received env x y ++ ((protocol env).inFlight x y).take k)).isSome :=
      fun hD => ((h.hasRemote_iff hdelay localNow k).mp hhas).resolve_left (not_lt.mpr hD)
    rw [hq]
    refine ⟨htaken, ?_, ?_, ?_⟩ <;> rw [received_ended]
    · intro j hj
      change (settle q).session.frame ≤ j at hj
      rw [hsettled.remotePending j (hge.trans hj), hsession]
      exact hremote j (hqframe.symm.trans_le (hge.trans hj))
    · intro j hD hlt
      change j < (settle q).session.frame at hlt
      rcases Nat.lt_or_ge j x.state.session.frame with hold | hnew
      · exact latest_isSome_append (h.heard j hD hold) _
      · obtain rfl : j = x.state.session.frame := by omega
        exact hcurrent hD
    · intro r hr hD
      have hr : r ∈ q.applied := hsettled.applied ▸ hr
      rw [happlied] at hr
      rcases List.mem_cons.mp hr with rfl | hold
      · rw [hr₀] at hD ⊢
        exact hcurrent hD
      · exact latest_isSome_append (h.applied r hold hD) _

/-- The invariant of a match with delay `D`. -/
theorem lead_inductive : (protocol env).Inductive (fun _ _ _ => True) (fun _ => Keeps env D)
    (fun _ => Hears env D) where
  begin := by
    intro s x y localNow hkeeps hhears hother hidle _ _
    refine ⟨hkeeps.begin hidle localNow, ⟨hhears.taken_le, hhears.remotePending, hhears.heard,
      hhears.applied⟩, hother.append [x.state.inputMessage localNow] ?_⟩
    rw [Protocol.outbox_idle hidle]
    rfl
  finish := by
    intro s x y localNow n _ hkeeps hhears hother hcalling hn
    obtain ⟨hkeeps', cs, hcs, -⟩ := hkeeps.finish hcalling (((protocol env).inFlight x y).take n)
      (x.taken + ((protocol env).finish x.state localNow ()
        (((protocol env).inFlight x y).take n)).2)
    exact ⟨hkeeps', hhears.finish localNow hkeeps.connected hkeeps.delay hn,
      hother.append (cs.map .checksum) hcs⟩

/-- In every match, whatever the runtimes, the inputs and the ticks that time out: neither side is
ever more than `D + 1` frames ahead, no frame from `D` on is applied before the `Input` message of
the other side for it has been received, and the pending maps hold the last input sent and received
for every frame from the current one on. -/
theorem lead_le {delay : UInt32} {w : Side → World κ β} {acts : List (Action InputState Unit)}
    (hrun : (protocol env).machine.Run Machine.always (startMatch delay w) acts m) (s : Side) :
    (m s).state.session.frame ≤ (m s.other).state.session.frame + delay.toNat + 1 ∧
      (∀ r ∈ (m s).state.applied, delay.toNat ≤ r.frame →
        ∃ i : Input, i.frame = r.frame ∧ .input i ∈ received env (m s) (m s.other)) ∧
      ∀ k, (m s).state.session.frame ≤ k →
        (m s).state.session.localPending.find? k = lastInput k (m s).state.sent ∧
          (m s).state.session.remotePending.find? k =
            lastInput k (received env (m s) (m s.other)) := by
  have hrun : (protocol env).machine.Run (Protocol.onBegin fun _ _ _ => True)
      (startMatch delay w) acts m := hrun.weaken fun _ act _ => by cases act <;> trivial
  have h := lead_inductive.run (fun s => ⟨keeps_start s, hears_start s⟩) hrun
  obtain ⟨hkeeps, hhears⟩ := h s
  exact ⟨hhears.frame_le (h s.other).1,
    fun r hr hD => exists_input_of_lastInput (hhears.applied r hr hD),
    fun k hk => ⟨hkeeps.localPending k hk, hhears.remotePending k hk⟩⟩

/-- The bounds hold when the host ticks again with another input after a timeout. -/
theorem lead_le_hostRetries :
    ∃ m, (protocol RefCoreRollback.env).machine.exec Machine.always refStart
        (hostRetries RefCoreRollback.pressX) = some m ∧
      ∀ s, (m s).state.session.frame ≤ (m s.other).state.session.frame + 1 + 1 := by
  have hsome : ((protocol RefCoreRollback.env).machine.exec Machine.always refStart
      (hostRetries RefCoreRollback.pressX)).isSome := by decide +kernel
  obtain ⟨m, hm⟩ := Option.isSome_iff_exists.mp hsome
  exact ⟨m, hm, fun s => (lead_le (Machine.run_iff_exec.mpr hm) s).1⟩

end Lead

end NetPeer

end RetroPark.Net
