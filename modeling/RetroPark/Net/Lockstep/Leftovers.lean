import RetroPark.Net.Lockstep.Ticks

/-!
# What an earlier lockstep session leaves behind

`start_host` and `start_join` reset the counters of a `NetSession` and leave its maps as they are.

* `Harmless` is what the maps may still hold at a start;
* `Alike` relates a session that was started again to the maps of one that has only been started
  once, and `tick_alike` is the step of that simulation;
* `ticks_alike` is a whole run: the two give the same statuses, take and send the same messages, and
  apply the same inputs.
-/

namespace RetroPark.Net

/-- The maps of a session. -/
structure NetMaps where
  localPending : OrderedMap ℕ InputState := .empty
  remotePending : OrderedMap ℕ InputState := .empty
  ownCrc : OrderedMap ℕ UInt32 := .empty
  peerCrc : OrderedMap ℕ UInt32 := .empty

/-- The maps after the pruning at the end of a tick of the given frame. -/
def NetMaps.prune (frame : ℕ) (m : NetMaps) : NetMaps where
  localPending := m.localPending.eraseBelow (frame - 3)
  remotePending := m.remotePending.eraseBelow (frame - 3)
  ownCrc := m.ownCrc.eraseBelow (frame - 2 * NetSession.checksumEvery)
  peerCrc := m.peerCrc.eraseBelow (frame - 2 * NetSession.checksumEvery)

namespace NetSession

/-- The session with other maps. -/
def withMaps (s : NetSession) (m : NetMaps) : NetSession :=
  { s with
    localPending := m.localPending
    remotePending := m.remotePending
    ownCrc := m.ownCrc
    peerCrc := m.peerCrc }

/-- Nothing in the maps can matter to a session that starts with the given delay: no input of a
frame it applies, no received checksum of a frame it digests, and no own checksum that is still
there when the first message is received. -/
structure Harmless (delay : ℕ) (s : NetSession) : Prop where
  locals : ∀ k i, s.localPending.find? k = some i → k < delay → i = .neutral
  remotes : ∀ k i, s.remotePending.find? k = some i → k < delay ∧ i = .neutral
  own : ∀ k crc, s.ownCrc.find? k = some crc → k + 2 * checksumEvery + 1 < delay
  peer : ∀ k crc, s.peerCrc.find? k = some crc → k % checksumEvery ≠ 0
  agree : ∀ k own peer, s.ownCrc.find? k = some own → s.peerCrc.find? k = some peer → peer = own

/-- An own checksum of the earlier session, before the session at hand has received anything. -/
structure Leftover (s : NetSession) (m : NetMaps) (k : ℕ) : Prop where
  frame_lt : s.frame < s.delay.toNat
  key_lt : k + 2 * checksumEvery + 1 < s.delay.toNat
  absent : m.ownCrc.find? k = none
  agree : ∀ own peer, s.ownCrc.find? k = some own → s.peerCrc.find? k = some peer → peer = own

/-- A session reads its own maps as it would read the maps `m`. The local inputs are those below
`bound`. -/
structure Alike (bound : ℕ) (s : NetSession) (m : NetMaps) : Prop where
  locals : OrderedMap.AgreeOn (·.getD .neutral) (fun k => s.frame ≤ k ∧ k < bound)
    s.localPending m.localPending
  remotes : OrderedMap.AgreeOn (·.getD .neutral) (s.frame ≤ ·) s.remotePending m.remotePending
  owed : OrderedMap.AgreeOn id (fun k => s.frame ≤ k ∧ s.delay.toNat ≤ k)
    s.remotePending m.remotePending
  own : ∀ k, s.ownCrc.find? k = m.ownCrc.find? k ∨ Leftover s m k
  digested : ∀ k crc, m.ownCrc.find? k = some crc → k % checksumEvery = 0
  peer : OrderedMap.AgreeOn id (· % checksumEvery = 0) s.peerCrc m.peerCrc

variable {bound : ℕ} {s : NetSession} {m : NetMaps}

/-- A session that has just been started is like one with empty maps. -/
theorem Harmless.alike (h : Harmless s.delay.toNat s) (hframe : s.frame = 0) :
    Alike s.applyFrame s {} := by
  -- A leftover input is of a frame below the delay and neutral, as if there were none.
  have hbound : s.applyFrame = s.delay.toNat := by rw [applyFrame, hframe, Nat.zero_add]
  refine ⟨fun k hk => ?_, fun k _ => ?_, fun k hk => ?_, fun k => ?_, fun k crc hk => ?_,
    fun k hk => ?_⟩
  · cases hfind : s.localPending.find? k with
    | none => rfl
    | some i => exact h.locals k i hfind (hbound ▸ hk.2)
  · cases hfind : s.remotePending.find? k with
    | none => rfl
    | some i => exact (h.remotes k i hfind).2
  · cases hfind : s.remotePending.find? k with
    | none => rfl
    | some i => exact absurd (h.remotes k i hfind).1 (Nat.not_lt.mpr hk.2)
  · cases hfind : s.ownCrc.find? k with
    | none => exact Or.inl rfl
    | some crc =>
      have hlt := h.own k crc hfind
      exact Or.inr ⟨by omega, hlt, rfl, h.agree k⟩
  · exact nomatch hk
  · cases hfind : s.peerCrc.find? k with
    | none => rfl
    | some crc => exact absurd hk (h.peer k crc hfind)

theorem Alike.mono {bound' : ℕ} (h : Alike bound s m) (hle : bound' ≤ bound) : Alike bound' s m :=
  { h with locals := h.locals.mono fun _ hk => ⟨hk.1, hk.2.trans_le hle⟩ }

theorem Alike.status (h : Alike bound s m) (status : NetStatus) :
    Alike bound { s with status } m :=
  { h with own := fun k => (h.own k).imp_right fun hl => { hl with } }

/-! ### Receiving -/

theorem Alike.hasRemote (h : Alike bound s m) : (s.withMaps m).hasRemote = s.hasRemote := by
  by_cases hlt : s.frame < s.delay.toNat
  · have hdecide : decide (s.frame < s.delay.toNat) = true := decide_eq_true hlt
    unfold NetSession.hasRemote
    show (decide (s.frame < s.delay.toNat) || _) = (decide (s.frame < s.delay.toNat) || _)
    rw [hdecide, Bool.true_or, Bool.true_or]
  · have howed := h.owed s.frame ⟨le_rfl, Nat.not_lt.mp hlt⟩
    unfold NetSession.hasRemote OrderedMap.contains
    show (decide (s.frame < s.delay.toNat) || (m.remotePending.find? s.frame).isSome) = _
    rw [show s.remotePending.find? s.frame = m.remotePending.find? s.frame from howed]

/-- A message is received only once a remote input is owed, when no leftover checksum is there. -/
theorem Alike.receive (h : Alike bound s m) (howed : s.delay.toNat ≤ s.frame) (msg : Message) :
    ∃ m', (s.withMaps m).receive msg = (s.receive msg).withMaps m' ∧
      Alike bound (s.receive msg) m' := by
  have hown : ∀ k, s.ownCrc.find? k = m.ownCrc.find? k := fun k =>
    (h.own k).resolve_right fun hl => absurd hl.frame_lt (Nat.not_lt.mpr howed)
  cases msg with
  | input i =>
    exact ⟨{ m with remotePending := m.remotePending.insert i.frame i.state }, rfl,
      { locals := h.locals
        remotes := h.remotes.insert i.frame i.state
        owed := h.owed.insert i.frame i.state
        own := fun k => Or.inl (hown k)
        digested := h.digested
        peer := h.peer }⟩
  | checksum c =>
    exact ⟨{ m with peerCrc := m.peerCrc.insert c.frame c.crc }, rfl,
      { locals := h.locals
        remotes := h.remotes
        owed := h.owed
        own := fun k => Or.inl (hown k)
        digested := h.digested
        peer := h.peer.insert c.frame c.crc }⟩
  | other => exact ⟨m, rfl, h⟩

theorem Alike.awaitRemote (h : Alike bound s m) (recvFailed : Bool) (ms : List Message) :
    ∃ m', NetSession.awaitRemote recvFailed ms (s.withMaps m) =
        ((NetSession.awaitRemote recvFailed ms s).1,
          (NetSession.awaitRemote recvFailed ms s).2.1.withMaps m',
          (NetSession.awaitRemote recvFailed ms s).2.2) ∧
      Alike bound (NetSession.awaitRemote recvFailed ms s).2.1 m' := by
  -- Induction on the messages: both sessions take the same ones, up to the same input.
  induction ms generalizing s m with
  | nil =>
    refine ⟨m, ?_, ?_⟩
    · rw [NetSession.awaitRemote, NetSession.awaitRemote, h.hasRemote]
      split_ifs <;> rfl
    · rw [NetSession.awaitRemote]
      split_ifs <;> exact h
  | cons msg ms ih =>
    cases hremote : s.hasRemote with
    | true =>
      refine ⟨m, ?_, ?_⟩
      · rw [NetSession.awaitRemote, NetSession.awaitRemote, h.hasRemote, if_pos hremote,
          if_pos hremote]
      · rw [NetSession.awaitRemote, if_pos hremote]
        exact h
    | false =>
      have howed : s.delay.toNat ≤ s.frame := by
        rw [NetSession.hasRemote, Bool.or_eq_false_iff] at hremote
        exact Nat.not_lt.mp (of_decide_eq_false hremote.1)
      have hnone : ¬s.hasRemote = true := Bool.not_eq_true _ ▸ hremote
      obtain ⟨m₁, heq, h₁⟩ := h.receive howed msg
      obtain ⟨m₂, heq₂, h₂⟩ := ih h₁
      refine ⟨m₂, ?_, ?_⟩
      · rw [NetSession.awaitRemote, NetSession.awaitRemote, h.hasRemote, if_neg hnone,
          if_neg hnone, heq, heq₂]
      · rw [NetSession.awaitRemote, if_neg hnone]
        exact h₂

/-! ### Checksums and pruning -/

/-- The leftovers take part in no mismatch. -/
theorem Alike.hasMismatch (h : Alike bound s m) : (s.withMaps m).hasMismatch = s.hasMismatch := by
  refine Bool.eq_iff_iff.mpr ((hasMismatch_iff _).trans (Iff.trans ?_ s.hasMismatch_iff.symm))
  constructor
  · rintro ⟨k, own, peer, hown, hpeer, hne⟩
    -- The other session has the checksum itself: what is left over is absent there.
    refine ⟨k, own, peer, ?_, (h.peer k (h.digested k own hown)).trans hpeer, hne⟩
    -- A checksum that is left over agrees with what the other side has sent.
    rcases h.own k with heq | hl
    · exact heq.trans hown
    · exact nomatch hl.absent.symm.trans hown
  · rintro ⟨k, own, peer, hown, hpeer, hne⟩
    rcases h.own k with heq | hl
    · have hown' : m.ownCrc.find? k = some own := heq.symm.trans hown
      exact ⟨k, own, peer, hown', (h.peer k (h.digested k own hown')).symm.trans hpeer, hne⟩
    · exact absurd (hl.agree own peer hown hpeer) hne

/-- The own checksum of the frame at hand replaces whatever was there. -/
theorem Alike.digest (h : Alike bound s m) (hdue : s.frame % checksumEvery = 0) (crc : UInt32) :
    Alike bound { s with ownCrc := s.ownCrc.insert s.frame crc }
      { m with ownCrc := m.ownCrc.insert s.frame crc } where
  locals := h.locals
  remotes := h.remotes
  owed := h.owed
  own k := by
    show (s.ownCrc.insert s.frame crc).find? k = (m.ownCrc.insert s.frame crc).find? k ∨ _
    by_cases hk : k = s.frame
    · subst hk
      exact Or.inl ((OrderedMap.find?_insert_self _ _ _).trans
        (OrderedMap.find?_insert_self _ _ _).symm)
    · rw [OrderedMap.find?_insert_of_ne _ _ hk, OrderedMap.find?_insert_of_ne _ _ hk]
      refine (h.own k).imp_right fun hl => ⟨hl.frame_lt, hl.key_lt, ?_, fun own peer hown => ?_⟩
      · exact (OrderedMap.find?_insert_of_ne _ _ hk).trans hl.absent
      · exact hl.agree own peer ((OrderedMap.find?_insert_of_ne _ _ hk).symm.trans hown)
  digested k crc' hk := by
    change (m.ownCrc.insert s.frame crc).find? k = some crc' at hk
    rw [OrderedMap.find?_insert] at hk
    split_ifs at hk with heq
    · exact heq ▸ hdue
    · exact h.digested k crc' hk
  peer := h.peer

/-- Pruning at the end of the last frame before one is owed erases every leftover. -/
theorem Alike.prune (h : Alike bound s m) :
    Alike bound { s.prune with frame := s.frame + 1, status := .ok } (m.prune s.frame) where
  locals := (h.locals.mono fun _ hk => ⟨Nat.le_of_succ_le hk.1, hk.2⟩).eraseBelow _
  remotes := (h.remotes.mono fun _ hk => Nat.le_of_succ_le hk).eraseBelow _
  owed := (h.owed.mono fun _ hk => ⟨Nat.le_of_succ_le hk.1, hk.2⟩).eraseBelow _
  own k := by
    show (s.ownCrc.eraseBelow (s.frame - 2 * checksumEvery)).find? k =
      (m.ownCrc.eraseBelow (s.frame - 2 * checksumEvery)).find? k ∨ _
    rw [OrderedMap.find?_eraseBelow, OrderedMap.find?_eraseBelow]
    by_cases hk : k < s.frame - 2 * checksumEvery
    · rw [if_pos hk, if_pos hk]
      exact Or.inl rfl
    · rw [if_neg hk, if_neg hk]
      refine (h.own k).imp_right fun hl => ⟨?_, hl.key_lt, ?_, fun own peer hown hpeer => ?_⟩
      · -- A leftover that stays is far enough behind the first frame that is owed.
        have hlt := hl.frame_lt
        have hkey := hl.key_lt
        show s.frame + 1 < s.delay.toNat
        omega
      · show (m.ownCrc.eraseBelow _).find? k = none
        rw [OrderedMap.find?_eraseBelow, if_neg hk]
        exact hl.absent
      · exact hl.agree own peer (OrderedMap.find?_of_find?_eraseBelow hown).2
          (OrderedMap.find?_of_find?_eraseBelow hpeer).2
  digested k crc hk := h.digested k crc (OrderedMap.find?_of_find?_eraseBelow hk).2
  peer := h.peer.eraseBelow _

end NetSession

/-! ### A tick -/

namespace NetPeer

open NetSession

variable {κ β : Type} (env : Env κ β) {bound : ℕ} {p : NetPeer κ β} {m : NetMaps}

/-- The peer with other maps. -/
def withMaps (p : NetPeer κ β) (m : NetMaps) : NetPeer κ β :=
  { p with session := p.session.withMaps m }

/-- Sending the local input makes the maps agree on the frame it is for. -/
theorem tickSend_alike (h : Alike p.session.applyFrame p.session m)
    (hstatus : p.session.status ≠ .disconnected) (localNow : InputState) (inputSent : Bool) :
    ∃ m', tickSend localNow inputSent (p.withMaps m) =
        (tickSend localNow inputSent p).withMaps m' ∧
      Alike (p.session.applyFrame + 1) (tickSend localNow inputSent p).session m' := by
  -- The input just sent replaces whatever was left over for its frame.
  have hsent : Alike (p.session.applyFrame + 1)
      { p.session with
        localPending := p.session.localPending.insert p.session.applyFrame localNow }
      { m with localPending := m.localPending.insert p.session.applyFrame localNow } :=
    { h with
      locals := h.locals.insert_of (fun k hk => by
        rcases Nat.lt_or_eq_of_le (Nat.le_of_lt_succ hk.2) with hlt | heq
        · exact Or.inl ⟨hk.1, hlt⟩
        · exact Or.inr heq) localNow
      own := fun k => (h.own k).imp_right fun hl => { hl with } }
  refine ⟨{ m with localPending := m.localPending.insert p.session.applyFrame localNow }, ?_, ?_⟩
  · rw [tickSend, tickSend, if_neg hstatus,
      if_neg (show (p.withMaps m).session.status ≠ .disconnected from hstatus)]
    cases inputSent <;> rfl
  · rw [tickSend, if_neg hstatus]
    cases inputSent with
    | true => exact hsent
    | false => exact hsent.status .disconnected

/-- The inputs of the next frame are the same. -/
theorem present_alike (h : Alike bound p.session m) (hbound : p.session.frame < bound) :
    present env (p.withMaps m) = (present env p).withMaps m := by
  have hlocal := h.locals p.session.frame ⟨le_rfl, hbound⟩
  have hremote := h.remotes p.session.frame le_rfl
  unfold present
  dsimp only at hlocal hremote ⊢
  rw [hlocal, hremote]
  rfl

theorem maybeSendChecksum_alike (h : Alike bound p.session m) (checksumSent : Bool) :
    ∃ m', maybeSendChecksum env checksumSent (p.withMaps m) =
        ((maybeSendChecksum env checksumSent p).1,
          (maybeSendChecksum env checksumSent p).2.withMaps m') ∧
      Alike bound (maybeSendChecksum env checksumSent p).2.session m' := by
  unfold maybeSendChecksum
  by_cases hdue : p.session.frame % NetSession.checksumEvery = 0
  · have hdue' : (p.withMaps m).session.frame % NetSession.checksumEvery = 0 := hdue
    have hworld : (p.withMaps m).world = p.world := rfl
    rw [if_pos hdue, if_pos hdue', hworld]
    dsimp only
    split_ifs
    · exact ⟨_, rfl, h.digest hdue _⟩
    · exact ⟨_, rfl, h.digest hdue _⟩
    · exact ⟨m, rfl, h⟩
  · have hdue' : ¬(p.withMaps m).session.frame % NetSession.checksumEvery = 0 := hdue
    rw [if_neg hdue, if_neg hdue']
    exact ⟨m, rfl, h⟩

theorem advance_alike (h : Alike (p.session.applyFrame + 1) p.session m) (checksumSent : Bool) :
    ∃ m', advance env checksumSent (p.withMaps m) =
        ((advance env checksumSent p).1, (advance env checksumSent p).2.withMaps m') ∧
      Alike (advance env checksumSent p).2.session.applyFrame
        (advance env checksumSent p).2.session m' := by
  have hpresent := present_alike env h (Nat.lt_succ_of_le (Nat.le_add_right _ _))
  obtain ⟨m₁, heq, h₁⟩ := maybeSendChecksum_alike env (p := present env p) h checksumSent
  have hframe : (maybeSendChecksum env checksumSent (present env p)).2.session.applyFrame =
      p.session.applyFrame := by
    unfold maybeSendChecksum
    dsimp only
    split_ifs <;> rfl
  unfold advance
  dsimp only
  rw [hpresent, heq]
  -- From here on only what the two runs agree on is needed.
  generalize maybeSendChecksum env checksumSent (present env p) = r at *
  obtain ⟨goesOn, q⟩ := r
  have hle : q.session.applyFrame ≤ p.session.applyFrame + 1 := hframe ▸ Nat.le_succ _
  cases goesOn with
  | false => exact ⟨m₁, rfl, (h₁.mono hle).status .disconnected⟩
  | true =>
    simp only [Bool.not_true, Bool.false_eq_true, if_false]
    by_cases hmismatch : q.session.hasMismatch = true
    · have hmismatch' : (q.withMaps m₁).session.hasMismatch = true := h₁.hasMismatch.trans hmismatch
      rw [if_pos hmismatch, if_pos hmismatch']
      exact ⟨m₁, rfl, (h₁.mono hle).status .desync⟩
    · have hmismatch' : ¬(q.withMaps m₁).session.hasMismatch = true := by
        rwa [show (q.withMaps m₁).session.hasMismatch = _ from h₁.hasMismatch]
      rw [if_neg hmismatch, if_neg hmismatch']
      refine ⟨m₁.prune q.session.frame, rfl, h₁.prune.mono ?_⟩
      show q.session.frame + 1 + q.session.delay.toNat ≤ p.session.applyFrame + 1
      have : q.session.frame + q.session.delay.toNat = p.session.applyFrame := hframe
      omega

theorem tickSend_applyFrame (localNow : InputState) (inputSent : Bool) (p : NetPeer κ β) :
    (tickSend localNow inputSent p).session.applyFrame = p.session.applyFrame := by
  unfold tickSend
  dsimp only
  split_ifs <;> rfl

/-- A tick at a session that was started again is a tick at one with the maps `m`. -/
theorem tick_alike (h : Alike p.session.applyFrame p.session m) (localNow : InputState)
    (io : NetIo) :
    ∃ m', tick env localNow io (p.withMaps m) =
        ((tick env localNow io p).1, (tick env localNow io p).2.1.withMaps m',
          (tick env localNow io p).2.2) ∧
      Alike (tick env localNow io p).2.1.session.applyFrame
        (tick env localNow io p).2.1.session m' := by
  by_cases hstatus : p.session.status = .disconnected
  · -- A tick on a disconnected session does nothing.
    have hsend : ∀ q : NetPeer κ β, q.session.status = .disconnected →
        tick env localNow io q = (.disconnected, q, 0) := by
      intro q hq
      rw [tick, tickSend, if_pos hq, tickRecvAndAdvance, if_pos hq]
    rw [hsend p hstatus, hsend (p.withMaps m) hstatus]
    exact ⟨m, rfl, h⟩
  · obtain ⟨m₁, hsend, h₁⟩ := tickSend_alike h hstatus localNow io.inputSent
    have hframe := tickSend_applyFrame localNow io.inputSent p
    unfold tick
    rw [hsend]
    generalize tickSend localNow io.inputSent p = q at *
    by_cases hcut : q.session.status = .disconnected
    · rw [tickRecvAndAdvance, tickRecvAndAdvance, if_pos hcut,
        if_pos (show (q.withMaps m₁).session.status = .disconnected from hcut)]
      exact ⟨m₁, rfl, h₁.mono (hframe ▸ Nat.le_succ _)⟩
    · -- The receive loop takes the same messages and ends the same way.
      obtain ⟨m₂, hawait, h₂⟩ := h₁.awaitRemote io.recvFailed io.arriving
      rw [tickRecvAndAdvance, tickRecvAndAdvance, if_neg hcut,
        if_neg (show (q.withMaps m₁).session.status ≠ .disconnected from hcut)]
      have hfields : (q.session.awaitRemote io.recvFailed io.arriving).2.1.applyFrame =
          q.session.applyFrame := by
        obtain ⟨remote, peer, heq⟩ := awaitRemote_fields io.recvFailed io.arriving q.session
        rw [heq]
        rfl
      have hawait' : (q.withMaps m₁).session.awaitRemote io.recvFailed io.arriving = _ := hawait
      rw [hawait']
      generalize q.session.awaitRemote io.recvFailed io.arriving = r at *
      have hbound : Alike (r.2.1.applyFrame + 1) r.2.1 m₂ := by rwa [hfields, hframe]
      obtain ⟨verdict, s, taken⟩ := r
      cases verdict with
      | some status => exact ⟨m₂, rfl, (hbound.mono (Nat.le_succ _)).status status⟩
      | none =>
        obtain ⟨m₃, hadvance, h₃⟩ :=
          advance_alike env (p := { q with session := s }) hbound io.checksumSent
        exact ⟨m₃, congrArg (fun r => (r.1, r.2, taken)) hadvance, h₃⟩

/-! ### A run of ticks -/

/-- The statuses a list of ticks returns, the numbers of messages they take, and the peer after
them. -/
def ticks : List (InputState × NetIo) → NetPeer κ β → List (NetStatus × ℕ) × NetPeer κ β
  | [], p => ([], p)
  | (localNow, io) :: calls, p =>
      let r := tick env localNow io p
      let rest := ticks calls r.2.1
      ((r.1, r.2.2) :: rest.1, rest.2)

theorem ticks_alike (h : Alike p.session.applyFrame p.session m)
    (calls : List (InputState × NetIo)) :
    ∃ m', ticks env calls (p.withMaps m) =
      ((ticks env calls p).1, (ticks env calls p).2.withMaps m') := by
  induction calls generalizing p m with
  | nil => exact ⟨m, rfl⟩
  | cons call calls ih =>
    obtain ⟨localNow, io⟩ := call
    obtain ⟨m₁, htick, h₁⟩ := tick_alike env h localNow io
    obtain ⟨m₂, hticks⟩ := ih h₁
    refine ⟨m₂, ?_⟩
    rw [ticks, ticks, htick, hticks]

end NetPeer

end RetroPark.Net
