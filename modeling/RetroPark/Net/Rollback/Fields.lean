import RetroPark.Net.RollbackSession
import Mathlib.Tactic.SplitIfs

/-!
# What a rollback tick leaves alone

Saving snapshots, running frames and resimulating write the snapshot ring, the input records and
the rollback counter. `RollbackSession.outline` is the session without them; the lemmas here say
that the helpers keep it, and what a whole reconcile and the end of a tick do to it. Nothing is
assumed of the runtime or the core.
-/

namespace RetroPark.Net

namespace RollbackSession

/-- Frames whose remote input has been received, `confirmed_ + 1`, or none. -/
def received (s : RollbackSession) : ℕ := if s.haveConfirmed then s.confirmed + 1 else 0

/-- Where a successful reconcile leaves `verified_`. -/
def target (s : RollbackSession) : ℕ := max s.verified (min s.received s.frame)

/-- The session without the records that simulating frames writes. -/
def outline (s : RollbackSession) : RollbackSession :=
  { s with ring := .empty, locals := .empty, used := .empty, rollbackCount := 0, status := .ok }

/-- The counters are part of the outline. -/
theorem counters_of_outline {s t : RollbackSession} (h : s.outline = t.outline) :
    s.frame = t.frame ∧ s.maxPrediction = t.maxPrediction ∧ s.received = t.received ∧
      s.verified = t.verified :=
  ⟨(congrArg RollbackSession.frame h :), (congrArg RollbackSession.maxPrediction h :),
    (congrArg RollbackSession.received h :), (congrArg RollbackSession.verified h :)⟩

/-- The stall guard measures the frames beyond the received ones, and nothing at all before the
first remote input. -/
theorem ahead_eq (s : RollbackSession) :
    s.ahead = if s.received = 0 then 0 else s.frame - s.received := by
  unfold ahead received
  cases s.haveConfirmed
  · simp
  · simp only [if_true, Nat.add_eq_zero_iff, one_ne_zero, and_false, if_false, true_and]
    split_ifs with h <;> omega

/-- The session without what received messages write. -/
def offline (s : RollbackSession) : RollbackSession :=
  { s with remotes := .empty, confirmed := 0, haveConfirmed := false, peerCrc := .empty }

/-- A message changes nothing but what has been received. -/
theorem receive_offline (s : RollbackSession) (m : Message) :
    (s.receive m).offline = s.offline := by
  cases m with
  | input m =>
    unfold receive
    dsimp only
    split_ifs <;> rfl
  | checksum m => rfl
  | other => rfl

/-- The drain changes nothing but what has been received. -/
theorem drain_offline (s : RollbackSession) (ms : List Message) :
    (s.drain ms).offline = s.offline := by
  induction ms generalizing s with
  | nil => rfl
  | cons m ms ih => exact (ih (s.receive m)).trans (receive_offline s m)

/-- The peer checksums on record were received. -/
theorem mem_of_drain_peerCrc {s : RollbackSession} {ms : List Message} {f : ℕ} {crc : UInt32}
    (h : (s.drain ms).peerCrc.find? f = some crc) :
    s.peerCrc.find? f = some crc ∨ .checksum { frame := f, crc } ∈ ms := by
  -- What the later messages have not brought was on record after the first one.
  induction ms generalizing s with
  | nil => exact Or.inl h
  | cons m ms ih =>
    rcases ih (s := s.receive m) h with hold | hnew
    · cases m with
      | input m =>
        refine Or.inl ?_
        have heq : (s.receive (.input m)).peerCrc = s.peerCrc := by
          unfold receive
          dsimp only
          split_ifs <;> rfl
        rwa [heq] at hold
      | checksum m =>
        change (s.peerCrc.insert m.frame m.crc).find? f = some crc at hold
        rw [OrderedMap.find?_insert] at hold
        split_ifs at hold with heq
        · obtain rfl := Option.some.inj hold
          exact Or.inr (by simp [heq])
        · exact Or.inl hold
      | other => exact Or.inl hold
    · exact Or.inr (List.mem_cons_of_mem _ hnew)

/-- An input of a later frame raises the number of received frames. -/
theorem received_receive_input (s : RollbackSession) (m : Input) :
    (s.receive (.input m)).received = max s.received (m.frame + 1) := by
  unfold receive received
  cases hc : s.haveConfirmed
  · simp
  · by_cases hlt : s.confirmed < m.frame
    · simp [hlt]
      omega
    · simp [hlt]
      omega

/-- A message never lowers the number of received inputs. -/
theorem received_le_receive (s : RollbackSession) (m : Message) :
    s.received ≤ (s.receive m).received := by
  cases m with
  | input m => exact (le_max_left _ _).trans_eq (s.received_receive_input m).symm
  | checksum m => exact le_rfl
  | other => exact le_rfl

/-- The drain loses no received frame. -/
theorem received_le_drain (s : RollbackSession) (ms : List Message) :
    s.received ≤ (s.drain ms).received := by
  induction ms generalizing s with
  | nil => exact le_rfl
  | cons m ms ih => exact (received_le_receive s m).trans (ih _)

/-- The check finds a frame whose two checksums differ. -/
theorem hasMismatch_iff (s : RollbackSession) : s.hasMismatch = true ↔ s.Mismatch := by
  unfold hasMismatch Mismatch
  rw [OrderedMap.any_eq_true_iff]
  constructor
  · rintro ⟨f, own, hown, hp⟩
    cases hpeer : s.peerCrc.find? f with
    | none => simp [hpeer] at hp
    | some peer => exact ⟨f, own, peer, hown, hpeer, by simpa [hpeer] using hp⟩
  · rintro ⟨f, own, peer, hown, hpeer, hne⟩
    exact ⟨f, own, hown, by simpa [hpeer] using hne⟩

/-- Pruning never reaches the verified frame. -/
theorem floor_le (s : RollbackSession) : s.floor ≤ s.verified := by
  unfold floor
  split_ifs <;> omega

end RollbackSession

namespace RollbackPeer

variable {κ β : Type} (env : Env κ β)

/-- Two moments of a peer differ only in its world, its log of frames, and the records that
simulating frames writes. -/
structure SameOutline (p q : RollbackPeer κ β) : Prop where
  outline : q.session.outline = p.session.outline
  sent : q.sent = p.sent

/-- The outline has the verified frame. -/
theorem SameOutline.verified_eq {p q : RollbackPeer κ β} (h : SameOutline p q) :
    q.session.verified = p.session.verified := (congrArg RollbackSession.verified h.outline :)

/-- States with the same outline as the same state have the same outline. -/
theorem SameOutline.trans {p q r : RollbackPeer κ β} (h : SameOutline p q)
    (h' : SameOutline q r) : SameOutline p r :=
  ⟨h'.outline.trans h.outline, h'.sent.trans h.sent⟩

/-- A snapshot leaves the outline alone. -/
theorem saveRing_sameOutline (f : ℕ) (p : RollbackPeer κ β) : SameOutline p (saveRing env f p) := by
  unfold saveRing
  dsimp only
  split_ifs <;> exact ⟨rfl, rfl⟩

/-- A frame leaves the outline alone. -/
theorem runFrame_sameOutline (f : ℕ) (lin : InputState) (emit : Bool) (p : RollbackPeer κ β) :
    SameOutline p (runFrame env f lin emit p).2 := ⟨rfl, rfl⟩

/-- A resimulation leaves the outline alone. -/
theorem resimulate_sameOutline (n f : ℕ) (p : RollbackPeer κ β) :
    SameOutline p (resimulate env n f p).2 := by
  induction n generalizing f p with
  | zero => exact ⟨rfl, rfl⟩
  | succ n ih =>
    rw [resimulate]
    dsimp only
    split_ifs
    · exact ⟨rfl, rfl⟩
    · refine SameOutline.trans ?_ (ih _ _)
      exact ⟨(saveRing_sameOutline env _ _).outline, (saveRing_sameOutline env _ _).sent⟩

/-- A rollback leaves the outline alone. -/
theorem rollBack_sameOutline (g : ℕ) (p : RollbackPeer κ β) :
    SameOutline p (rollBack env g p).2 := by
  unfold rollBack
  dsimp only
  split_ifs
  · exact ⟨rfl, rfl⟩
  · exact ⟨(resimulate_sameOutline env _ _ _).outline, (resimulate_sameOutline env _ _ _).sent⟩
  · exact ⟨(resimulate_sameOutline env _ _ _).outline, (resimulate_sameOutline env _ _ _).sent⟩

/-- A resimulation that fails sets the status to `Desync`. -/
theorem resimulate_status {n f : ℕ} {p : RollbackPeer κ β}
    (h : (resimulate env n f p).1 = false) :
    (resimulate env n f p).2.session.status = .desync := by
  induction n generalizing f p with
  | zero => simp [resimulate] at h
  | succ n ih =>
    rw [resimulate] at h ⊢
    dsimp only at h ⊢
    split_ifs at h ⊢
    · rfl
    · exact ih h

/-- A rollback that fails sets the status to `Desync`. -/
theorem rollBack_status {g : ℕ} {p : RollbackPeer κ β} (h : (rollBack env g p).1 = false) :
    (rollBack env g p).2.session.status = .desync := by
  unfold rollBack at h ⊢
  dsimp only at h ⊢
  split_ifs at h ⊢
  · rfl
  · exact resimulate_status env h

/-- What a reconcile can do: nothing, when there is nothing new to verify; verify frames none of
which was mispredicted; or roll back to the first mispredicted one. -/
theorem reconcile_cases (p : RollbackPeer κ β) :
    (p.session.target = p.session.verified ∧ reconcile env p = (true, p)) ∨
    (p.session.verified < p.session.target ∧ p.session.target ≤ p.session.frame ∧
      (∀ k, p.session.verified ≤ k → k < p.session.target →
        ¬Mispredicted p.session.remotes p.session.used k) ∧
      reconcile env p = (true, { p with session.verified := p.session.target })) ∨
    ∃ g, p.session.verified ≤ g ∧ g < p.session.target ∧ p.session.target ≤ p.session.frame ∧
      (∀ k, p.session.verified ≤ k → k < g →
        ¬Mispredicted p.session.remotes p.session.used k) ∧
      reconcile env p =
        if (rollBack env g p).1 then
          (true, { (rollBack env g p).2 with session.verified := p.session.target })
        else rollBack env g p := by
  unfold reconcile
  dsimp only
  by_cases hc : (p.session.haveConfirmed && decide (0 < p.session.frame)) = true
  · rw [if_pos hc]
    obtain ⟨hhave, hpos⟩ : p.session.haveConfirmed = true ∧ 0 < p.session.frame := by
      simpa using hc
    -- The inclusive end of the source is one less than the frames at hand.
    have hsucc : p.session.reconcileEnd + 1 = min p.session.received p.session.frame := by
      rw [RollbackSession.reconcileEnd, RollbackSession.received, if_pos hhave]
      split_ifs <;> omega
    by_cases hle : p.session.verified ≤ p.session.reconcileEnd
    · have htarget : p.session.target = p.session.reconcileEnd + 1 := by
        rw [RollbackSession.target, ← hsucc]
        omega
      rw [if_pos hle, htarget]
      cases hscan : rbFirstMispredicted p.session.remotes p.session.used p.session.verified
          p.session.reconcileEnd with
      | none =>
        refine Or.inr (Or.inl ⟨by omega, by omega, fun k hk hkt => ?_, rfl⟩)
        exact not_mispredicted_of_none hscan hk (Nat.le_of_lt_succ hkt)
      | some g =>
        obtain ⟨hfirst, hlast, -, hbelow⟩ := mispredicted_of_some hscan
        exact Or.inr (Or.inr ⟨g, hfirst, by omega, by omega, hbelow, rfl⟩)
    · -- All frames at hand have been verified before.
      rw [if_neg hle]
      refine Or.inl ⟨?_, rfl⟩
      rw [RollbackSession.target, ← hsucc]
      omega
  · -- No input has been received, or no frame has been simulated.
    rw [if_neg hc]
    refine Or.inl ⟨?_, rfl⟩
    rw [RollbackSession.target, RollbackSession.received]
    cases hhave : p.session.haveConfirmed with
    | false => simp
    | true =>
      have : p.session.frame = 0 := by simpa [hhave] using hc
      simp [this]

/-- A reconcile that fails leaves the status at `Desync`. -/
theorem reconcile_status {p : RollbackPeer κ β} (h : (reconcile env p).1 = false) :
    (reconcile env p).2.session.status = .desync := by
  rcases reconcile_cases env p with ⟨-, heq⟩ | ⟨-, -, -, heq⟩ | ⟨g, -, -, -, -, heq⟩
  · simp [heq] at h
  · simp [heq] at h
  · rw [heq] at h ⊢
    split_ifs at h ⊢
    exact rollBack_status env h

/-- A reconcile moves `verified_` to its target, or fails without moving it. -/
theorem reconcile_outline (p : RollbackPeer κ β) :
    (reconcile env p).2.sent = p.sent ∧
      (reconcile env p).2.session.outline =
        { p.session.outline with
          verified := if (reconcile env p).1 then p.session.target else p.session.verified } := by
  rcases reconcile_cases env p with ⟨htarget, heq⟩ | ⟨-, -, -, heq⟩ | ⟨g, -, -, -, -, heq⟩
  · rw [heq, htarget]
    exact ⟨rfl, rfl⟩
  · rw [heq]
    exact ⟨rfl, rfl⟩
  · have hsame := rollBack_sameOutline env g p
    rw [heq]
    cases hok : (rollBack env g p).1 with
    | true =>
      exact ⟨hsame.sent, congrArg (fun s : RollbackSession =>
        { s with verified := p.session.target }) hsame.outline⟩
    | false =>
      simp only [Bool.false_eq_true, if_false, hok]
      exact ⟨hsame.sent, hsame.outline⟩

/-- A digest is recorded, and handed to the transport, exactly when the verified frame is a
checkpoint with a snapshot. -/
theorem maybeSendChecksum_cases (checksumSent : Bool) (p : RollbackPeer κ β) :
    (maybeSendChecksum checksumSent p = p ∧ (p.session.verified = 0 ∨
        p.session.verified % checksumEvery ≠ 0 ∨ p.session.ring.find? p.session.verified = none)) ∨
      ∃ state, p.session.verified ≠ 0 ∧ p.session.verified % checksumEvery = 0 ∧
        p.session.ring.find? p.session.verified = some state ∧
        maybeSendChecksum checksumSent p =
          { p with
            session.ownCrc := p.session.ownCrc.insert p.session.verified (crc32 state)
            sent :=
              if checksumSent then
                p.sent ++ [.checksum { frame := p.session.verified, crc := crc32 state }]
              else p.sent } := by
  unfold maybeSendChecksum
  dsimp only
  by_cases hskip : p.session.verified = 0 ∨ p.session.verified % checksumEvery ≠ 0
  · rw [if_pos hskip]
    exact Or.inl ⟨rfl, hskip.imp_right Or.inl⟩
  · rw [if_neg hskip]
    obtain ⟨hpos, hdvd⟩ := not_or.mp hskip
    cases hfind : p.session.ring.find? p.session.verified with
    | none => exact Or.inl ⟨rfl, Or.inr (Or.inr rfl)⟩
    | some state => exact Or.inr ⟨state, hpos, Decidable.not_not.mp hdvd, rfl, rfl⟩

/-- The checksum is taken from a snapshot and not from the core. -/
theorem maybeSendChecksum_world (checksumSent : Bool) (p : RollbackPeer κ β) :
    (maybeSendChecksum checksumSent p).world = p.world := by
  rcases maybeSendChecksum_cases checksumSent p with ⟨heq, -⟩ | ⟨_, -, -, -, heq⟩ <;> rw [heq]

/-- The checksum runs no frame. -/
theorem maybeSendChecksum_ran (checksumSent : Bool) (p : RollbackPeer κ β) :
    (maybeSendChecksum checksumSent p).ran = p.ran := by
  rcases maybeSendChecksum_cases checksumSent p with ⟨heq, -⟩ | ⟨_, -, -, -, heq⟩ <;> rw [heq]

/-- The counters after a reconcile. -/
theorem reconcile_counters (p : RollbackPeer κ β) :
    (reconcile env p).2.session.frame = p.session.frame ∧
      (reconcile env p).2.session.maxPrediction = p.session.maxPrediction ∧
      (reconcile env p).2.session.received = p.session.received ∧
      (reconcile env p).2.session.verified =
        if (reconcile env p).1 then p.session.target else p.session.verified := by
  have h := (reconcile_outline env p).2
  exact ⟨(congrArg RollbackSession.frame h :), (congrArg RollbackSession.maxPrediction h :),
    (congrArg RollbackSession.received h :), (congrArg RollbackSession.verified h :)⟩

/-- The end of a tick prunes, and otherwise writes the own checksums and the status. -/
theorem finish_session (status : RbStatus) (checksumSent : Bool) (p : RollbackPeer κ β) :
    (finish status checksumSent p).2.session =
      { p.session.prune with
        ownCrc := (maybeSendChecksum checksumSent p).session.ownCrc
        status := status } := by
  unfold finish RollbackSession.checkDesync
  rcases maybeSendChecksum_cases checksumSent p with ⟨heq, -⟩ | ⟨_, -, -, -, heq⟩
  · rw [heq]
    dsimp only
    split_ifs <;> rfl
  · rw [heq]
    dsimp only
    split_ifs <;> rfl

end RollbackPeer

end RetroPark.Net
