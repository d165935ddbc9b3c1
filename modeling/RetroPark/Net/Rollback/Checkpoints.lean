import RetroPark.Net.Rollback.Run
import RetroPark.Cores.RefCoreRollback

/-!
# Checkpoints

A session digests its verified state at every multiple of `checksumEvery`. The core only has to be
serializable here (`SerializeCapable`); restoring a state may fail and the messages are arbitrary.

* `Stocked` is the invariant that the snapshots from the verified frame on are all there, so that
  the one a checksum needs always is;
* the checksum is considered only at the frame `verified_` lands on (`LandsOnCheckpoints`), and
  whether the transport takes it is never looked at (`ChecksumTaken`). Coverage is kept by the
  ticks that satisfy both.
-/

namespace RetroPark.Net

open RetroPark.Runtime

/-- Every frame from the verified one to the current one has a snapshot. -/
def RollbackSession.Stocked (s : RollbackSession) : Prop :=
  ∀ k, s.verified ≤ k → k < s.frame → (s.ring.find? k).isSome

/-- Pruning keeps the snapshots from the verified frame on. -/
theorem RollbackSession.Stocked.prune {s : RollbackSession} (h : s.Stocked) : s.prune.Stocked := by
  intro k hk hkf
  change ((s.ring.eraseBelow s.floor).find? k).isSome
  rw [OrderedMap.find?_eraseBelow_of_le _ (s.floor_le.trans hk)]
  exact h k hk hkf

namespace RollbackPeer

variable {κ β : Type} (env : Env κ β) {c : CorePtr}

/-! ### Snapshots are never lost within a tick -/

/-- Every snapshot of `m` is also in `m'`, possibly with another state. -/
def RingGrows (m m' : OrderedMap ℕ Blob) : Prop :=
  ∀ k, (m.find? k).isSome → (m'.find? k).isSome

/-- A snapshot is added to the ring. -/
theorem ringGrows_insert (m : OrderedMap ℕ Blob) (f : ℕ) (b : Blob) :
    RingGrows m (m.insert f b) := by
  intro k hk
  rw [OrderedMap.find?_insert]
  split_ifs
  · rfl
  · exact hk

/-- Reading the ring with `operator[]` takes nothing out of it. -/
theorem ringGrows_index (m : OrderedMap ℕ Blob) (f : ℕ) (b : Blob) :
    RingGrows m (m.index f b).2 := by
  unfold OrderedMap.index
  cases m.find? f with
  | none => exact ringGrows_insert m f b
  | some v => exact fun k hk => hk

/-- A snapshot takes nothing out of the ring. -/
theorem saveRing_grows (f : ℕ) (p : RollbackPeer κ β) :
    RingGrows p.session.ring (saveRing env f p).session.ring := by
  unfold saveRing
  dsimp only
  split_ifs
  · exact ringGrows_insert _ _ _
  · exact ringGrows_insert _ _ _
  · exact fun k hk => hk

/-- A resimulation takes nothing out of the ring. -/
theorem resimulate_grows (n f : ℕ) (p : RollbackPeer κ β) :
    RingGrows p.session.ring (resimulate env n f p).2.session.ring := by
  induction n generalizing f p with
  | zero => exact fun k hk => hk
  | succ n ih =>
    rw [resimulate]
    dsimp only
    split_ifs
    · exact fun k hk => hk
    · exact fun k hk => ih _ _ k (saveRing_grows env (f + 1) _ k hk)

/-- A reconciliation takes nothing out of the ring. -/
theorem reconcile_grows (p : RollbackPeer κ β) :
    RingGrows p.session.ring (reconcile env p).2.session.ring := by
  have hroll : ∀ g, RingGrows p.session.ring (rollBack env g p).2.session.ring := by
    intro g k hk
    have hindex := ringGrows_index p.session.ring g [] k hk
    unfold rollBack
    dsimp only
    split_ifs
    · exact hindex
    · exact resimulate_grows env _ _ _ k hindex
    · exact resimulate_grows env _ _ _ k hindex
  rcases reconcile_cases env p with ⟨-, heq⟩ | ⟨-, -, -, heq⟩ | ⟨g, -, -, -, -, heq⟩
  · exact heq ▸ fun k hk => hk
  · exact heq ▸ fun k hk => hk
  · rw [heq]
    split_ifs <;> exact hroll g

/-! ### The runtime stays ready -/

section Ready

variable {p : RollbackPeer κ β}

/-- A ready core has its snapshot taken. -/
theorem saveRing_ready (h : DrivenReady c p.world.rt) (hcap : SerializeCapable env.core c) (f : ℕ) :
    ∃ w b k, saveRing env f p =
        { p with world := w, session.ring := p.session.ring.insert f b } ∧
      DrivenReady c w.rt ∧ Probed env.core c p.world.core w.core ∧
      Probed env.core c p.world.core k ∧
      b = fillBuffer (env.core.serializeSize p.world.core c).value
        (env.core.serialize k c (env.core.serializeSize p.world.core c).value).value.2 := by
  obtain ⟨w₁, hrun₁, hrt₁, hcore₁⟩ := serializeSize_ready env h
  -- The core answers the second request for its size as the first.
  have hsize : (env.core.serializeSize w₁.core c).value =
      (env.core.serializeSize p.world.core c).value := by rw [hcore₁, hcap.size_again]
  obtain ⟨w₂, hrun₂, hready₂, -, hprobe₂⟩ := saveState_ready env (h.congr hrt₁) hcap hsize
  have hpos : (env.core.serializeSize p.world.core c).value ≠ 0 := (hcap.size_pos _).ne'
  have hprobe₁ : Probed env.core c p.world.core w₁.core := hcore₁ ▸ .size .refl
  refine ⟨w₂, _, (env.core.serializeSize w₁.core c).core, ?_, hready₂, hprobe₁.trans hprobe₂,
    .size hprobe₁, rfl⟩
  unfold saveRing Runtime.serializeSize
  dsimp only
  rw [hrun₁]
  dsimp only
  rw [if_neg hpos, hrun₂]
  rfl

/-- A ready core runs its frame and stays ready. -/
theorem runFrame_ready (h : DrivenReady c p.world.rt) (f : ℕ) (lin : InputState) (emit : Bool) :
    (runFrame env f lin emit p).1 = .ok ∧
      DrivenReady c (runFrame env f lin emit p).2.world.rt := by
  obtain ⟨w₁, hrun₁, hready₁, -⟩ := setInput_ready h p.session.localPort lin
  obtain ⟨w₂, hrun₂, hready₂, -⟩ :=
    setInput_ready hready₁ p.session.remotePort (p.session.remoteInput f)
  obtain ⟨w₃, k, hrun₃, hready₃, -⟩ := advance_ready env hready₂ emit
  unfold runFrame
  dsimp only
  rw [hrun₁, hrun₂, hrun₃]
  exact ⟨rfl, hready₃⟩

/-- A ready core stays ready when it is resimulated. -/
theorem resimulate_ready (h : DrivenReady c p.world.rt) (hcap : SerializeCapable env.core c)
    (n f : ℕ) : DrivenReady c (resimulate env n f p).2.world.rt := by
  induction n generalizing f p with
  | zero => exact h
  | succ n ih =>
    have hrun := runFrame_ready env
      (p := { p with session.locals := (p.session.locals.index f .neutral).2 }) h f
      (p.session.locals.index f .neutral).1 false
    obtain ⟨w, b, k, hsave, hready, -⟩ := saveRing_ready env hrun.2 hcap (f + 1)
    rw [resimulate]
    dsimp only
    rw [if_neg (not_not_intro hrun.1), hsave]
    exact ih hready (f + 1)

/-- A ready core stays ready when it is rolled back. -/
theorem rollBack_ready (h : DrivenReady c p.world.rt) (hcap : SerializeCapable env.core c)
    (g : ℕ) : DrivenReady c (rollBack env g p).2.world.rt := by
  have hload : DrivenReady c ((loadState env (p.session.ring.index g []).1).run p.world).2.rt := by
    cases hsnap : (p.session.ring.index g []).1 with
    | nil => exact h
    | cons b rest =>
      have hdata : 0 < (b :: rest).length := Nat.succ_pos rest.length
      obtain ⟨w, hrun, hrt, -⟩ := loadState_ready env h hdata
      rw [hrun]
      exact h.congr hrt
  unfold rollBack
  dsimp only
  split_ifs
  · exact hload
  · exact resimulate_ready env (p := { p with session.ring := _, world := _ }) hload hcap _ _
  · exact resimulate_ready env (p := { p with session.ring := _, world := _ }) hload hcap _ _

/-- A ready core stays ready when it is reconciled. -/
theorem reconcile_ready (h : DrivenReady c p.world.rt) (hcap : SerializeCapable env.core c) :
    DrivenReady c (reconcile env p).2.world.rt := by
  rcases reconcile_cases env p with ⟨-, heq⟩ | ⟨-, -, -, heq⟩ | ⟨g, -, -, -, -, heq⟩
  · exact heq ▸ h
  · exact heq ▸ h
  · rw [heq]
    split_ifs <;> exact rollBack_ready env h hcap g

end Ready

/-! ### Coverage -/

/-- A checksum of frame `v` has been sent. -/
def ChecksumSent (p : RollbackPeer κ β) (v : ℕ) : Prop :=
  ∃ crc, .checksum { frame := v, crc } ∈ p.sent

instance (p : RollbackPeer κ β) (v : ℕ) : Decidable (p.ChecksumSent v) :=
  decidable_of_iff (p.sent.any fun m => match m with
      | .checksum m => decide (m.frame = v)
      | _ => false) (by
    rw [List.any_eq_true, ChecksumSent]
    constructor
    · rintro ⟨m, hm, hv⟩
      cases m with
      | checksum m =>
        obtain rfl : m.frame = v := by simpa using hv
        exact ⟨m.crc, hm⟩
      | input m => simp at hv
      | other => simp at hv
    · rintro ⟨crc, hm⟩
      exact ⟨_, hm, by simp⟩)

/-- The invariant of coverage: the runtime is ready, the snapshots from the verified frame on are
there, and every checkpoint up to it has been digested. -/
structure Covered (c : CorePtr) (p : RollbackPeer κ β) : Prop where
  ready : DrivenReady c p.world.rt
  prediction_pos : 1 ≤ p.session.maxPrediction.toNat
  verified_lt : p.session.verified < p.session.frame ∨ p.session.verified = 0
  stocked : p.session.Stocked
  covered : ∀ v, 0 < v → v ≤ p.session.verified → v % checksumEvery = 0 → p.ChecksumSent v

/-- At the beginning there is no checkpoint to be covered. -/
theorem covered_begin (isHost : Bool) (agreed : UInt32) {w : World κ β}
    (h : DrivenReady c w.rt) : Covered c (begin isHost agreed w) where
  ready := h
  prediction_pos := RollbackSession.begin_maxPrediction_pos isHost agreed
  verified_lt := Or.inr rfl
  stocked := fun k _ hk => absurd hk (Nat.not_lt_zero k)
  covered := fun _ hpos hle => absurd hle (Nat.not_le.mpr hpos)

/-- In the middle of a tick, once it has reconciled: every checkpoint has been digested but the one
`verified_` has just landed on, whose checksum the transport will take. -/
structure Landed (c : CorePtr) (checksumSent : Bool) (p : RollbackPeer κ β) : Prop where
  ready : DrivenReady c p.world.rt
  prediction_pos : 1 ≤ p.session.maxPrediction.toNat
  verified_le : p.session.verified ≤ p.session.frame
  stocked : p.session.Stocked
  covered : ∀ v, 0 < v → v ≤ p.session.verified → v % checksumEvery = 0 →
    p.ChecksumSent v ∨ v = p.session.verified ∧ checksumSent = true

/-- A tick that lets `verified_` pass a checkpoint also lets it land there. -/
def LandsOnCheckpoints (p : RollbackPeer κ β) (a : TickCall) : Prop :=
  Drains p a → min (afterDrain a p).session.received p.session.frame ≤
    checksumEvery * (p.session.verified / checksumEvery + 1)

/-- The transport takes the checksum of a tick that moves `verified_` to a checkpoint. -/
def ChecksumTaken (p : RollbackPeer κ β) (a : TickCall) : Prop :=
  Drains p a → p.session.verified < (afterDrain a p).session.target →
    (afterDrain a p).session.target % checksumEvery = 0 → a.io.checksumSent = true

/-- The tick neither passes a checkpoint nor loses its checksum. -/
def KeepsCheckpoints (p : RollbackPeer κ β) (a : TickCall) : Prop :=
  LandsOnCheckpoints p a ∧ ChecksumTaken p a

/-- What has been sent stays sent. -/
theorem checksumSent_maybeSendChecksum {p : RollbackPeer κ β} {v : ℕ} (h : p.ChecksumSent v)
    (checksumSent : Bool) : (maybeSendChecksum checksumSent p).ChecksumSent v := by
  obtain ⟨crc, hmem⟩ := h
  rcases maybeSendChecksum_cases checksumSent p with ⟨heq, -⟩ | ⟨_, -, -, -, heq⟩ <;> rw [heq]
  · exact ⟨crc, hmem⟩
  · cases checksumSent with
    | false => exact ⟨crc, hmem⟩
    | true => exact ⟨crc, List.mem_append_left _ hmem⟩

/-- The end of a tick digests the frame `verified_` landed on, and keeps the snapshots from it
on. -/
theorem finish_covered {p : RollbackPeer κ β} (status : RbStatus) {checksumSent : Bool}
    (h : Landed c checksumSent p)
    (hlt : p.session.verified < p.session.frame ∨ p.session.verified = 0) :
    Covered c (finish status checksumSent p).2 := by
  have hfields := finish_session status checksumSent p
  refine ⟨?_, ?_, ?_, ?_, ?_⟩
  · exact (maybeSendChecksum_world checksumSent p).symm ▸ h.ready
  · rw [hfields]
    exact h.prediction_pos
  · rw [hfields]
    exact hlt
  · rw [hfields]
    exact h.stocked.prune
  · rw [hfields]
    intro v hv (hle : v ≤ p.session.verified) hdvd
    change (maybeSendChecksum checksumSent p).ChecksumSent v
    rcases h.covered v hv hle hdvd with hsent | ⟨rfl, rfl⟩
    · exact checksumSent_maybeSendChecksum hsent checksumSent
    · -- `verified_` has landed on the checkpoint, and its snapshot is there.
      have hring := h.stocked p.session.verified le_rfl (hlt.resolve_right hv.ne')
      rcases maybeSendChecksum_cases true p with ⟨-, hskip⟩ | ⟨state, -, -, -, heq⟩
      · rcases hskip with h0 | hmod | hnone
        · exact absurd h0 hv.ne'
        · exact absurd hdvd hmod
        · simp [hnone] at hring
      · rw [heq]
        exact ⟨crc32 state, by simp⟩

/-- A simulated frame keeps coverage, given the snapshot before it. -/
theorem finish_succ_covered {p q : RollbackPeer κ β} {checksumSent : Bool}
    (h : Landed c checksumSent p) (hsame : SameOutline p q) {w : World κ β}
    (hw : DrivenReady c w.rt)
    (hring : ∀ k, p.session.verified ≤ k → k < p.session.frame + 1 →
      (q.session.ring.find? k).isSome) :
    Covered c
      (finish .ok checksumSent { q with world := w, session.frame := p.session.frame + 1 }).2 := by
  obtain ⟨-, hmax, -, hver⟩ := RollbackSession.counters_of_outline hsame.outline
  have hverified : q.session.verified < p.session.frame + 1 :=
    hver.trans_lt (Nat.lt_succ_of_le h.verified_le)
  refine finish_covered .ok ⟨hw, ?_, hverified.le, ?_, ?_⟩ (.inl hverified)
  · exact hmax.symm ▸ h.prediction_pos
  · intro k hk hkf
    exact hring k (hver.symm.trans_le hk) hkf
  · intro v hv hle hdvd
    rcases h.covered v hv (hle.trans_eq hver) hdvd with ⟨crc, hmem⟩ | ⟨heqv, htaken⟩
    · exact Or.inl ⟨crc, hsame.sent.symm ▸ hmem⟩
    · exact Or.inr ⟨heqv.trans hver.symm, htaken⟩

/-- Stalling or simulating one more frame digests the checkpoint the reconcile landed on. -/
theorem stallOrRun_covered {p : RollbackPeer κ β} (hcap : SerializeCapable env.core c)
    (localNow : InputState) (wantPixels : Bool) {checksumSent : Bool}
    (h : Landed c checksumSent p)
    (hstall : p.session.received < p.session.frame →
      p.session.verified < p.session.frame ∨ p.session.verified = 0) :
    Covered c (stallOrRun env localNow wantPixels checksumSent p).2 := by
  obtain ⟨w, b, k, hsave, hready, -⟩ := saveRing_ready env h.ready hcap p.session.frame
  have hsaved : DrivenReady c (saveRing env p.session.frame p).world.rt := by
    rw [hsave]
    exact hready
  have hring : (saveRing env p.session.frame p).session.ring =
      p.session.ring.insert p.session.frame b := by rw [hsave]
  have hrun := runFrame_ready env hsaved p.session.frame localNow true
  have hsame := (saveRing_sameOutline env p.session.frame p).trans
    (runFrame_sameOutline env p.session.frame localNow true _)
  unfold stallOrRun
  dsimp only
  split_ifs with hahead hfail
  · obtain ⟨_, w', hrender, hrt, -⟩ := render_ready env h.ready wantPixels
    rw [hrender]
    refine finish_covered .stalled { h with ready := hrt ▸ h.ready } (hstall ?_)
    -- A stalled tick has simulated frames it has not received.
    have hpos := h.prediction_pos
    rw [p.session.ahead_eq] at hahead
    split_ifs at hahead <;> omega
  · exact absurd hrun.1 hfail
  · obtain ⟨_, w', hrender, hrt, -⟩ := render_ready env hrun.2 wantPixels
    rw [hrender]
    refine finish_succ_covered h hsame (hrt ▸ hrun.2) ?_
    intro k hk hkf
    change ((saveRing env p.session.frame p).session.ring.find? k).isSome
    rw [hring]
    -- The snapshot of the frame has been saved just before.
    rcases Nat.lt_or_eq_of_le (Nat.le_of_lt_succ hkf) with hlt | rfl
    · exact ringGrows_insert _ _ _ k (h.stocked k hk hlt)
    · simp

/-- Draining and reconciling forget no checksum. -/
theorem checksumSent_reconcile {p : RollbackPeer κ β} {v : ℕ} (h : p.ChecksumSent v)
    (a : TickCall) : (reconcile env (afterDrain a p)).2.ChecksumSent v := by
  obtain ⟨crc, hmem⟩ := h
  have hsent := (reconcile_outline env (afterDrain a p)).1
  exact ⟨crc, hsent.symm ▸ List.mem_append_left _ hmem⟩

/-- The snapshots from the old `verified_` on are still there after draining and reconciling. -/
theorem stocked_reconcile {p : RollbackPeer κ β} (h : p.session.Stocked) (a : TickCall) {k : ℕ}
    (hk : p.session.verified ≤ k) (hkf : k < p.session.frame) :
    ((reconcile env (afterDrain a p)).2.session.ring.find? k).isSome := by
  obtain ⟨-, -, -, hring, -⟩ := afterDrain_fields a p
  refine reconcile_grows env (afterDrain a p) k ?_
  rw [hring]
  exact h k hk hkf

/-- Draining and reconciling leave the frame and the prediction window alone. -/
theorem reconcile_afterDrain_counters (p : RollbackPeer κ β) (a : TickCall) :
    (reconcile env (afterDrain a p)).2.session.frame = p.session.frame ∧
      (reconcile env (afterDrain a p)).2.session.maxPrediction = p.session.maxPrediction := by
  obtain ⟨hframe, -, hmax, -⟩ := afterDrain_fields a p
  obtain ⟨hframe', hmax', -⟩ := reconcile_counters env (afterDrain a p)
  exact ⟨hframe'.trans hframe, hmax'.trans hmax⟩

/-- A reconcile step that succeeds lands on the only checkpoint that is new, if there is one. -/
theorem Covered.landed {p : RollbackPeer κ β} {a : TickCall} (hcap : SerializeCapable env.core c)
    (h : Covered c p) (hdrains : Drains p a) (hkeeps : KeepsCheckpoints p a)
    (hok : (reconcile env (afterDrain a p)).1 = true) :
    Landed c a.io.checksumSent (reconcile env (afterDrain a p)).2 := by
  obtain ⟨hframe', hmax'⟩ := reconcile_afterDrain_counters env p a
  obtain ⟨hframe, hver, -⟩ := afterDrain_fields a p
  have htarget : (reconcile env (afterDrain a p)).2.session.verified =
      (afterDrain a p).session.target :=
    (reconcile_counters env (afterDrain a p)).2.2.2.trans (if_pos hok)
  have hver' := htarget
  rw [RollbackSession.target, hver, hframe] at hver'
  have hlt := h.verified_lt
  refine ⟨?_, hmax'.symm ▸ h.prediction_pos, by omega, ?_, ?_⟩
  · exact reconcile_ready env (p := afterDrain a p) h.ready hcap
  · exact fun k hk hkf => stocked_reconcile env h.stocked a (by omega) (by omega)
  · intro v hv hreached hdvd
    rcases Nat.lt_or_ge p.session.verified v with hnew | hold
    · -- A checkpoint above the old `verified_` is the one the tick lands on.
      have hland := hkeeps.1 hdrains
      have heqv : v = (reconcile env (afterDrain a p)).2.session.verified := by
        simp only [checksumEvery] at hland hdvd
        omega
      refine Or.inr ⟨heqv, hkeeps.2 hdrains ?_ ?_⟩
      · exact htarget ▸ heqv ▸ hnew
      · exact htarget ▸ heqv ▸ hdvd
    · exact Or.inl (checksumSent_reconcile env (h.covered v hv hold hdvd) a)

/-- A reconcile step that fails verifies nothing. -/
theorem Covered.refused {p : RollbackPeer κ β} (hcap : SerializeCapable env.core c)
    (h : Covered c p) (a : TickCall) (hfail : ¬(reconcile env (afterDrain a p)).1 = true) :
    Covered c (reconcile env (afterDrain a p)).2 := by
  obtain ⟨hframe, hmax⟩ := reconcile_afterDrain_counters env p a
  have hver : (reconcile env (afterDrain a p)).2.session.verified = p.session.verified := by
    rw [(reconcile_counters env (afterDrain a p)).2.2.2, if_neg hfail]
    exact (afterDrain_fields a p).2.1
  refine ⟨?_, hmax.symm ▸ h.prediction_pos, ?_, ?_, ?_⟩
  · exact reconcile_ready env (p := afterDrain a p) h.ready hcap
  · rw [hver, hframe]
    exact h.verified_lt
  · exact fun k hk hkf =>
      stocked_reconcile env h.stocked a (hver.symm.trans_le hk) (hkf.trans_eq hframe)
  · exact fun v hv hle hdvd =>
      checksumSent_reconcile env (h.covered v hv (hle.trans_eq hver) hdvd) a

/-- A tick that ends before its reconcile step keeps the snapshots and what was sent. -/
theorem Covered.cut {p q : RollbackPeer κ β} (h : Covered c p) (hcut : Cut p q) : Covered c q := by
  obtain ⟨hframe, hmax, hver⟩ := hcut.counters
  refine ⟨hcut.world.symm ▸ h.ready, hmax.symm ▸ h.prediction_pos, ?_, ?_, ?_⟩
  · rw [hver, hframe]
    exact h.verified_lt
  · intro k hk hkf
    rw [hcut.ring]
    exact h.stocked k (hver.symm.trans_le hk) (hkf.trans_eq hframe)
  · intro v hv hle hdvd
    obtain ⟨crc, hmem⟩ := h.covered v hv (hle.trans_eq hver) hdvd
    exact ⟨crc, (hcut.sent _).mpr hmem⟩

/-- One tick keeps coverage, provided it lands on the checkpoints it passes and the transport takes
their checksums. -/
theorem tickCall_covered {p : RollbackPeer κ β} {a : TickCall} (hcap : SerializeCapable env.core c)
    (h : Covered c p) (hkeeps : KeepsCheckpoints p a) : Covered c (tickCall env a p).2 := by
  by_cases hdrains : Drains p a
  · rw [tickCall_of_drains env hdrains]
    split_ifs with hok
    · have hlanded := h.landed env hcap hdrains hkeeps hok
      refine stallOrRun_covered env hcap a.localNow a.wantPixels hlanded ?_
      -- What a stalled tick has received and simulated, it has verified.
      obtain ⟨hframe, hver, -⟩ := afterDrain_fields a p
      obtain ⟨hframe', -, hrec', hver'⟩ := reconcile_counters env (afterDrain a p)
      rw [if_pos hok, RollbackSession.target, hver, hframe] at hver'
      have hlt := h.verified_lt
      omega
    · exact h.refused env hcap a hok
  · exact h.cut (cut_of_not_drains env hdrains).2

/-- In every run whose ticks land on the checkpoints they pass, and in which the transport takes
their checksums, a checksum has been sent for every checkpoint up to the verified frame. -/
theorem checkpoints_sent (hcap : SerializeCapable env.core c) {isHost : Bool} {agreed : UInt32}
    {w : World κ β} (hw : DrivenReady c w.rt) {as : List TickCall} {p : RollbackPeer κ β}
    (hrun : (tickMachine env).Run KeepsCheckpoints (begin isHost agreed w) as p) {v : ℕ}
    (hv : 0 < v) (hle : v ≤ p.session.verified) (hdvd : v % checksumEvery = 0) :
    p.ChecksumSent v := by
  have h : Covered c p := by
    refine hrun.invariant (I := fun p => Covered c p) (covered_begin isHost agreed hw) ?_
    intro p a q hp hkeeps hstep
    obtain rfl : (tickCall env a p).2 = q := Option.some.inj hstep
    exact tickCall_covered env hcap hp hkeeps
  exact h.covered v hv hle hdvd

instance (p : RollbackPeer κ β) (a : TickCall) : Decidable (LandsOnCheckpoints p a) :=
  inferInstanceAs (Decidable (_ → _))

instance (p : RollbackPeer κ β) (a : TickCall) : Decidable (ChecksumTaken p a) :=
  inferInstanceAs (Decidable (_ → _ → _ → _))

instance (p : RollbackPeer κ β) (a : TickCall) : Decidable (KeepsCheckpoints p a) :=
  inferInstanceAs (Decidable (_ ∧ _))

/-- Every tick delivers the input of the frame before, and the checkpoint at frame 60 is sent. -/
theorem checkpoints_sent_steady :
    ∃ p, (tickMachine RefCoreRollback.env).exec KeepsCheckpoints
        (begin true 8 RefCoreRollback.loaded)
        (.delivering .neutral [] ::
          (List.range 60).map fun f => .delivering .neutral [.input ⟨f, 1, .neutral⟩]) = some p ∧
      p.ChecksumSent 60 := by
  have hany : ((tickMachine RefCoreRollback.env).exec KeepsCheckpoints
      (begin true 8 RefCoreRollback.loaded)
      (.delivering .neutral [] ::
        (List.range 60).map fun f => .delivering .neutral [.input ⟨f, 1, .neutral⟩])).any
        (fun p => decide (60 ≤ p.session.verified)) = true := by decide +kernel
  obtain ⟨p, hp, hverified⟩ := (Option.any_eq_true _ _).mp hany
  exact ⟨p, hp, checkpoints_sent RefCoreRollback.env (RefCoreRollback.driven 1).serializeCapable
    RefCoreRollback.loaded_live.ready (Machine.run_iff_exec.mpr hp) (by decide)
    (of_decide_eq_true hverified) rfl⟩

/-- After 61 ticks without a message, all 61 remote inputs arrive in order in one tick: it returns
`Ok`, `verified_` goes from 0 to 61, and no checksum of frame 60 has been sent. -/
theorem skips_checkpoint :
    let p := runTicks RefCoreRollback.env (List.replicate 61 (.delivering .neutral []))
      (begin true 100 RefCoreRollback.loaded)
    let q := tickCall RefCoreRollback.env
      (.delivering .neutral ((List.range 61).map fun f => .input ⟨f, 1, .neutral⟩)) p
    q.1 = .ok ∧ q.2.session.verified = 61 ∧ ¬q.2.ChecksumSent 60 := by
  decide +kernel

end RollbackPeer

end RetroPark.Net
