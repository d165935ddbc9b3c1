import RetroPark.Net.Rollback.Checkpoints
import Mathlib.Logic.Relation

/-!
# What an earlier rollback session leaves behind

`start_host` and `start_join` reset the counters of a `RollbackSession` and leave its maps as they
are. A session writes the entries of its local inputs, used inputs and snapshots before it reads
them, and what it concludes from its checksums is overwritten at the end of the tick. Only a
received input that is left over is read, and a snapshot that is left over where the runtime refuses
to take a new one.

* `KeepsSnapshots` says of a runtime that it never refuses one to a session;
* `Restarted` relates a session that was started again to the maps of one that has only been started
  once, and `tick_restarted` is the step of that simulation;
* `ticks_restarted` is a whole run: the two give the same statuses, send the same messages, and run
  the same frames with the same inputs.
-/

namespace RetroPark.Net

open RetroPark.Runtime

/-- The maps of a session other than the received inputs. -/
structure RollbackMaps where
  ring : OrderedMap ℕ Blob := .empty
  locals : OrderedMap ℕ InputState := .empty
  used : OrderedMap ℕ InputState := .empty
  ownCrc : OrderedMap ℕ UInt32 := .empty
  peerCrc : OrderedMap ℕ UInt32 := .empty

namespace RollbackSession

/-- The session with other maps. -/
def withMaps (s : RollbackSession) (m : RollbackMaps) : RollbackSession :=
  { s with
    ring := m.ring
    locals := m.locals
    used := m.used
    ownCrc := m.ownCrc
    peerCrc := m.peerCrc }

/-- A session reads its own maps as it would read the maps `m`, for the snapshots of the frames in
`R`, the local inputs below `n` and the used inputs below `u`. -/
structure Alike (R : ℕ → Prop) (n u : ℕ) (s : RollbackSession) (m : RollbackMaps) : Prop where
  ring : OrderedMap.AgreeOn id R s.ring m.ring
  locals : OrderedMap.AgreeOn id (· < n) s.locals m.locals
  used : OrderedMap.AgreeOn id (· < u) s.used m.used

variable {R : ℕ → Prop} {n u : ℕ} {s : RollbackSession} {m : RollbackMaps}

/-- A message is received in the same way with other maps. -/
theorem Alike.receive (h : Alike R n u s m) (msg : Message) :
    ∃ m', (s.withMaps m).receive msg = (s.receive msg).withMaps m' ∧
      Alike R n u (s.receive msg) m' := by
  cases msg with
  | input i =>
    unfold RollbackSession.receive
    dsimp only
    show ∃ m',
      (if (!s.haveConfirmed || decide (s.confirmed < i.frame)) = true then _ else _) = _ ∧ _
    split_ifs
    · exact ⟨m, rfl, h.ring, h.locals, h.used⟩
    · exact ⟨m, rfl, h.ring, h.locals, h.used⟩
  | checksum c =>
    exact ⟨{ m with peerCrc := m.peerCrc.insert c.frame c.crc }, rfl, h.ring, h.locals, h.used⟩
  | other => exact ⟨m, rfl, h⟩

/-- The drain is the same with other maps. -/
theorem Alike.drain (h : Alike R n u s m) (ms : List Message) :
    ∃ m', (s.withMaps m).drain ms = (s.drain ms).withMaps m' ∧ Alike R n u (s.drain ms) m' := by
  induction ms generalizing s m with
  | nil => exact ⟨m, rfl, h⟩
  | cons msg ms ih =>
    obtain ⟨m₁, heq, h₁⟩ := h.receive msg
    obtain ⟨m₂, heq₂, h₂⟩ := ih h₁
    refine ⟨m₂, ?_, h₂⟩
    exact (congrArg (fun t => RollbackSession.drain t ms) heq).trans heq₂

end RollbackSession

/-! ### Snapshots -/

section Snapshots

variable {κ β : Type} (env : Env κ β)

/-- The runtime has a state to save and does not save it. -/
def Refuses (w : World κ β) : Prop :=
  let size := (serializeSize env).run w
  size.1 ≠ 0 ∧ ((saveState env true size.1).run size.2).1.1 ≠ .ok

/-- The methods of the runtime that a rollback session calls. -/
def calledBySession : ApiCall → Bool
  | .setInput _ _ | .advance _ | .render _ | .serializeSize | .saveState _ _ | .loadState _ => true
  | _ => false

/-- A session can take the runtime from one world to the other. -/
def Reaches : World κ β → World κ β → Prop :=
  Relation.ReflTransGen fun w w' => ∃ a, calledBySession a = true ∧ w' = ((call env a).run w).2

/-- Whatever a session does to the runtime, it does not refuse a snapshot. -/
def KeepsSnapshots (w : World κ β) : Prop := ∀ w', Reaches env w w' → ¬Refuses env w'

variable {env} {w w' : World κ β}

/-- A call that a session makes is one that it can make. -/
theorem reaches_call (a : ApiCall) (ha : calledBySession a = true) :
    Reaches env w ((call env a).run w).2 :=
  .single ⟨a, ha, rfl⟩

/-- Calls after calls are calls. -/
theorem Reaches.trans {w'' : World κ β} (h : Reaches env w w') (h' : Reaches env w' w'') :
    Reaches env w w'' :=
  Relation.ReflTransGen.trans h h'

/-- A runtime that keeps its snapshots does so after the calls of a session. -/
theorem KeepsSnapshots.of_reaches (h : KeepsSnapshots env w) (hreach : Reaches env w w') :
    KeepsSnapshots env w' :=
  fun w'' h' => h w'' (hreach.trans h')

end Snapshots

namespace RollbackPeer

open RollbackSession

variable {κ β : Type} (env : Env κ β) {R : ℕ → Prop} {n u : ℕ} {p : RollbackPeer κ β}
  {m : RollbackMaps}

/-- The peer with other maps. -/
def withMaps (p : RollbackPeer κ β) (m : RollbackMaps) : RollbackPeer κ β :=
  { p with session := p.session.withMaps m }

/-! ### What a session does to the runtime -/

/-- A snapshot takes calls of the session only. -/
theorem saveRing_reaches (f : ℕ) (p : RollbackPeer κ β) :
    Reaches env p.world (saveRing env f p).world := by
  have hsize : Reaches env p.world ((serializeSize env).run p.world).2 :=
    reaches_call .serializeSize rfl
  have hsave := hsize.trans
    (reaches_call (.saveState true ((serializeSize env).run p.world).1) rfl)
  unfold saveRing
  dsimp only
  split_ifs
  · exact hsize
  · exact hsave
  · exact hsave

/-- A frame takes calls of the session only. -/
theorem runFrame_reaches (f : ℕ) (lin : InputState) (emit : Bool) (p : RollbackPeer κ β) :
    Reaches env p.world (runFrame env f lin emit p).2.world :=
  ((reaches_call (.setInput p.session.localPort lin) rfl).trans
    (reaches_call (.setInput p.session.remotePort (p.session.remoteInput f)) rfl)).trans
    (reaches_call (.advance emit) rfl)

/-- A resimulation takes calls of the session only. -/
theorem resimulate_reaches (n f : ℕ) (p : RollbackPeer κ β) :
    Reaches env p.world (resimulate env n f p).2.world := by
  induction n generalizing f p with
  | zero => exact Relation.ReflTransGen.refl
  | succ n ih =>
    have hrun := runFrame_reaches env f (p.session.locals.index f .neutral).1 false
      { p with session.locals := (p.session.locals.index f .neutral).2 }
    rw [resimulate]
    dsimp only
    split_ifs
    · exact hrun
    · exact (hrun.trans (saveRing_reaches env (f + 1) _)).trans (ih (f + 1) _)

/-- A rollback takes calls of the session only. -/
theorem rollBack_reaches (g : ℕ) (p : RollbackPeer κ β) :
    Reaches env p.world (rollBack env g p).2.world := by
  have hload : Reaches env p.world
      ((loadState env (p.session.ring.index g []).1).run p.world).2 :=
    reaches_call (.loadState (p.session.ring.index g []).1) rfl
  unfold rollBack
  dsimp only
  split_ifs
  · exact hload
  · exact hload.trans (resimulate_reaches env _ g { p with session.ring := _, world := _ })
  · exact hload.trans (resimulate_reaches env _ g { p with session.ring := _, world := _ })

/-- A reconciliation takes calls of the session only. -/
theorem reconcile_reaches (p : RollbackPeer κ β) :
    Reaches env p.world (reconcile env p).2.world := by
  rcases reconcile_cases env p with ⟨-, heq⟩ | ⟨-, -, -, heq⟩ | ⟨g, -, -, -, -, heq⟩
  · exact heq ▸ Relation.ReflTransGen.refl
  · exact heq ▸ Relation.ReflTransGen.refl
  · rw [heq]
    split_ifs <;> exact rollBack_reaches env g p

/-! ### Saving and running frames -/

/-- A snapshot is taken in the same way with other maps. -/
theorem saveRing_alike (h : Alike R n u p.session m) (f : ℕ) {S : ℕ → Prop}
    (hR : ∀ k, S k → R k ∨ k = f ∧ ¬Refuses env p.world) :
    ∃ m', saveRing env f (p.withMaps m) = (saveRing env f p).withMaps m' ∧
      Alike S n u (saveRing env f p).session m' := by
  have hinsert : ∀ b, Alike S n u { p.session with ring := p.session.ring.insert f b }
      { m with ring := m.ring.insert f b } := fun b =>
    { h with ring := h.ring.insert_of (fun k hk => (hR k hk).imp_right And.left) b }
  have hworld : (p.withMaps m).world = p.world := rfl
  unfold saveRing
  rw [hworld]
  dsimp only
  split_ifs with hsize hsaved
  · exact ⟨_, rfl, hinsert _⟩
  · exact ⟨_, rfl, hinsert _⟩
  · -- Nothing is saved, and then both rings must agree already.
    exact ⟨m, rfl, { h with ring := h.ring.mono fun k hk =>
      (hR k hk).resolve_right fun hnot => hnot.2 ⟨hsize, hsaved⟩ }⟩

/-- A frame is run in the same way with other maps. -/
theorem runFrame_alike (h : Alike R n u p.session m) (f : ℕ) (lin : InputState) (emit : Bool)
    {v : ℕ} (hu : ∀ k, k < v → k < u ∨ k = f) :
    ∃ m', runFrame env f lin emit (p.withMaps m) =
        ((runFrame env f lin emit p).1, (runFrame env f lin emit p).2.withMaps m') ∧
      Alike R n v (runFrame env f lin emit p).2.session m' :=
  ⟨{ m with used := m.used.insert f (p.session.remoteInput f) }, rfl,
    { h with used := h.used.insert_of hu _ }⟩

/-- Resimulating reads local inputs the session has recorded itself. -/
theorem resimulate_alike (h : Alike R n u p.session m) {f l : ℕ} (hle : f + l ≤ n) :
    ∃ m', resimulate env l f (p.withMaps m) =
        ((resimulate env l f p).1, (resimulate env l f p).2.withMaps m') ∧
      Alike R n u (resimulate env l f p).2.session m' := by
  induction l generalizing f p m with
  | zero => exact ⟨m, rfl, h⟩
  | succ l ih =>
    -- The local input of a frame below `n` is the same on both sides.
    obtain ⟨hvalue, hlocals⟩ := h.locals.index (k := f) (by omega) .neutral
    obtain ⟨m₁, hrun, h₁⟩ := runFrame_alike env
      (p := { p with session.locals := (p.session.locals.index f .neutral).2 })
      (m := { m with locals := (m.locals.index f .neutral).2 }) { h with locals := hlocals } f
      (p.session.locals.index f .neutral).1 false (v := u) fun _ hk => Or.inl hk
    obtain ⟨m₂, hsave, h₂⟩ := saveRing_alike env h₁ (f + 1) (S := R) fun _ hk => Or.inl hk
    obtain ⟨m₃, hrest, h₃⟩ := ih h₂ (f := f + 1) (by omega)
    have hrun' : runFrame env f ((p.withMaps m).session.locals.index f .neutral).1 false
        { p.withMaps m with
          session.locals := ((p.withMaps m).session.locals.index f .neutral).2 } = _ :=
      (congrArg (fun i => runFrame env f i false _) hvalue.symm).trans hrun
    rw [resimulate, resimulate]
    dsimp only
    rw [hrun']
    dsimp only
    split_ifs
    · exact ⟨m₁, rfl, h₁.ring, h₁.locals, h₁.used⟩
    · rw [hsave, hrest]
      exact ⟨m₃, rfl, h₃⟩

/-- A session rolls back to a frame whose snapshot it has taken itself. -/
theorem rollBack_alike (h : Alike R n u p.session m) {g : ℕ} (hg : R g)
    (hgle : g ≤ p.session.frame) (hn : p.session.frame ≤ n) :
    ∃ m', rollBack env g (p.withMaps m) =
        ((rollBack env g p).1, (rollBack env g p).2.withMaps m') ∧
      Alike R n u (rollBack env g p).2.session m' := by
  -- Both load the same snapshot, so both runtimes are the same after it.
  obtain ⟨hsnap, hring⟩ := h.ring.index hg []
  obtain ⟨m₁, hrun, h₁⟩ := resimulate_alike env
    (p := { p with
      session.ring := (p.session.ring.index g []).2
      world := ((loadState env (p.session.ring.index g []).1).run p.world).2 })
    (m := { m with ring := (m.ring.index g []).2 }) { h with ring := hring } (f := g)
    (l := p.session.frame - g) (by omega)
  have hload : (loadState env ((p.withMaps m).session.ring.index g []).1).run (p.withMaps m).world =
      (loadState env (p.session.ring.index g []).1).run p.world :=
    congrArg (fun b => (loadState env b).run p.world) hsnap.symm
  have hrun' : resimulate env ((p.withMaps m).session.frame - g) g
      { p.withMaps m with
        session.ring := ((p.withMaps m).session.ring.index g []).2
        world := ((loadState env (p.session.ring.index g []).1).run p.world).2 } = _ := hrun
  unfold rollBack
  dsimp only
  rw [hload, hrun']
  dsimp only
  split_ifs
  · exact ⟨{ m with ring := (m.ring.index g []).2 }, rfl, hring, h.locals, h.used⟩
  · exact ⟨m₁, rfl, h₁.ring, h₁.locals, h₁.used⟩
  · exact ⟨m₁, rfl, h₁⟩

/-- A reconcile reads inputs used by the session itself. -/
theorem reconcile_alike (h : Alike R n u p.session m) (hR : ∀ k, k < p.session.frame → R k)
    (hn : p.session.frame ≤ n) (hu : p.session.frame ≤ u) :
    ∃ m', reconcile env (p.withMaps m) =
        ((reconcile env p).1, (reconcile env p).2.withMaps m') ∧
      Alike R n u (reconcile env p).2.session m' := by
  unfold reconcile
  dsimp only
  by_cases hc : (p.session.haveConfirmed && decide (0 < p.session.frame)) = true
  · have hc' : ((p.withMaps m).session.haveConfirmed &&
        decide (0 < (p.withMaps m).session.frame)) = true := hc
    rw [if_pos hc, if_pos hc']
    by_cases hle : p.session.verified ≤ p.session.reconcileEnd
    · have hle' : (p.withMaps m).session.verified ≤ (p.withMaps m).session.reconcileEnd := hle
      have hlast : p.session.reconcileEnd < p.session.frame := by
        have hpos : 0 < p.session.frame := of_decide_eq_true (Bool.and_eq_true_iff.mp hc).2
        unfold reconcileEnd
        split_ifs <;> omega
      -- The scan reads the inputs used for frames below the current one only.
      have hscan : rbFirstMispredicted (p.withMaps m).session.remotes
          (p.withMaps m).session.used (p.withMaps m).session.verified
          (p.withMaps m).session.reconcileEnd =
          rbFirstMispredicted p.session.remotes p.session.used p.session.verified
            p.session.reconcileEnd :=
        (rbFirstMispredicted_congr fun k hk => h.used k (hk.trans_lt (hlast.trans_le hu))).symm
      rw [if_pos hle, if_pos hle', hscan]
      cases hfind : rbFirstMispredicted p.session.remotes p.session.used p.session.verified
          p.session.reconcileEnd with
      | none => exact ⟨m, rfl, h.ring, h.locals, h.used⟩
      | some g =>
        have hg : g < p.session.frame := (mispredicted_of_some hfind).2.1.trans_lt hlast
        obtain ⟨m₁, hroll, h₁⟩ := rollBack_alike env h (hR g hg) hg.le hn
        dsimp only
        rw [hroll]
        dsimp only
        split_ifs
        · exact ⟨m₁, rfl, h₁.ring, h₁.locals, h₁.used⟩
        · exact ⟨m₁, rfl, h₁⟩
    · have hle' : ¬(p.withMaps m).session.verified ≤ (p.withMaps m).session.reconcileEnd := hle
      rw [if_neg hle, if_neg hle']
      exact ⟨m, rfl, h⟩
  · have hc' : ¬((p.withMaps m).session.haveConfirmed &&
        decide (0 < (p.withMaps m).session.frame)) = true := hc
    rw [if_neg hc, if_neg hc']
    exact ⟨m, rfl, h⟩

/-- What the check for a desync concludes does not outlast the tick. -/
theorem checkDesync_prune (s : RollbackSession) (status : RbStatus) :
    { s.checkDesync.prune with status } = { s.prune with status } := by
  unfold checkDesync
  split_ifs <;> rfl

/-- The end of a tick reads the snapshot of the verified frame. What the checksums say is
overwritten. -/
theorem finish_alike (h : Alike R n u p.session m)
    (hverified : p.session.verified = 0 ∨ R p.session.verified) (status : RbStatus)
    (checksumSent : Bool) :
    ∃ m', finish status checksumSent (p.withMaps m) =
        ((finish status checksumSent p).1, (finish status checksumSent p).2.withMaps m') ∧
      Alike R n u (finish status checksumSent p).2.session m' := by
  -- The checksum sent is of a snapshot both sessions hold.
  have hchecksum : ∃ own, maybeSendChecksum checksumSent (p.withMaps m) =
      (maybeSendChecksum checksumSent p).withMaps { m with ownCrc := own } := by
    unfold maybeSendChecksum
    dsimp only
    by_cases hskip : p.session.verified = 0 ∨ p.session.verified % checksumEvery ≠ 0
    · have hskip' : (p.withMaps m).session.verified = 0 ∨
          (p.withMaps m).session.verified % checksumEvery ≠ 0 := hskip
      rw [if_pos hskip, if_pos hskip']
      exact ⟨m.ownCrc, rfl⟩
    · have hskip' : ¬((p.withMaps m).session.verified = 0 ∨
          (p.withMaps m).session.verified % checksumEvery ≠ 0) := hskip
      have hfind : p.session.ring.find? p.session.verified =
          (p.withMaps m).session.ring.find? (p.withMaps m).session.verified :=
        h.ring _ (hverified.resolve_left (not_or.mp hskip).1)
      rw [if_neg hskip, if_neg hskip', ← hfind]
      cases p.session.ring.find? p.session.verified with
      | none => exact ⟨m.ownCrc, rfl⟩
      | some state => exact ⟨_, rfl⟩
  obtain ⟨own, hown⟩ := hchecksum
  refine ⟨{ ring := m.ring.eraseBelow p.session.floor, locals := m.locals.eraseBelow p.session.floor
            used := m.used.eraseBelow p.session.floor, ownCrc := own, peerCrc := m.peerCrc }, ?_,
              ?_⟩
  · have hfloor : (maybeSendChecksum checksumSent p).session.floor = p.session.floor := by
      rcases maybeSendChecksum_cases checksumSent p with ⟨heq, -⟩ | ⟨_, -, -, -, heq⟩
      · rw [heq]
      · rw [heq]
        rfl
    unfold finish
    dsimp only
    -- The status the desync check leaves is overwritten.
    rw [hown, checkDesync_prune, checkDesync_prune, ← hfloor]
    rfl
  · rw [finish_session]
    exact ⟨h.ring.eraseBelow _, h.locals.eraseBelow _, h.used.eraseBelow _⟩

/-! ### A tick -/

/-- A session that was started again, beside the maps `m` of one that was only started once. Where
the runtime may refuse snapshots, there is none left over (`agree`). -/
structure Restarted (agree : Prop) (p : RollbackPeer κ β) (m : RollbackMaps) : Prop where
  alike : Alike (fun k => agree ∨ k < p.session.frame) p.session.frame p.session.frame p.session m
  snapshots : agree ∨ KeepsSnapshots env p.world
  verified_le : p.session.verified ≤ min p.session.received p.session.frame
  prediction_pos : 0 < p.session.maxPrediction.toNat

variable {env} {agree : Prop}

/-- A session that stalls has verified less than it has simulated. -/
theorem verified_lt_of_stalls
    (hverified : p.session.verified ≤ min p.session.received p.session.frame)
    (hpos : 0 < p.session.maxPrediction.toNat)
    (hstall : p.session.maxPrediction.toNat ≤ p.session.ahead) :
    p.session.verified < p.session.frame := by
  rw [ahead_eq] at hstall
  split_ifs at hstall with h0
  · omega
  · omega

/-- The end of a tick is the same with other maps. -/
theorem finish_restarted (h : Restarted env agree p m)
    (hverified : p.session.verified = 0 ∨ agree ∨ p.session.verified < p.session.frame)
    (status : RbStatus) (checksumSent : Bool) :
    ∃ m', finish status checksumSent (p.withMaps m) =
        ((finish status checksumSent p).1, (finish status checksumSent p).2.withMaps m') ∧
      Restarted env agree (finish status checksumSent p).2 m' := by
  obtain ⟨m', heq, hfinish⟩ := finish_alike h.alike hverified status checksumSent
  have hsession := finish_session status checksumSent p
  have hframe : (finish status checksumSent p).2.session.frame = p.session.frame := by
    rw [hsession]
    rfl
  have hworld : (finish status checksumSent p).2.world = p.world :=
    maybeSendChecksum_world checksumSent p
  refine ⟨m', heq, ?_, ?_, ?_, ?_⟩
  · rw [hframe]
    exact hfinish
  · rw [hworld]
    exact h.snapshots
  · rw [hsession]
    exact h.verified_le
  · rw [hsession]
    exact h.prediction_pos

/-- The second half of a tick is the same with other maps. -/
theorem stallOrRun_restarted (h : Restarted env agree p m)
    (hlocals : OrderedMap.AgreeOn id (· < p.session.frame + 1) p.session.locals m.locals)
    (localNow : InputState) (wantPixels checksumSent : Bool) :
    ∃ m', stallOrRun env localNow wantPixels checksumSent (p.withMaps m) =
        ((stallOrRun env localNow wantPixels checksumSent p).1,
          (stallOrRun env localNow wantPixels checksumSent p).2.withMaps m') ∧
      Restarted env agree (stallOrRun env localNow wantPixels checksumSent p).2 m' := by
  have hrender : ∀ w, agree ∨ KeepsSnapshots env w →
      agree ∨ KeepsSnapshots env ((render env wantPixels).run w).2 := fun w hw =>
    hw.imp_right fun hkeeps => hkeeps.of_reaches (reaches_call (.render wantPixels) rfl)
  unfold stallOrRun
  dsimp only
  by_cases hstall : p.session.maxPrediction.toNat ≤ p.session.ahead
  · have hstall' : (p.withMaps m).session.maxPrediction.toNat ≤
      (p.withMaps m).session.ahead := hstall
    -- The snapshot a stalled tick may send is of a frame it has run itself.
    have hlt := verified_lt_of_stalls h.verified_le h.prediction_pos hstall
    rw [if_pos hstall, if_pos hstall']
    exact finish_restarted
      (p := { p with world := ((render env wantPixels).run p.world).2 })
      ⟨h.alike, hrender _ h.snapshots, h.verified_le, h.prediction_pos⟩ (Or.inr (Or.inr hlt))
      .stalled checksumSent
  · have hstall' : ¬(p.withMaps m).session.maxPrediction.toNat ≤
      (p.withMaps m).session.ahead := hstall
    -- The snapshot of the frame replaces one that is left over, unless none is.
    obtain ⟨m₁, hsave, h₁⟩ := saveRing_alike env (n := p.session.frame + 1)
      { h.alike with locals := hlocals } p.session.frame
      (S := fun k => agree ∨ k < p.session.frame + 1) (by
        rintro k (hk | hk)
        · exact Or.inl (Or.inl hk)
        · rcases Nat.lt_or_eq_of_le (Nat.le_of_lt_succ hk) with hlt | heq
          · exact Or.inl (Or.inr hlt)
          · rcases h.snapshots with hagree | hkeeps
            · exact Or.inl (Or.inl hagree)
            · exact Or.inr ⟨heq, hkeeps p.world .refl⟩)
    obtain ⟨m₂, hrun, h₂⟩ := runFrame_alike env h₁ p.session.frame localNow true
      (v := p.session.frame + 1) fun k hk => Nat.lt_succ_iff_lt_or_eq.mp hk
    have hreach := (saveRing_reaches env p.session.frame p).trans
      (runFrame_reaches env p.session.frame localNow true (saveRing env p.session.frame p))
    have hsame := (saveRing_sameOutline env p.session.frame p).trans
      (runFrame_sameOutline env p.session.frame localNow true (saveRing env p.session.frame p))
    have hsave' : saveRing env (p.withMaps m).session.frame (p.withMaps m) = _ := hsave
    have hrun' : runFrame env (p.withMaps m).session.frame localNow true
        ((saveRing env p.session.frame p).withMaps m₁) = _ := hrun
    rw [if_neg hstall, if_neg hstall', hsave', hrun']
    generalize runFrame env p.session.frame localNow true (saveRing env p.session.frame p) = r at *
    obtain ⟨hframe, hprediction, hreceived, hverified⟩ := counters_of_outline hsame.outline
    have hle : r.2.session.verified ≤ min r.2.session.received r.2.session.frame := by
      rw [hverified, hreceived, hframe]
      exact h.verified_le
    have hpos : 0 < r.2.session.maxPrediction.toNat := hprediction ▸ h.prediction_pos
    have hsnapshots := h.snapshots.imp_right fun hkeeps => hkeeps.of_reaches hreach
    dsimp only
    split_ifs
    · refine ⟨m₂, rfl, ⟨?_, ?_, ?_⟩, hsnapshots, hle, hpos⟩
      · exact h₂.ring.mono fun k hk => hk.imp_right fun hlt => hframe ▸ Nat.lt_succ_of_lt hlt
      · exact h₂.locals.mono fun k hk => Nat.lt_succ_of_lt (hframe ▸ hk)
      · exact h₂.used.mono fun k hk => Nat.lt_succ_of_lt (hframe ▸ hk)
    · refine finish_restarted
        (p := { r.2 with
          world := ((render env wantPixels).run r.2.world).2
          session.frame := p.session.frame + 1 })
        ⟨⟨h₂.ring, h₂.locals, h₂.used⟩, hrender _ hsnapshots, ?_, hpos⟩ (Or.inr (Or.inr ?_)) .ok
        checksumSent
      · exact hle.trans (min_le_min_left _ (hframe ▸ Nat.le_succ _))
      · exact Nat.lt_succ_of_le (hframe ▸ hle.trans (min_le_right _ _))

/-- The input of a tick is sent in the same way with other maps. -/
theorem sendInput_alike (h : Restarted env agree p m) (localNow : InputState) (inputSent : Bool) :
    ∃ m', sendInput localNow inputSent (p.withMaps m) =
        (sendInput localNow inputSent p).withMaps m' ∧
      Alike (fun k => agree ∨ k < p.session.frame) (p.session.frame + 1) p.session.frame
        (sendInput localNow inputSent p).session m' :=
  ⟨{ m with locals := m.locals.insert p.session.frame localNow }, rfl,
    { h.alike with
      locals := h.alike.locals.insert_of (fun _ hk => Nat.lt_succ_iff_lt_or_eq.mp hk) localNow }⟩

/-- A moment of the tick at which nothing has been simulated yet. -/
theorem Restarted.moved {q : RollbackPeer κ β} {m' : RollbackMaps} (h : Restarted env agree p m)
    (halike : Alike (fun k => agree ∨ k < p.session.frame) (p.session.frame + 1) p.session.frame
      q.session m') (hreach : Reaches env p.world q.world)
    (hframe : q.session.frame = p.session.frame)
    (hprediction : q.session.maxPrediction = p.session.maxPrediction)
    (hverified : q.session.verified ≤ min q.session.received q.session.frame) :
    Restarted env agree q m' where
  alike := by
    rw [hframe]
    exact { halike with locals := halike.locals.mono fun _ hk => Nat.lt_succ_of_lt hk }
  snapshots := h.snapshots.imp_right fun hkeeps => hkeeps.of_reaches hreach
  verified_le := hverified
  prediction_pos := hprediction ▸ h.prediction_pos

/-- What follows the drain. -/
theorem reconciled_restarted {q : RollbackPeer κ β} {m' : RollbackMaps}
    (h : Restarted env agree p m)
    (halike : Alike (fun k => agree ∨ k < p.session.frame) (p.session.frame + 1) p.session.frame
      q.session m') (hreach : Reaches env p.world q.world)
    (hframe : q.session.frame = p.session.frame)
    (hprediction : q.session.maxPrediction = p.session.maxPrediction)
    (hverified : q.session.verified ≤ min q.session.received q.session.frame)
    (localNow : InputState) (wantPixels checksumSent : Bool) :
    ∃ m'', (if (reconcile env (q.withMaps m')).1 then
          stallOrRun env localNow wantPixels checksumSent (reconcile env (q.withMaps m')).2
        else (.desync, (reconcile env (q.withMaps m')).2)) =
        ((if (reconcile env q).1 then
            stallOrRun env localNow wantPixels checksumSent (reconcile env q).2
          else (.desync, (reconcile env q).2)).1,
          (if (reconcile env q).1 then
            stallOrRun env localNow wantPixels checksumSent (reconcile env q).2
          else (.desync, (reconcile env q).2)).2.withMaps m'') ∧
      Restarted env agree (if (reconcile env q).1 then
          stallOrRun env localNow wantPixels checksumSent (reconcile env q).2
        else (.desync, (reconcile env q).2)).2 m'' := by
  obtain ⟨m₃, hrec, h₃⟩ := reconcile_alike env halike (fun k hk => Or.inr (hframe ▸ hk))
    (hframe ▸ Nat.le_succ _) hframe.le
  obtain ⟨hframe', hprediction', hreceived', hverified'⟩ := reconcile_counters env q
  have hframe₂ := hframe'.trans hframe
  have hrest : Restarted env agree (reconcile env q).2 m₃ := by
    refine h.moved h₃ (hreach.trans (reconcile_reaches env q)) hframe₂
      (hprediction'.trans hprediction) ?_
    -- The verified frame moves up to the frames at hand at most.
    rw [hverified', hreceived', hframe']
    split_ifs
    · exact max_le hverified le_rfl
    · exact hverified
  rw [hrec]
  generalize reconcile env q = r at *
  obtain ⟨goesOn, r⟩ := r
  cases goesOn with
  | true =>
    exact stallOrRun_restarted hrest (h₃.locals.mono fun k hk => hframe₂ ▸ hk) localNow wantPixels
      checksumSent
  | false => exact ⟨m₃, rfl, hrest⟩

/-- A tick is the same with other maps. -/
theorem tick_restarted (h : Restarted env agree p m) (a : TickCall) :
    ∃ m', tickCall env a (p.withMaps m) =
        ((tickCall env a p).1, (tickCall env a p).2.withMaps m') ∧
      Restarted env agree (tickCall env a p).2 m' := by
  unfold tickCall tick
  by_cases hstatus : p.session.status = .disconnected
  · have hstatus' : (p.withMaps m).session.status = .disconnected := hstatus
    rw [if_pos hstatus, if_pos hstatus']
    exact ⟨m, rfl, h⟩
  have hstatus' : ¬(p.withMaps m).session.status = .disconnected := hstatus
  -- Sending and draining move neither the frame nor the verified one.
  obtain ⟨hframe, hverified, hprediction, -, -, hreceived⟩ := afterDrain_fields a p
  have hle : (afterDrain a p).session.verified ≤
      min (afterDrain a p).session.received (afterDrain a p).session.frame := by
    rw [hverified, hframe]
    exact h.verified_le.trans (min_le_min_right _ hreceived)
  rw [if_neg hstatus, if_neg hstatus']
  cases a.io.inputSent with
  | false =>
    obtain ⟨m₁, hsend, h₁⟩ := sendInput_alike h a.localNow false
    rw [hsend]
    exact ⟨m₁, rfl, h.moved (q := (leave .disconnected (sendInput a.localNow false p)).2)
      ⟨h₁.ring, h₁.locals, h₁.used⟩ .refl rfl rfl h.verified_le⟩
  | true =>
    obtain ⟨m₁, hsend, h₁⟩ := sendInput_alike h a.localNow true
    obtain ⟨m₂, hdrain, h₂⟩ := h₁.drain a.io.drained
    have hdrain' : ((sendInput a.localNow true p).withMaps m₁).session.drain a.io.drained = _ :=
      hdrain
    rw [hsend, if_pos rfl, if_pos rfl, tickRest, tickRest, hdrain']
    dsimp only
    cases a.io.recvFailed with
    | true =>
      exact ⟨m₂, rfl, h.moved (q := (leave .disconnected (afterDrain a p)).2)
        ⟨h₂.ring, h₂.locals, h₂.used⟩ .refl hframe hprediction hle⟩
    | false =>
      rw [if_neg Bool.false_ne_true, if_neg Bool.false_ne_true]
      exact reconciled_restarted h (q := afterDrain a p) h₂ .refl hframe hprediction hle a.localNow
        a.wantPixels a.io.checksumSent

/-! ### A run of ticks -/

/-- The statuses a list of ticks returns, and the peer after them. -/
def ticks (env : Env κ β) : List TickCall → RollbackPeer κ β → List RbStatus × RollbackPeer κ β
  | [], p => ([], p)
  | a :: calls, p =>
      let r := tickCall env a p
      let rest := ticks env calls r.2
      (r.1 :: rest.1, rest.2)

/-- All ticks are the same with other maps. -/
theorem ticks_restarted (h : Restarted env agree p m) (calls : List TickCall) :
    ∃ m', ticks env calls (p.withMaps m) =
      ((ticks env calls p).1, (ticks env calls p).2.withMaps m') := by
  induction calls generalizing p m with
  | nil => exact ⟨m, rfl⟩
  | cons a calls ih =>
    obtain ⟨m₁, htick, h₁⟩ := tick_restarted h a
    obtain ⟨m₂, hticks⟩ := ih h₁
    refine ⟨m₂, ?_⟩
    rw [ticks, ticks, htick, hticks]

end RollbackPeer

/-! ### A ready core -/

section Ready

variable {κ β : Type} {env : Env κ β} {c : CorePtr} {w w' : World κ β}

/-- A buffer that is too small, or none at all, is refused before the core is asked for its
state. -/
theorem saveState_keepsReady (h : DrivenReady c w.rt) (buf : Bool) (size : ℕ) :
    DrivenReady c ((saveState env buf size).run w).2.rt := by
  obtain ⟨w₁, hrun₁, hrt₁, -⟩ := serializeSize_ready env h
  obtain ⟨w₂, hrun₂, hrt₂, -⟩ :=
    serialize_ready env (h.congr hrt₁) (env.core.serializeSize w.core c).value
  cases buf with
  | false => exact h
  | true =>
    unfold saveState
    rw [if_neg (by simp), run_bind_of_eq hrun₁]
    split_ifs
    · exact h.congr hrt₁
    · exact h.congr hrt₁
    · rw [hrun₂]
      exact h.congr (hrt₂.trans hrt₁)

/-- A session leaves a ready driven core ready. -/
theorem Reaches.ready (h : Reaches env w w') (hready : DrivenReady c w.rt) :
    DrivenReady c w'.rt := by
  -- Induction on the calls; each leaves the core ready.
  induction h with
  | refl => exact hready
  | @tail w₁ _ _ hstep ih =>
    obtain ⟨a, ha, rfl⟩ := hstep
    cases a with
    | setInput port input =>
      obtain ⟨w₂, hrun, hready₂, -⟩ := setInput_ready ih port input
      exact (congrArg Prod.snd hrun : _ = w₂) ▸ hready₂
    | advance emit =>
      obtain ⟨w₂, k, hrun, hready₂, -⟩ := advance_ready env ih emit
      exact (congrArg Prod.snd hrun : _ = w₂) ▸ hready₂
    | render wantPixels =>
      obtain ⟨r, w₂, hrun, hrt, -⟩ := render_ready env ih wantPixels
      exact (congrArg Prod.snd hrun : _ = w₂) ▸ hrt ▸ ih
    | serializeSize =>
      obtain ⟨w₂, hrun, hrt, -⟩ := serializeSize_ready env ih
      exact (congrArg Prod.snd hrun : _ = w₂) ▸ ih.congr hrt
    | saveState buf size => exact saveState_keepsReady ih buf size
    | loadState data =>
      by_cases hdata : data.length = 0
      · obtain rfl := List.length_eq_zero_iff.mp hdata
        exact ih
      · obtain ⟨w₂, hrun, hrt, -⟩ := loadState_ready env ih (Nat.pos_of_ne_zero hdata)
        exact (congrArg Prod.snd hrun : _ = w₂) ▸ ih.congr hrt
    | _ => exact nomatch ha

/-- A runtime with a ready driven core that can be serialized takes every snapshot. -/
theorem keepsSnapshots_of_ready (hready : DrivenReady c w.rt) (hcap : SerializeCapable env.core c) :
    KeepsSnapshots env w := by
  rintro w' hreach ⟨-, hsaved⟩
  have hready' := hreach.ready hready
  obtain ⟨w₁, hrun, hrt, hcore⟩ := serializeSize_ready env hready'
  have hsize : (env.core.serializeSize w₁.core c).value =
      (env.core.serializeSize w'.core c).value := by rw [hcore, hcap.size_again]
  obtain ⟨w₂, hsave, -⟩ := saveState_ready env (hready'.congr hrt) hcap hsize
  refine hsaved ?_
  unfold Runtime.serializeSize
  rw [hrun]
  dsimp only
  rw [hsave]

end Ready

end RetroPark.Net
