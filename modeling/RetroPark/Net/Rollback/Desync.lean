import RetroPark.Net.Rollback.Run
import RetroPark.Runtime.Triples
import RetroPark.Cores.RefCoreRollback

/-!
# Reporting a desync

`check_desync` sets the status to `Desync` in the middle of a tick, and both exits of the tick
after it assign the status again. So a mismatch of checksums is not what makes a tick return
`Desync`: `tickCall_desync_iff` says that only a call of the runtime that fails does. Nothing is
assumed of the session, the runtime, the core or the messages.

* The frame a tick rolls back to is `RollbackSession.rollbackFrame`; `RestoreRefused` says that its
  snapshot is refused, and `Simulates` that the tick gets as far as simulating a frame;
* whether the runtime can run a frame is its `footing`, which a tick does not change.
-/

namespace RetroPark.Net

open RetroPark.Runtime

/-- The frame a reconcile rolls back to, if it has to. -/
def RollbackSession.rollbackFrame (s : RollbackSession) : Option ℕ :=
  if s.haveConfirmed && decide (0 < s.frame) then
    rbFirstMispredicted s.remotes s.used s.verified s.reconcileEnd
  else none

namespace RollbackPeer

variable {κ β : Type} (env : Env κ β)

/-- The snapshot the tick has to roll back to is refused by the runtime. -/
def RestoreRefused (p : RollbackPeer κ β) (a : TickCall) : Prop :=
  Drains p a ∧ ∃ g, (afterDrain a p).session.rollbackFrame = some g ∧
    ((loadState env (p.session.ring.index g []).1).run p.world).1 ≠ .ok

/-- A tick gets as far as simulating a frame: it gets past its drain, and either has to roll back to
a snapshot that is restored, or need not roll back and does not stall. -/
def Simulates (p : RollbackPeer κ β) (a : TickCall) : Prop :=
  Drains p a ∧
    match (afterDrain a p).session.rollbackFrame with
    | some g => ((loadState env (p.session.ring.index g []).1).run p.world).1 = .ok
    | none => (afterDrain a p).session.ahead < p.session.maxPrediction.toNat

instance (p : RollbackPeer κ β) (a : TickCall) : Decidable (Simulates env p a) := by
  unfold Simulates
  cases (afterDrain a p).session.rollbackFrame <;> infer_instance

/-! ### The footing of the runtime -/

theorem saveRing_footing (f : ℕ) (p : RollbackPeer κ β) :
    (saveRing env f p).world.rt.footing = p.world.rt.footing := by
  have hsize := run_of_triple (serializeSize_footing env (b := p.world.rt.footing))
    (w := p.world) rfl
  have hsave := run_of_triple (saveState_footing env (b := p.world.rt.footing) true
    ((serializeSize env).run p.world).1) hsize
  unfold saveRing
  dsimp only
  split_ifs
  · exact hsize
  · exact hsave
  · exact hsave

/-- Running a frame keeps the footing, which decides whether it succeeds. -/
theorem runFrame_footing (f : ℕ) (lin : InputState) (emit : Bool) (p : RollbackPeer κ β) :
    (runFrame env f lin emit p).2.world.rt.footing = p.world.rt.footing ∧
      ((runFrame env f lin emit p).1 = .ok ↔ p.world.rt.footing = (true, true)) := by
  have hlocal := run_of_triple (setInput_footing (b := p.world.rt.footing)
    p.session.localPort lin) (w := p.world) rfl
  have hremote := run_of_triple (setInput_footing (b := p.world.rt.footing)
    p.session.remotePort (p.session.remoteInput f)) hlocal
  have hadvance := run_of_triple (advance_footing env (b := p.world.rt.footing) emit) hremote
  refine ⟨hadvance.1, hadvance.2.trans ?_⟩
  rw [Prod.ext_iff]

/-- Resimulating keeps the footing, which decides whether it succeeds. -/
theorem resimulate_footing (n f : ℕ) (p : RollbackPeer κ β) :
    (resimulate env n f p).2.world.rt.footing = p.world.rt.footing ∧
      ((resimulate env n f p).1 = true ↔ n = 0 ∨ p.world.rt.footing = (true, true)) := by
  induction n generalizing f p with
  | zero => exact ⟨rfl, by simp [resimulate]⟩
  | succ n ih =>
    obtain ⟨hkeep, hok⟩ := runFrame_footing env f (p.session.locals.index f .neutral).1 false
      { p with session.locals := (p.session.locals.index f .neutral).2 }
    rw [resimulate]
    dsimp only
    split_ifs with hfail
    · rw [Ne, hok] at hfail
      exact ⟨hkeep, by simp [hfail]⟩
    · have hsaved := (saveRing_footing env (f + 1) _).trans hkeep
      have hruns : p.world.rt.footing = (true, true) := hok.mp (Decidable.not_not.mp hfail)
      obtain ⟨hrest, hrestOk⟩ := ih (f + 1) (saveRing env (f + 1) _)
      refine ⟨hrest.trans hsaved, ?_⟩
      rw [hrestOk, hsaved]
      simp [hruns]

/-- A rollback keeps the footing. It succeeds exactly if the snapshot is restored by a runtime that
runs frames. -/
theorem rollBack_footing (g : ℕ) (p : RollbackPeer κ β) :
    (rollBack env g p).2.world.rt.footing = p.world.rt.footing ∧
      (g < p.session.frame → ((rollBack env g p).1 = true ↔
        ((loadState env (p.session.ring.index g []).1).run p.world).1 = .ok ∧
          p.world.rt.footing = (true, true))) := by
  have hload := run_of_triple (loadState_footing env (b := p.world.rt.footing)
    (p.session.ring.index g []).1) (w := p.world) rfl
  obtain ⟨hkeep, hok⟩ := resimulate_footing env (p.session.frame - g) g
    { p with session.ring := (p.session.ring.index g []).2
             world := ((loadState env (p.session.ring.index g []).1).run p.world).2 }
  rw [hload] at hkeep hok
  unfold rollBack
  dsimp only
  split_ifs with hrefused hresim
  · exact ⟨hload, fun _ => by simp [hrefused]⟩
  · refine ⟨hkeep, fun _ => ?_⟩
    have hsome := hok.mp hresim
    simp only [true_iff]
    exact ⟨Decidable.not_not.mp hrefused, hsome.resolve_left (by omega)⟩
  · refine ⟨hkeep, fun _ => ?_⟩
    have hnone : ¬p.world.rt.footing = (true, true) := fun h => hresim (hok.mpr (Or.inr h))
    simp [hresim, hnone]

/-- Without a frame to roll back to, a reconcile moves `verified_` and nothing else. -/
theorem reconcile_of_none {p : RollbackPeer κ β} (h : p.session.rollbackFrame = none) :
    ∃ v, reconcile env p = (true, { p with session.verified := v }) := by
  unfold RollbackSession.rollbackFrame at h
  unfold reconcile
  dsimp only
  split_ifs at h ⊢ with hon hle
  · rw [h]
    exact ⟨_, rfl⟩
  · exact ⟨p.session.verified, rfl⟩
  · exact ⟨p.session.verified, rfl⟩

/-- The frame to roll back to lies behind the current one. -/
theorem reconcile_of_some {p : RollbackPeer κ β} {g : ℕ} (h : p.session.rollbackFrame = some g) :
    g < p.session.frame ∧ ∃ v, reconcile env p =
      if (rollBack env g p).1 then (true, { (rollBack env g p).2 with session.verified := v })
      else rollBack env g p := by
  unfold RollbackSession.rollbackFrame at h
  split_ifs at h with hon
  obtain ⟨hfirst, hlast, -⟩ := mispredicted_of_some h
  have hpos : 0 < p.session.frame := of_decide_eq_true (Bool.and_eq_true_iff.mp hon).2
  have hend : p.session.reconcileEnd ≤ p.session.frame - 1 := by
    unfold RollbackSession.reconcileEnd
    split_ifs <;> omega
  refine ⟨by omega, p.session.reconcileEnd + 1, ?_⟩
  unfold reconcile
  dsimp only
  rw [if_pos hon, if_pos (hfirst.trans hlast), h]

/-- A reconcile keeps the footing. It fails exactly if it has to roll back and the rollback
fails. -/
theorem reconcile_footing (p : RollbackPeer κ β) :
    (reconcile env p).2.world.rt.footing = p.world.rt.footing ∧
      ((reconcile env p).1 = true ↔ ∀ g, p.session.rollbackFrame = some g →
        ((loadState env (p.session.ring.index g []).1).run p.world).1 = .ok ∧
          p.world.rt.footing = (true, true)) := by
  cases hframe : p.session.rollbackFrame with
  | none =>
    obtain ⟨v, heq⟩ := reconcile_of_none env hframe
    rw [heq]
    exact ⟨rfl, by simp⟩
  | some g =>
    -- Only a rollback calls the runtime.
    obtain ⟨hbehind, v, heq⟩ := reconcile_of_some env hframe
    obtain ⟨hkeep, hok⟩ := rollBack_footing env g p
    rw [heq]
    split_ifs with hroll
    · exact ⟨hkeep, by simpa using (hok hbehind).mp hroll⟩
    · refine ⟨hkeep, ?_⟩
      simp only [Option.some.injEq, forall_eq']
      exact hok hbehind

/-- A reconcile that finds no misprediction leaves the prediction window. -/
theorem reconcile_window {p : RollbackPeer κ β} (h : p.session.rollbackFrame = none) :
    (reconcile env p).1 = true ∧ (reconcile env p).2.session.ahead = p.session.ahead ∧
      (reconcile env p).2.session.maxPrediction = p.session.maxPrediction := by
  obtain ⟨v, heq⟩ := reconcile_of_none env h
  rw [heq]
  exact ⟨rfl, rfl, rfl⟩

/-- Past the reconcile, a tick keeps the footing. It ends with `Desync` exactly if it does not stall
and the runtime cannot run its frame. -/
theorem stallOrRun_footing (localNow : InputState) (wantPixels checksumSent : Bool)
    (p : RollbackPeer κ β) :
    (stallOrRun env localNow wantPixels checksumSent p).2.world.rt.footing =
        p.world.rt.footing ∧
      ((stallOrRun env localNow wantPixels checksumSent p).1 = .desync ↔
        p.session.ahead < p.session.maxPrediction.toNat ∧
          p.world.rt.footing ≠ (true, true)) := by
  have hfinish : ∀ status (q : RollbackPeer κ β),
      (finish status checksumSent q).2.world = q.world :=
    fun _ q => maybeSendChecksum_world checksumSent q
  obtain ⟨hkeep, hok⟩ := runFrame_footing env p.session.frame localNow true
    (saveRing env p.session.frame p)
  rw [saveRing_footing] at hkeep hok
  have hrender : ∀ w : World κ β, ((render env wantPixels).run w).2.rt.footing = w.rt.footing :=
    fun w => run_of_triple (render_footing env (b := w.rt.footing) wantPixels) rfl
  unfold stallOrRun
  dsimp only
  split_ifs with hstall hfail
  · rw [hfinish]
    exact ⟨hrender _, by simp [finish, hstall.not_gt]⟩
  · -- The only exit that returns `Desync`.
    rw [Ne, hok] at hfail
    exact ⟨hkeep, by simp [leave, hfail, Nat.not_le.mp hstall]⟩
  · rw [hfinish]
    have hruns := hok.mp (Decidable.not_not.mp hfail)
    exact ⟨(hrender _).trans hkeep, by simp [finish, hruns]⟩

/-- A tick returns `Desync` exactly if the snapshot it has to roll back to is refused, or it has to
simulate a frame on a runtime that cannot run one. -/
theorem tickCall_desync_iff (p : RollbackPeer κ β) (a : TickCall) :
    (tickCall env a p).1 = .desync ↔
      RestoreRefused env p a ∨ (Simulates env p a ∧ p.world.rt.footing ≠ (true, true)) := by
  by_cases hdrains : Drains p a
  · obtain ⟨-, -, hmax, hring, -, -⟩ := afterDrain_fields a p
    have hworld : (afterDrain a p).world = p.world := rfl
    obtain ⟨hkeep, hok⟩ := reconcile_footing env (afterDrain a p)
    have hend := (stallOrRun_footing env a.localNow a.wantPixels a.io.checksumSent
      (reconcile env (afterDrain a p)).2).2
    rw [hring, hworld] at hok
    rw [hkeep, hworld] at hend
    rw [tickCall_of_drains env hdrains, RestoreRefused, Simulates]
    cases hframe : (afterDrain a p).session.rollbackFrame with
    | none =>
      -- Without a rollback, the tick stalls or runs its frame.
      obtain ⟨hgoes, hahead, hsame⟩ := reconcile_window env hframe
      rw [if_pos hgoes, hend, hahead, hsame, hmax]
      simp [hdrains]
    | some g =>
      rw [hframe] at hok
      dsimp only
      split_ifs with hgoes
      · -- The rollback succeeded, and so does the frame.
        obtain ⟨hrestored, hruns⟩ := hok.mp hgoes g rfl
        rw [hend]
        simp [hrestored, hruns]
      · have hfails : ¬(((loadState env (p.session.ring.index g []).1).run p.world).1 = .ok ∧
            p.world.rt.footing = (true, true)) :=
          fun h => hgoes (hok.mpr fun k hk => Option.some.inj hk ▸ h)
        simp only [hdrains, true_and, Option.some.injEq, exists_eq_left', true_iff]
        exact (Decidable.em _).imp id fun hrestored =>
          ⟨Decidable.not_not.mp hrestored, fun h => hfails ⟨Decidable.not_not.mp hrestored, h⟩⟩
  · rw [(cut_of_not_drains env hdrains).1, RestoreRefused, Simulates]
    simp [hdrains]

/-- Whatever a session and its runtime have been through, ticks and calls of the host program: a
tick that leaves a frame with differing checksums returns `Desync`, with the status at `Desync`, if
and only if the snapshot it had to roll back to was refused, or it had to simulate a frame on a
runtime that could not run one. -/
theorem mismatch_reported_iff (p : RollbackPeer κ β) (a : TickCall) :
    (tickCall env a p).2.session.Mismatch →
      (((tickCall env a p).1 = .desync ∧ (tickCall env a p).2.session.status = .desync) ↔
        RestoreRefused env p a ∨
          (Simulates env p a ∧ p.world.rt.footing ≠ (true, true))) := by
  intro _
  rw [← tickCall_status, and_self]
  exact tickCall_desync_iff env p a

/-- Sixty ticks, each hearing the remote input of the frame before. -/
def steadyTicks : List TickCall :=
  .delivering .neutral [] ::
    (List.range 59).map fun f => .delivering .neutral [.input ⟨f, 1, .neutral⟩]

/-- The tick after them hears the next input, and a wrong checksum of frame 60. -/
def wrongChecksum : TickCall :=
  .delivering .neutral [.input ⟨59, 1, .neutral⟩, .checksum ⟨60, 0⟩]

/-- The own checksum of frame 60 differs from the one received in the same tick; the tick returns
`Ok`, and so it neither had to restore a snapshot that was refused nor failed to run its frame. -/
theorem mismatch_reported_iff_wrongChecksum :
    let p := runTicks RefCoreRollback.env steadyTicks (begin true 8 RefCoreRollback.loaded)
    ¬(RestoreRefused RefCoreRollback.env p wrongChecksum ∨
      (Simulates RefCoreRollback.env p wrongChecksum ∧ p.world.rt.footing ≠ (true, true))) := by
  intro p
  have htick : (tickCall RefCoreRollback.env wrongChecksum p).1 = .ok ∧
      (tickCall RefCoreRollback.env wrongChecksum p).2.session.hasMismatch = true := by
    decide +kernel
  rw [← mismatch_reported_iff RefCoreRollback.env p wrongChecksum
    ((RollbackSession.hasMismatch_iff _).mp htick.2), htick.1]
  simp

/-- After sixty steady ticks, the tick that leaves frame 60 with differing checksums returns
`Ok`. -/
theorem mismatch_not_reported :
    let p := runTicks RefCoreRollback.env steadyTicks (begin true 8 RefCoreRollback.loaded)
    (tickMachine RefCoreRollback.env).Run Machine.always (begin true 8 RefCoreRollback.loaded)
        steadyTicks p ∧
      (tickCall RefCoreRollback.env wrongChecksum p).2.session.Mismatch ∧
      (tickCall RefCoreRollback.env wrongChecksum p).1 = .ok ∧
      (tickCall RefCoreRollback.env wrongChecksum p).2.session.status = .ok := by
  intro p
  refine ⟨run_runTicks _ _ _, ?_⟩
  rw [← RollbackSession.hasMismatch_iff]
  decide +kernel

end RollbackPeer

end RetroPark.Net
