import RetroPark.Runtime.Paused
import RetroPark.Net.Lockstep.Ticks
import RetroPark.Net.Rollback.Desync

/-!
# Paused runtimes and their sessions

`present` asks whether the runtime is paused before it advances the core, and `advance` does not. A
lockstep session presents its frames and a rollback session advances them, so a paused runtime
stands still under the ticks of the one and not of the other.

* `Progress` says how a runtime has gone on and whether its core was run meanwhile;
  `tickCall_progress` and `tickRecvAndAdvance_progress` say so of the ticks;
* `Console` is a runtime with its sessions, and `paused_is_frozen` is about its runs.
-/

namespace RetroPark.Net

open RetroPark.Runtime

variable {κ β : Type} (env : Env κ β)

/-! ### The frames of a rollback tick -/

/-- A runtime that has gone on, and has run its core for some frames exactly if `ran` says so. -/
structure Progress (w w' : World κ β) (ran : Prop) : Prop where
  footing : w'.rt.footing = w.rt.footing
  paused : w'.rt.paused = w.rt.paused
  le : w.coreFrames ≤ w'.coreFrames
  lt_iff : w.coreFrames < w'.coreFrames ↔ ran

namespace Progress

variable {w w' w'' : World κ β} {ran ran' : Prop}

/-- What keeps the gauge runs no frame. -/
theorem of_gauge (h : gauge w' = gauge w) : Progress w w' False where
  footing := congrArg (·.1) h
  paused := congrArg (·.2.1) h
  le := (congrArg (·.2.2) h).ge
  lt_iff := iff_false_intro (congrArg (·.2.2) h).le.not_gt

/-- Nothing happens without progress. -/
theorem rfl : Progress w w False := of_gauge (Eq.refl _)

/-- Progress after progress is progress. -/
theorem trans (h : Progress w w' ran) (h' : Progress w' w'' ran') :
    Progress w w'' (ran ∨ ran') where
  footing := h'.footing.trans h.footing
  paused := h'.paused.trans h.paused
  le := h.le.trans h'.le
  lt_iff := by
    rw [← h.lt_iff, ← h'.lt_iff]
    have hle := h.le
    have hle' := h'.le
    omega

theorem congr (h : Progress w w' ran) (hran : ran ↔ ran') : Progress w w' ran' :=
  ⟨h.footing, h.paused, h.le, h.lt_iff.trans hran⟩

/-- Nothing is run on the way to `w'`. -/
theorem quiet_trans (h : Progress w w' False) (h' : Progress w' w'' ran) : Progress w w'' ran :=
  (h.trans h').congr (iff_of_eq (false_or _))

end Progress

namespace RollbackPeer

/-- A snapshot runs no frame. -/
theorem saveRing_progress (f : ℕ) (p : RollbackPeer κ β) :
    Progress p.world (saveRing env f p).world False := by
  have hsize :=
    run_of_triple (serializeSize_gauge env (g := Runtime.gauge p.world)) (w := p.world) rfl
  have hsave := run_of_triple (saveState_gauge env true ((serializeSize env).run p.world).1) hsize
  unfold saveRing
  dsimp only
  split_ifs
  · exact .of_gauge hsize
  · exact .of_gauge hsave
  · exact .of_gauge hsave

/-- A frame is run if the runtime can run one. -/
theorem runFrame_progress (f : ℕ) (lin : InputState) (emit : Bool) (p : RollbackPeer κ β) :
    Progress p.world (runFrame env f lin emit p).2.world (p.world.rt.footing = (true, true)) := by
  have hlocal := run_of_triple (setInput_gauge (g := Runtime.gauge p.world) p.session.localPort lin)
    (w := p.world) rfl
  have hremote :=
    run_of_triple (setInput_gauge p.session.remotePort (p.session.remoteInput f)) hlocal
  have hadvance := run_of_triple (advance_gauge env emit) hremote
  have hframes : (runFrame env f lin emit p).2.world.coreFrames = p.world.coreFrames +
      if p.world.rt.footing.1 && p.world.rt.footing.2 then 1 else 0 := congrArg (·.2.2) hadvance
  refine ⟨congrArg (·.1) hadvance, congrArg (·.2.1) hadvance, ?_, ?_⟩
  · rw [hframes]
    exact Nat.le_add_right _ _
  · rw [hframes, Prod.ext_iff, ← Bool.and_eq_true_iff]
    split_ifs with hruns <;> simp [hruns]

/-- Resimulating runs the core if there is a frame to run and the runtime can run one. -/
theorem resimulate_progress (n f : ℕ) (p : RollbackPeer κ β) :
    Progress p.world (resimulate env n f p).2.world
      (n ≠ 0 ∧ p.world.rt.footing = (true, true)) := by
  induction n generalizing f p with
  | zero => exact Progress.rfl.congr (by simp)
  | succ n ih =>
    have hrun := runFrame_progress env f (p.session.locals.index f .neutral).1 false
      { p with session.locals := (p.session.locals.index f .neutral).2 }
    have hok := (runFrame_footing env f (p.session.locals.index f .neutral).1 false
      { p with session.locals := (p.session.locals.index f .neutral).2 }).2
    rw [resimulate]
    dsimp only
    split_ifs with hfail
    · exact hrun.congr (by simp)
    · have hsaved :=
        saveRing_progress env (f + 1) (runFrame env f (p.session.locals.index f .neutral).1 false
        { p with session.locals := (p.session.locals.index f .neutral).2 }).2
      refine (hrun.trans (hsaved.quiet_trans (ih (f + 1) _))).congr ?_
      have hruns := hok.mp (not_not.mp hfail)
      simp [hruns]

/-- A rollback runs the core if the snapshot is restored. -/
theorem rollBack_progress (g : ℕ) (p : RollbackPeer κ β) :
    Progress p.world (rollBack env g p).2.world
      (((loadState env (p.session.ring.index g []).1).run p.world).1 = .ok ∧
        p.session.frame - g ≠ 0 ∧ p.world.rt.footing = (true, true)) := by
  have hload := Progress.of_gauge (run_of_triple
    (loadState_gauge env (g := Runtime.gauge p.world) (p.session.ring.index g []).1) rfl)
  have hrest := resimulate_progress env (p.session.frame - g) g
    { p with session.ring := (p.session.ring.index g []).2
             world := ((loadState env (p.session.ring.index g []).1).run p.world).2 }
  unfold rollBack
  dsimp only
  split_ifs with hrefused hresim
  · exact hload.congr (by simp [hrefused])
  all_goals
    refine (hload.quiet_trans hrest).congr ?_
    rw [hload.footing, not_not.mp hrefused, eq_self, true_and]

/-- A reconcile runs the core if it rolls back to a snapshot that is restored. -/
theorem reconcile_progress (p : RollbackPeer κ β) :
    Progress p.world (reconcile env p).2.world
      ((∃ g, p.session.rollbackFrame = some g ∧
          ((loadState env (p.session.ring.index g []).1).run p.world).1 = .ok) ∧
        p.world.rt.footing = (true, true)) := by
  cases hframe : p.session.rollbackFrame with
  | none =>
    obtain ⟨v, heq⟩ := reconcile_of_none env hframe
    rw [heq]
    exact Progress.rfl.congr (by simp)
  | some g =>
    obtain ⟨hbehind, v, heq⟩ := reconcile_of_some env hframe
    -- The frames from `g` on are run again.
    have hran : Progress p.world (rollBack env g p).2.world
        (((loadState env (p.session.ring.index g []).1).run p.world).1 = .ok ∧
          p.world.rt.footing = (true, true)) :=
      (rollBack_progress env g p).congr (by simp [Nat.sub_ne_zero_of_lt hbehind])
    rw [heq]
    split_ifs <;> exact hran.congr (by simp)

/-- Past the reconcile, a tick runs the core unless it stalls. -/
theorem stallOrRun_progress (localNow : InputState) (wantPixels checksumSent : Bool)
    (p : RollbackPeer κ β) :
    Progress p.world (stallOrRun env localNow wantPixels checksumSent p).2.world
      (p.session.ahead < p.session.maxPrediction.toNat ∧ p.world.rt.footing = (true, true)) := by
  have hrender : ∀ w : World κ β, Progress w ((render env wantPixels).run w).2 False :=
    fun w => .of_gauge (run_of_triple (render_gauge env wantPixels) rfl)
  have hfinish : ∀ status (q : RollbackPeer κ β),
      (finish status checksumSent q).2.world = q.world :=
    fun _ q => maybeSendChecksum_world checksumSent q
  have hsaved := saveRing_progress env p.session.frame p
  have hrun := (hsaved.quiet_trans (runFrame_progress env p.session.frame localNow true
    (saveRing env p.session.frame p)))
  unfold stallOrRun
  dsimp only
  split_ifs with hstall hfail
  · rw [hfinish]
    exact (hrender _).congr (by simp [hstall.not_gt])
  · refine hrun.congr ?_
    rw [hsaved.footing]
    simp [not_le.mp hstall]
  · rw [hfinish]
    refine (hrun.trans (hrender _)).congr ?_
    rw [hsaved.footing]
    simp [not_le.mp hstall]

/-- A tick runs the core exactly if it simulates a frame and the runtime can run one. -/
theorem tickCall_progress (a : TickCall) (p : RollbackPeer κ β) :
    Progress p.world (tickCall env a p).2.world
      (Simulates env p a ∧ p.world.rt.footing = (true, true)) := by
  by_cases hdrains : Drains p a
  · have hring : (afterDrain a p).session.ring = p.session.ring := (afterDrain_fields a p).2.2.2.1
    have hmax : (afterDrain a p).session.maxPrediction = p.session.maxPrediction :=
      (afterDrain_fields a p).2.2.1
    have hreconcile : Progress p.world (reconcile env (afterDrain a p)).2.world
        ((∃ g, (afterDrain a p).session.rollbackFrame = some g ∧
            ((loadState env (p.session.ring.index g []).1).run p.world).1 = .ok) ∧
          p.world.rt.footing = (true, true)) := hring ▸ reconcile_progress env (afterDrain a p)
    -- The tick reconciles, and goes on if that succeeds.
    have hrest := stallOrRun_progress env a.localNow a.wantPixels a.io.checksumSent
      (reconcile env (afterDrain a p)).2
    rw [hreconcile.footing] at hrest
    rw [tickCall_of_drains env hdrains, Simulates]
    by_cases hruns : p.world.rt.footing = (true, true)
    · have hgoes := (reconcile_footing env (afterDrain a p)).2
      rw [hring] at hgoes
      cases hframe : (afterDrain a p).session.rollbackFrame with
      | none =>
        -- Without a rollback it runs a frame unless it stalls.
        obtain ⟨hok, hahead, hsame⟩ := reconcile_window env hframe
        rw [if_pos hok]
        refine (hreconcile.trans hrest).congr ?_
        rw [hahead, hsame, hmax, hframe]
        simp [hdrains, hruns]
      | some g =>
        dsimp only
        by_cases hrestored : ((loadState env (p.session.ring.index g []).1).run p.world).1 = .ok
        · -- A rollback has run the core already, whether or not the tick stalls.
          have hran : Progress p.world (reconcile env (afterDrain a p)).2.world True :=
            hreconcile.congr (by simp [hframe, hrestored, hruns])
          have hok : (reconcile env (afterDrain a p)).1 = true := hgoes.mpr fun k hk => by
            obtain rfl := Option.some.inj (hframe.symm.trans hk)
            exact ⟨hrestored, hruns⟩
          rw [if_pos hok]
          exact (hran.trans hrest).congr (by simp [hdrains, hrestored, hruns])
        · have hfailed : ¬(reconcile env (afterDrain a p)).1 = true := fun hok =>
            hrestored (hgoes.mp hok g hframe).1
          rw [if_neg hfailed]
          exact hreconcile.congr (by simp [hframe, hrestored])
    · suffices hidle : Progress p.world _ False from hidle.congr (by simp [hruns])
      split_ifs
      · exact (hreconcile.trans hrest).congr (by simp [hruns])
      · exact hreconcile.congr (by simp [hruns])
  · rw [(cut_of_not_drains env hdrains).2.world]
    exact Progress.rfl.congr (by simp [Simulates, hdrains])

end RollbackPeer

namespace NetPeer

/-- A lockstep tick runs its frame through `present`, which a paused runtime does not run. -/
theorem tickRecvAndAdvance_progress (arriving : List Message) (recvFailed checksumSent : Bool)
    {p : NetPeer κ β} (hpaused : p.world.rt.paused = true) :
    Progress p.world
      (p.tickRecvAndAdvance env arriving recvFailed checksumSent).2.1.world False := by
  rw [tickRecvAndAdvance]
  split_ifs
  · exact .rfl
  dsimp only
  cases (p.session.awaitRemote recvFailed arriving).1 with
  | some status => exact .rfl
  | none =>
    obtain ⟨q, goesOn, hshown, hadvance⟩ := advance_shown env checksumSent
      { p with session := (p.session.awaitRemote recvFailed arriving).2.1 }
    have hidle : p.world.rt.runsFrame = false := by
      rw [runsFrame, hpaused, Bool.not_true, Bool.and_false]
    have hgauge : Runtime.gauge q.world = Runtime.gauge p.world := by
      refine hshown.gauge.trans ?_
      change (_, _, p.world.coreFrames + if p.world.rt.runsFrame then 1 else 0) = _
      rw [hidle]
      rfl
    dsimp only
    rw [hadvance]
    split_ifs <;> exact .of_gauge hgauge

theorem tickSend_world (p : NetPeer κ β) (localNow : InputState) (inputSent : Bool) :
    (p.tickSend localNow inputSent).world = p.world := by
  unfold tickSend
  split_ifs <;> rfl

end NetPeer

/-! ### A runtime with its sessions -/

/-- A runtime with the sessions it is played through. -/
structure Console (κ β : Type) where
  world : World κ β
  rollback : RollbackSession := {}
  lockstep : NetSession := {}
  /-- The number of frames the core had been run for when it was paused, until the pause ends. -/
  pausedAt : Option ℕ := none

namespace Console

/-- What a host program does: it calls the runtime, puts a session in place in any state, or lets it
tick. -/
inductive Action
  | call (a : ApiCall)
  | startRollback (s : RollbackSession)
  | rollbackTick (a : TickCall)
  | startLockstep (s : NetSession)
  | lockstepSend (localNow : InputState) (inputSent : Bool)
  | lockstepTick (arriving : List Message) (recvFailed checksumSent : Bool)

/-- A call that pauses a runtime that is not paused yet. -/
def pauses (s : Console κ β) : ApiCall → Bool
  | .pause => s.pausedAt.isNone && s.world.rt.coreLoaded
  | _ => false

/-- The ghost field after a call of the runtime. -/
def pausedAfter (s : Console κ β) (a : ApiCall) : Option ℕ :=
  if a.endsPause then none
  else if s.pauses a then some s.world.coreFrames
  else s.pausedAt

/-- The runtime and its sessions in any order. -/
def system : Machine (Console κ β) Action where
  step s
    | .call a => some
        { s with world := ((Runtime.call env a).run s.world).2, pausedAt := s.pausedAfter a }
    | .startRollback rollback => some { s with rollback }
    | .rollbackTick a =>
        let p := (RollbackPeer.tickCall env a { session := s.rollback, world := s.world }).2
        some { s with world := p.world, rollback := p.session }
    | .startLockstep lockstep => some { s with lockstep }
    | .lockstepSend localNow inputSent =>
        let p := NetPeer.tickSend localNow inputSent { session := s.lockstep, world := s.world }
        some { s with world := p.world, lockstep := p.session }
    | .lockstepTick arriving recvFailed checksumSent =>
        let p := (NetPeer.tickRecvAndAdvance env arriving recvFailed checksumSent
          { session := s.lockstep, world := s.world }).2.1
        some { s with world := p.world, lockstep := p.session }

/-- While the runtime is paused and its core can run a frame, the host program does not call
`advance` and no tick of the rollback session simulates a frame. -/
def Rests (s : Console κ β) (a : Action) : Prop :=
  s.pausedAt.isSome → s.world.rt.footing = (true, true) →
    match a with
    | .call (.advance _) => False
    | .rollbackTick a => ¬RollbackPeer.Simulates env { session := s.rollback, world := s.world } a
    | _ => True

instance (s : Console κ β) (a : Action) : Decidable (Rests env s a) := by
  unfold Rests
  cases a with
  | call a => cases a <;> infer_instance
  | _ => infer_instance

/-- The core has not been run for a frame since the runtime was paused. -/
def Frozen (pausedAt : Option ℕ) (w : World κ β) : Prop := ∀ n, pausedAt = some n → w.coreFrames = n

/-- The ghost field is set only while the runtime is paused. -/
def Marked (pausedAt : Option ℕ) (w : World κ β) : Prop := pausedAt.isSome → w.rt.paused = true

variable {env} {s s' : Console κ β} {w w' : World κ β} {pausedAt : Option ℕ}

/-- Progress leaves the mark of a pause alone. -/
theorem Marked.progress (h : Marked pausedAt w) {ran : Prop} (hprogress : Progress w w' ran) :
    Marked pausedAt w' :=
  fun hsome => hprogress.paused.trans (h hsome)

theorem Frozen.progress_iff (h : Frozen pausedAt w) {ran : Prop} (hprogress : Progress w w' ran) :
    Frozen pausedAt w' ↔ (pausedAt.isSome → ¬ran) := by
  have hle := hprogress.le
  rw [← hprogress.lt_iff]
  cases pausedAt with
  | none => exact iff_of_true nofun nofun
  | some n =>
    have hn : w.coreFrames = n := h n rfl
    refine ⟨fun h' _ => ?_, fun h' m hm => ?_⟩
    · have hn' : w'.coreFrames = n := h' n rfl
      omega
    · obtain rfl := Option.some.inj hm
      have hnot := h' rfl
      omega

/-! ### Calls of the runtime -/

theorem rests_call_iff (a : ApiCall) :
    Rests env s (.call a) ↔ (s.pausedAt.isSome → runsPaused s.world.rt a = false) := by
  unfold Rests
  cases a with
  | advance emit =>
    refine forall_congr' fun _ => ?_
    rw [← Bool.not_eq_true, runsPaused, Bool.and_eq_true_iff]
    exact not_congr Prod.ext_iff
  | _ => exact iff_of_true (fun _ _ => trivial) fun _ => rfl

theorem runsPaused_of_endsPause {a : ApiCall} (ha : a.endsPause = true) (rt : Runtime) :
    runsPaused rt a = false := by
  cases a with
  | advance emit => exact nomatch ha
  | _ => rfl

variable (env) in
/-- A pause marks the frames run so far. -/
theorem pauses_step {a : ApiCall} (ha : s.pauses a = true) :
    Marked (some s.world.coreFrames) ((Runtime.call env a).run s.world).2 ∧
      Frozen (some s.world.coreFrames) ((Runtime.call env a).run s.world).2 := by
  cases a with
  | pause =>
    have hpulse := pause_pulse s.world
    rw [(Bool.and_eq_true_iff.mp ha).2, Bool.true_or] at hpulse
    refine ⟨fun _ => congrArg Prod.fst hpulse, fun n hn => ?_⟩
    rw [← Option.some.inj hn]
    exact congrArg Prod.snd hpulse
  | _ => exact nomatch ha

/-- A call of the runtime keeps the core frozen exactly if it rests. -/
theorem call_step (hmarked : Marked s.pausedAt s.world) (hfrozen : Frozen s.pausedAt s.world)
    (a : ApiCall) :
    Marked (s.pausedAfter a) ((Runtime.call env a).run s.world).2 ∧
      (Frozen (s.pausedAfter a) ((Runtime.call env a).run s.world).2 ↔ Rests env s (.call a)) := by
  rw [rests_call_iff]
  unfold pausedAfter
  split_ifs with hends hpauses
  · exact ⟨nofun, iff_of_true nofun fun _ => runsPaused_of_endsPause hends _⟩
  · -- The pause takes the count of frames as it is.
    obtain ⟨hmarked', hfrozen'⟩ := pauses_step env hpauses
    refine ⟨hmarked', iff_of_true hfrozen' fun _ => ?_⟩
    cases a with
    | pause => rfl
    | _ => exact nomatch hpauses
  · cases hpaused : s.pausedAt with
    | none => exact ⟨nofun, iff_of_true nofun nofun⟩
    | some n =>
      have hrt := hmarked (hpaused ▸ rfl)
      have hpulse := call_paused env (Bool.eq_false_iff.mpr hends) hrt
      refine ⟨fun _ => (congrArg Prod.fst hpulse).trans hrt, ?_⟩
      have hframes : ((Runtime.call env a).run s.world).2.coreFrames = _ := congrArg Prod.snd hpulse
      rw [Frozen, hframes, hfrozen n hpaused]
      cases runsPaused s.world.rt a <;> simp

/-! ### Runs -/

/-- Every step keeps the core frozen exactly if it rests. -/
theorem step_frozen (hmarked : Marked s.pausedAt s.world) (hfrozen : Frozen s.pausedAt s.world)
    {a : Action} (hstep : (system env).step s a = some s') :
    Marked s'.pausedAt s'.world ∧ (Frozen s'.pausedAt s'.world ↔ Rests env s a) := by
  cases a with
  | call a =>
    obtain rfl := Option.some.inj hstep
    exact call_step hmarked hfrozen a
  | startRollback rollback =>
    obtain rfl := Option.some.inj hstep
    exact ⟨hmarked, iff_of_true hfrozen fun _ _ => trivial⟩
  | rollbackTick a =>
    obtain rfl := Option.some.inj hstep
    have hprogress :=
      RollbackPeer.tickCall_progress env a { session := s.rollback, world := s.world }
    refine ⟨hmarked.progress hprogress, (hfrozen.progress_iff hprogress).trans ?_⟩
    exact forall_congr' fun _ => not_and'
  | startLockstep lockstep =>
    obtain rfl := Option.some.inj hstep
    exact ⟨hmarked, iff_of_true hfrozen fun _ _ => trivial⟩
  | lockstepSend localNow inputSent =>
    obtain rfl := Option.some.inj hstep
    dsimp only
    rw [NetPeer.tickSend_world]
    exact ⟨hmarked, iff_of_true hfrozen fun _ _ => trivial⟩
  | lockstepTick arriving recvFailed checksumSent =>
    obtain rfl := Option.some.inj hstep
    cases hpaused : s.pausedAt with
    | none => exact ⟨nofun, iff_of_true nofun fun h => nomatch hpaused ▸ h⟩
    | some n =>
      -- A lockstep tick runs its frame through `present`, which a pause holds back.
      have hprogress := NetPeer.tickRecvAndAdvance_progress env arriving recvFailed checksumSent
        (p := { session := s.lockstep, world := s.world }) (hmarked (hpaused ▸ rfl))
      rw [← hpaused]
      refine ⟨hmarked.progress hprogress,
        iff_of_true ((hfrozen.progress_iff hprogress).mpr fun _ h => h) ?_⟩
      exact fun _ _ => trivial

/-- The runtime as it is constructed, without sessions. -/
def start (env : Env κ β) (api : GraphicsApi) (nativeWindow : ℕ) (core : κ) (gpu : β) :
    Console κ β :=
  { world := Runtime.new env api nativeWindow core gpu }

/-- In every run of calls of a runtime and ticks of its sessions that all rest, a paused runtime has
not run its core since it was paused; and from every state of such a run, a step keeps that so
exactly if it rests. -/
theorem paused_is_frozen (api : GraphicsApi) (nativeWindow : ℕ) (core : κ) (gpu : β)
    {as : List Action}
    (hrun : Machine.Run (system env) (Rests env) (start env api nativeWindow core gpu) as s) :
    Frozen s.pausedAt s.world ∧
      ∀ a s', (system env).step s a = some s' → (Frozen s'.pausedAt s'.world ↔ Rests env s a) := by
  have hinv : Marked s.pausedAt s.world ∧ Frozen s.pausedAt s.world := by
    refine hrun.invariant (I := fun s => Marked s.pausedAt s.world ∧ Frozen s.pausedAt s.world)
      ⟨(nomatch ·), fun _ => (nomatch ·)⟩ ?_
    rintro s a s' ⟨hmarked, hfrozen⟩ hrests hstep
    obtain ⟨hmarked', hfrozen'⟩ := step_frozen hmarked hfrozen hstep
    exact ⟨hmarked', hfrozen'.mpr hrests⟩
  exact ⟨hinv.2, fun a s' hstep => (step_frozen hinv.1 hinv.2 hstep).2⟩

/-- The reference core is played by lockstep, paused in the middle of it, and shown while it is
paused. -/
def pausedPlay : List Action :=
  [.call (.loadCore "refcore_rollback"), .startLockstep {}, .lockstepSend .neutral true,
    .lockstepTick [.input ⟨0, 1, .neutral⟩] false true, .call .pause, .lockstepSend .neutral true,
    .lockstepTick [.input ⟨1, 1, .neutral⟩] false true, .call (.present true)]

/-- A paused runtime stands still in lockstep play. -/
theorem paused_is_frozen_pausedPlay :
    ∃ s, Machine.Run (system RefCoreRollback.env) (Rests RefCoreRollback.env)
        (start RefCoreRollback.env 0 0 { acc := 7 } ()) pausedPlay s ∧
      s.pausedAt = some 1 ∧ s.world.coreFrames = 1 := by
  have hend : ∃ s, Machine.Run (system RefCoreRollback.env) (Rests RefCoreRollback.env)
      (start RefCoreRollback.env 0 0 { acc := 7 } ()) pausedPlay s ∧ s.pausedAt = some 1 :=
    Machine.exists_run (by decide +kernel)
  obtain ⟨s, hrun, hpaused⟩ := hend
  exact ⟨s, hrun, hpaused, (paused_is_frozen 0 0 { acc := 7 } () hrun).1 1 hpaused⟩

/-- The reference core is paused, and then advanced. -/
def pausedAdvance : List Action :=
  [.call (.loadCore "refcore_rollback"), .call .pause, .call (.advance true)]

/-- The reference core is paused, and its rollback session ticks. -/
def pausedTick : List Action :=
  [.call (.loadCore "refcore_rollback"), .startRollback (.begin true 8), .call .pause,
    .rollbackTick (.delivering .neutral [])]

/-- Both run the core for a frame. -/
theorem paused_runs_frame :
    (∃ s, Machine.Run (system RefCoreRollback.env) Machine.always
        (start RefCoreRollback.env 0 0 { acc := 7 } ()) pausedAdvance s ∧
      s.pausedAt = some 0 ∧ s.world.coreFrames = 1) ∧
    ∃ s, Machine.Run (system RefCoreRollback.env) Machine.always
        (start RefCoreRollback.env 0 0 { acc := 7 } ()) pausedTick s ∧
      s.pausedAt = some 0 ∧ s.world.coreFrames = 1 := by
  constructor
  · exact ⟨_, Machine.run_get (by decide +kernel), by decide +kernel, by decide +kernel⟩
  · exact ⟨_, Machine.run_get (by decide +kernel), by decide +kernel, by decide +kernel⟩

end Console

end RetroPark.Net
