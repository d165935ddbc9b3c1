import RetroPark.Net.Rollback.Checkpoints
import RetroPark.Cores.ToneCore

/-!
# The sound of a rollback session

A session runs a frame again whenever an input it has predicted turns out wrong, and only the first
run of a frame asks for its sound. `heard_once` says that this is what the player hears, for any
transport and any core that sounds in its frames alone: every frame once, in order and without a
gap, whatever has been rolled back in between.

* `emitted` is the list of the runs whose sound was asked for;
* `Unheard` is a part of a tick that adds nothing to it: everything up to the end of a reconcile
  (`reconcile_unheard`);
* `Played` is the invariant of a tick.
-/

namespace RetroPark.Net

open RetroPark.Runtime

namespace RollbackPeer

variable {κ β : Type} {env : Env κ β} (L : Listener env.gpu) {c : CorePtr}

/-- The runs of frames whose sound was asked for, oldest first. -/
def emitted (ran : List (FrameRun κ)) : List (FrameRun κ) := (ran.filter (·.emit)).reverse

/-- The frames heard so far, and the next one if it is to be heard. -/
theorem emitted_cons (r : FrameRun κ) (ran : List (FrameRun κ)) :
    emitted (r :: ran) = emitted ran ++ if r.emit then [r] else [] := by
  rw [emitted, List.filter_cons]
  split_ifs
  · exact List.reverse_cons
  · exact (List.append_nil _).symm

/-- The sound of a run of a frame. -/
def soundOf {core : CoreEnv κ} {σ : Type} {D : DrivenCore core c σ} (V : Voice D)
    (r : FrameRun κ) : List (List Int16) :=
  V.sound (D.view r.before) (r.port0, r.port1)

/-- Between `p` and `q` nothing is heard. -/
structure Unheard (p q : RollbackPeer κ β) : Prop where
  soundState : soundState L q.world = soundState L p.world
  emitted : emitted q.ran = emitted p.ran

variable {L}

/-- Steps that are not heard are not heard together. -/
theorem Unheard.trans {p q r : RollbackPeer κ β} (h : Unheard L p q) (h' : Unheard L q r) :
    Unheard L p r :=
  ⟨h'.soundState.trans h.soundState, h'.emitted.trans h.emitted⟩

section Tick

variable {σ : Type} {D : DrivenCore env.core c σ} {p : RollbackPeer κ β}

/-- A driven core stays ready when a state is loaded. -/
theorem loadState_drivenReady {w : World κ β} (h : DrivenReady c w.rt) (data : Blob) :
    DrivenReady c ((loadState env data).run w).2.rt := by
  cases data with
  | nil => exact h
  | cons b rest =>
    have hdata : 0 < (b :: rest).length := Nat.succ_pos rest.length
    obtain ⟨w', hrun, hrt, -⟩ := loadState_ready env h hdata
    rw [hrun]
    exact h.congr hrt

/-- A snapshot is not heard. -/
theorem saveRing_unheard (V : Voice D) (hc : p.world.rt.loader.core = c) (f : ℕ) :
    Unheard L p (saveRing env f p) := by
  have hsize := run_of_triple (serializeSize_soundState L V hc) (w := p.world) rfl
  have hsave := run_of_triple (saveState_soundState L V hc true
    ((serializeSize env).run p.world).1) hsize
  unfold saveRing
  dsimp only
  split_ifs
  · exact ⟨hsize, rfl⟩
  · exact ⟨hsave, rfl⟩
  · exact ⟨hsave, rfl⟩

/-- A run of a frame is heard if its sound is asked for. -/
theorem runFrame_heard (V : Voice D) (h : DrivenReady c p.world.rt) (f : ℕ) (lin : InputState)
    (emit : Bool) :
    ∃ r, (runFrame env f lin emit p).2.ran = r :: p.ran ∧ r.frame = f ∧ r.emit = emit ∧
      soundState L (runFrame env f lin emit p).2.world =
        (L.heard p.world.gpu ++ (if emit && p.world.rt.audible then soundOf V r else []),
          p.world.rt.audible, c) := by
  obtain ⟨w₁, hrun₁, hready₁, -⟩ := setInput_ready h p.session.localPort lin
  obtain ⟨w₂, hrun₂, hready₂, -⟩ :=
    setInput_ready hready₁ p.session.remotePort (p.session.remoteInput f)
  have hlocal := run_of_triple (setInput_soundState L p.session.localPort lin) (w := p.world) rfl
  have hremote := run_of_triple (setInput_soundState L p.session.remotePort
    (p.session.remoteInput f)) hlocal
  rw [hrun₁, hrun₂] at hremote
  have hheard : L.heard w₂.gpu = L.heard p.world.gpu := congrArg Prod.fst hremote
  have haudible : w₂.rt.audible = p.world.rt.audible := congrArg (fun g => g.2.1) hremote
  refine ⟨_, rfl, rfl, rfl, ?_⟩
  unfold runFrame
  dsimp only
  rw [hrun₁, hrun₂]
  refine (advance_soundState L V hready₂ emit).trans ?_
  rw [hheard, haudible]
  rfl

/-- A frame that is run again is not heard. -/
theorem runFrame_unheard (V : Voice D) (h : DrivenReady c p.world.rt) (f : ℕ) (lin : InputState) :
    Unheard L p (runFrame env f lin false p).2 := by
  obtain ⟨r, hran, -, hemit, hsound⟩ := runFrame_heard V (L := L) h f lin false
  refine ⟨?_, ?_⟩
  · rw [hsound, Bool.false_and, if_neg Bool.false_ne_true, List.append_nil, Runtime.soundState,
      h.instance_eq]
  · rw [hran, emitted_cons, hemit, if_neg Bool.false_ne_true, List.append_nil]

/-- A resimulation is not heard. -/
theorem resimulate_unheard (V : Voice D) (h : DrivenReady c p.world.rt) (n f : ℕ) :
    Unheard L p (resimulate env n f p).2 := by
  induction n generalizing f p with
  | zero => exact ⟨rfl, rfl⟩
  | succ n ih =>
    let q : RollbackPeer κ β :=
      { p with session.locals := (p.session.locals.index f .neutral).2 }
    have hq : DrivenReady c q.world.rt := h
    have hran : Unheard L p (runFrame env f (p.session.locals.index f .neutral).1 false q).2 :=
      (⟨rfl, rfl⟩ : Unheard L p q).trans (runFrame_unheard V hq f _)
    have hrun := runFrame_ready env hq f (p.session.locals.index f .neutral).1 false
    obtain ⟨w, b, k, hsave, hready, -⟩ := saveRing_ready env hrun.2 D.serializeCapable (f + 1)
    have hsaved := saveRing_unheard (L := L) V hrun.2.instance_eq (f + 1)
    rw [resimulate]
    dsimp only
    rw [if_neg (not_not_intro hrun.1)]
    rw [hsave] at hsaved ⊢
    exact (hran.trans hsaved).trans (ih hready (f + 1))

/-- Nothing of a rollback is heard. -/
theorem rollBack_unheard (V : Voice D) (h : DrivenReady c p.world.rt) (g : ℕ) :
    Unheard L p (rollBack env g p).2 := by
  let q : RollbackPeer κ β :=
    { p with
      session.ring := (p.session.ring.index g []).2
      world := ((loadState env (p.session.ring.index g []).1).run p.world).2 }
  have hload : Unheard L p q :=
    ⟨run_of_triple (loadState_soundState L V h.instance_eq _) (w := p.world) rfl, rfl⟩
  have hready : DrivenReady c q.world.rt := loadState_drivenReady h _
  have hresim := resimulate_unheard (L := L) V hready (p.session.frame - g) g
  have hrest := hload.trans hresim
  unfold rollBack
  dsimp only
  split_ifs
  · exact ⟨hload.soundState, rfl⟩
  · exact ⟨hrest.soundState, hrest.emitted⟩
  · exact hrest

/-- Nothing of a reconcile is heard. -/
theorem reconcile_unheard (V : Voice D) (h : DrivenReady c p.world.rt) :
    Unheard L p (reconcile env p).2 := by
  rcases reconcile_cases env p with ⟨-, heq⟩ | ⟨-, -, -, heq⟩ | ⟨g, -, -, -, -, heq⟩
  · exact heq ▸ ⟨rfl, rfl⟩
  · exact heq ▸ ⟨rfl, rfl⟩
  · have hback := rollBack_unheard (L := L) V h g
    rw [heq]
    split_ifs
    · exact ⟨hback.soundState, hback.emitted⟩
    · exact hback

/-! ### What a session has played -/

variable (L) in
/-- The invariant of a session: it has asked for the sound of each of its frames once, and that is
what has been heard, after `before`, if the runtime is `audible`. -/
structure Played (V : Voice D) (before : List (List Int16)) (audible : Bool)
    (p : RollbackPeer κ β) : Prop where
  ready : DrivenReady c p.world.rt
  frames : (emitted p.ran).map (·.frame) = List.range p.session.frame
  heard : soundState L p.world =
    (before ++ (if audible then (emitted p.ran).flatMap (soundOf V) else []), audible, c)

variable {V : Voice D} {before : List (List Int16)} {audible : Bool}

/-- At the beginning nothing has been heard. -/
theorem played_begin (isHost : Bool) (agreed : UInt32) {w : World κ β} (h : DrivenReady c w.rt) :
    Played L V (L.heard w.gpu) w.rt.audible (begin isHost agreed w) where
  ready := h
  frames := rfl
  heard := by
    show (L.heard w.gpu, w.rt.audible, w.rt.loader.core) = _
    rw [h.instance_eq]
    simp [emitted, begin]

/-- A part of a tick that is not heard and completes no frame. -/
theorem Played.unheard {q : RollbackPeer κ β} (h : Played L V before audible p)
    (hquiet : Unheard L p q) (hready : DrivenReady c q.world.rt)
    (hframe : q.session.frame = p.session.frame) : Played L V before audible q where
  ready := hready
  frames := by rw [hquiet.emitted, hframe, h.frames]
  heard := by rw [hquiet.soundState, hquiet.emitted, h.heard]

/-- The end of a tick is not heard. -/
theorem Played.finish (h : Played L V before audible p) (status : RbStatus) {checksumSent : Bool} :
    Played L V before audible (finish status checksumSent p).2 := by
  have hworld : (RollbackPeer.finish status checksumSent p).2.world = p.world :=
    maybeSendChecksum_world checksumSent p
  have hran : (RollbackPeer.finish status checksumSent p).2.ran = p.ran :=
    maybeSendChecksum_ran checksumSent p
  refine h.unheard ⟨by rw [hworld], by rw [hran]⟩ (hworld.symm ▸ h.ready) ?_
  rw [finish_session]
  rfl

/-- A render is not heard. -/
theorem render_unheard (wantPixels : Bool) :
    Unheard L p { p with world := ((render env wantPixels).run p.world).2 } :=
  ⟨run_of_triple (render_soundState L wantPixels) (w := p.world) rfl, rfl⟩

/-- A driven core stays ready when it is rendered. -/
theorem render_drivenReady {w : World κ β} (h : DrivenReady c w.rt) (wantPixels : Bool) :
    DrivenReady c ((render env wantPixels).run w).2.rt := by
  obtain ⟨r, w', hrun, hrt, -⟩ := render_ready env h wantPixels
  rw [hrun, hrt]
  exact h

/-- A part of a tick that completes a frame with a run that is heard. -/
theorem Played.heard_run {q : RollbackPeer κ β} {r : FrameRun κ} (h : Played L V before audible p)
    (hready : DrivenReady c q.world.rt) (hran : q.ran = r :: p.ran)
    (hrun : r.frame = p.session.frame) (hemit : r.emit = true)
    (hframe : q.session.frame = p.session.frame + 1)
    (hsound : soundState L q.world = (L.heard p.world.gpu ++
      (if p.world.rt.audible then soundOf V r else []), p.world.rt.audible, c)) :
    Played L V before audible q := by
  have hemitted : emitted q.ran = emitted p.ran ++ [r] := by
    rw [hran, emitted_cons, if_pos hemit]
  have haudible : p.world.rt.audible = audible := congrArg (fun g => g.2.1) h.heard
  have hheard : L.heard p.world.gpu =
      before ++ (if audible then (emitted p.ran).flatMap (soundOf V) else []) :=
    congrArg Prod.fst h.heard
  refine ⟨hready, ?_, ?_⟩
  · rw [hemitted, List.map_append, h.frames, hframe, List.range_succ, ← hrun]
    rfl
  · rw [hsound, hemitted, haudible, hheard, List.append_assoc]
    split_ifs
    · rw [List.flatMap_append, List.flatMap_singleton]
    · rfl

/-- Steps 4 to 6 of a tick: the frame that is run is heard, and a stalled tick is silent. -/
theorem Played.stallOrRun (h : Played L V before audible p) (localNow : InputState)
    (wantPixels checksumSent : Bool) :
    Played L V before audible (stallOrRun env localNow wantPixels checksumSent p).2 := by
  -- `q`: the snapshot is in the ring, and saving it has made no sound.
  have hsaved := saveRing_unheard (L := L) V h.ready.instance_eq p.session.frame
  obtain ⟨w, b, k, hsave, hready, -⟩ :=
    saveRing_ready env h.ready D.serializeCapable p.session.frame
  rw [hsave] at hsaved
  let q : RollbackPeer κ β :=
    { p with world := w, session.ring := p.session.ring.insert p.session.frame b }
  have hq : Played L V before audible q := h.unheard hsaved hready rfl
  obtain ⟨r, hran, hframe, hemit, hsound⟩ :=
    runFrame_heard (L := L) V hready p.session.frame localNow true (p := q)
  obtain ⟨hok, hrunReady⟩ := runFrame_ready env hready p.session.frame localNow true (p := q)
  unfold RollbackPeer.stallOrRun
  dsimp only
  split_ifs with hahead hfail
  · exact (h.unheard (render_unheard wantPixels) (render_drivenReady h.ready wantPixels)
      rfl).finish .stalled
  · rw [hsave] at hfail
    exact absurd hok hfail
  · rw [hsave]
    refine Played.finish (hq.heard_run ?_ ?_ hframe hemit ?_ ?_) .ok
    · exact render_drivenReady hrunReady wantPixels
    · exact hran
    · rfl
    · exact (render_unheard (L := L) wantPixels).soundState.trans hsound

/-- A tick lets the frame it runs be heard, and no other. -/
theorem Played.tickCall (h : Played L V before audible p) (a : TickCall) :
    Played L V before audible (tickCall env a p).2 := by
  by_cases hdrains : Drains p a
  · rw [tickCall_of_drains env hdrains]
    have hdrained : Played L V before audible (afterDrain a p) :=
      h.unheard ⟨rfl, rfl⟩ h.ready (afterDrain_fields a p).1
    have hreconciled : Played L V before audible (reconcile env (afterDrain a p)).2 :=
      hdrained.unheard (reconcile_unheard V hdrained.ready)
        (reconcile_ready env hdrained.ready D.serializeCapable)
        (reconcile_counters env (afterDrain a p)).1
    split_ifs
    · exact hreconciled.stallOrRun a.localNow a.wantPixels a.io.checksumSent
    · exact hreconciled
  · obtain ⟨-, hcut⟩ := cut_of_not_drains env hdrains
    exact h.unheard ⟨by rw [hcut.world], by rw [hcut.ran]⟩ (hcut.world.symm ▸ h.ready)
      hcut.counters.1

end Tick

/-- The join side of a match whose host presses `X` in frame 0, which it learns one frame late. -/
def surprised : List TickCall :=
  [.delivering .neutral [], .delivering .neutral [.input ⟨0, 0, RefCoreRollback.pressX⟩],
    .delivering .neutral [.input ⟨1, 0, .neutral⟩]]

end RollbackPeer

end RetroPark.Net
