import RetroPark.Runtime.LiveSurfaces
import RetroPark.Runtime.Frames

/-!
# The frames a runtime shows

`render` passes the latest ready frame of the surface ring to `composite_and_present`, or while it
is paused the one it kept from the last render. `Shown` follows both through every method: the
frames that may be shown were accepted since the newest allocation of surfaces, if that succeeded
(`Backed`), and the frames that have been shown are those the log says. `call_shown` says which
frame a call shows.
-/

namespace RetroPark

open Std.Do

set_option mvcgen.warning false

/-- An allocation of surfaces. -/
def Event.isAllocation : Event → Bool
  | .allocateSurfaces _ => true
  | _ => false

/-- An allocation of surfaces that succeeded. -/
def Event.makesSurfaces : Event → Bool
  | .allocateSurfaces r => r = .ok
  | _ => false

/-- The frame an event passes to `composite_and_present`. -/
def Event.shown? : Event → Option (ℕ × ℕ)
  | .composite index syncValue true => some (index, syncValue)
  | _ => none

/-- The frames that have been shown, newest first. -/
def shownFrames (log : List Event) : List (ℕ × ℕ) := log.filterMap Event.shown?

namespace Runtime

variable {κ β : Type} (env : Env κ β)

/-! ### What has happened since the newest allocation -/

/-- The events since the newest allocation of surfaces, newest first. -/
def sinceAllocation (log : List Event) : List Event := log.takeWhile (!·.isAllocation)

/-- The events since the newest allocation that succeeded, newest first. -/
def sinceSurfaces (log : List Event) : List Event := log.takeWhile (!·.makesSurfaces)

/-- The two agree if the newest allocation succeeded. -/
theorem sinceSurfaces_eq {log : List Event} (h : lastAllocateOk log = true) :
    sinceSurfaces log = sinceAllocation log := by
  induction log with
  | nil => rfl
  | cons e log ih =>
    cases e with
    | allocateSurfaces r =>
      have hr : r = .ok := of_decide_eq_true h
      subst hr
      rfl
    | _ => exact congrArg (_ :: ·) (ih h)

/-- Events that make no surfaces come after the newest surfaces. -/
theorem sinceSurfaces_append {es : List Event} (he : ∀ e ∈ es, e.makesSurfaces = false)
    (log : List Event) : sinceSurfaces (es ++ log) = es ++ sinceSurfaces log :=
  List.takeWhile_append_of_pos fun e h => by simp [he e h]

/-- Events that allocate nothing come after the newest allocation. -/
theorem sinceAllocation_append {es : List Event} (he : ∀ e ∈ es, e.isAllocation = false)
    (log : List Event) : sinceAllocation (es ++ log) = es ++ sinceAllocation log :=
  List.takeWhile_append_of_pos fun e h => by simp [he e h]

/-- The frames `render` may show: the latest ready one, and the one kept from the last render. -/
def showable (rt : Runtime) : SurfaceRing × Option (ℕ × ℕ) :=
  (rt.ring, if rt.haveLastReady then some (rt.lastReadyIdx, rt.lastReadySv) else none)

/-- The frames that may be shown are on record since the newest allocation that succeeded: they were
accepted for the surfaces of the ring's generation, and the one that is kept has been shown. -/
structure Backed (s : SurfaceRing × Option (ℕ × ℕ)) (log : List Event) : Prop where
  accepted : ∀ index syncValue,
    s.1.latestReady = some (index, syncValue) ∨ s.2 = some (index, syncValue) →
      .submitFrame index s.1.generation syncValue true ∈ sinceSurfaces log
  shown : ∀ index syncValue, s.2 = some (index, syncValue) →
    .composite index syncValue true ∈ sinceSurfaces log

/-- Events that allocate no surfaces keep what may be shown backed. -/
theorem Backed.append {s : SurfaceRing × Option (ℕ × ℕ)} {log : List Event} (h : Backed s log)
    (es : List Event) (he : ∀ e ∈ es, e.makesSurfaces = false) : Backed s (es ++ log) := by
  have hsince := sinceSurfaces_append he log
  constructor
  · intro index syncValue hshown
    rw [hsince]
    exact List.mem_append_right _ (h.accepted index syncValue hshown)
  · intro index syncValue hkept
    rw [hsince]
    exact List.mem_append_right _ (h.shown index syncValue hkept)

/-- A new generation has nothing to show. -/
theorem backed_reallocate (ring : SurfaceRing) (width height : UInt32) (log : List Event) :
    Backed (ring.reallocate width height, none) log := by
  constructor
  · rintro index syncValue (hready | hkept)
    · exact nomatch hready
    · exact nomatch hkept
  · rintro index syncValue hkept
    exact nomatch hkept

/-- A runtime that forgets the frame it kept stays backed. -/
theorem Backed.forget {ring : SurfaceRing} {kept : Option (ℕ × ℕ)} {log : List Event}
    (h : Backed (ring, kept) log) : Backed (ring, none) log where
  accepted index syncValue hshown := h.accepted index syncValue (.inl (hshown.resolve_right nofun))
  shown _ _ hkept := nomatch hkept

/-- A runtime may keep its latest ready frame when it has shown it. -/
theorem Backed.keep {ring : SurfaceRing} {kept : Option (ℕ × ℕ)} {log : List Event}
    (h : Backed (ring, kept) log) {f : ℕ × ℕ} (hready : ring.latestReady = some f)
    (hshown : .composite f.1 f.2 true ∈ sinceSurfaces log) : Backed (ring, some f) log where
  accepted index syncValue h' :=
    h.accepted index syncValue (.inl (h'.elim id fun hkept => hready.trans hkept))
  shown index syncValue hkept := by
    obtain rfl := Option.some.inj hkept
    exact hshown

/-- A frame that is accepted is backed by its own submission. -/
theorem Backed.submit {ring : SurfaceRing} {kept : Option (ℕ × ℕ)} {log : List Event}
    (h : Backed (ring, kept) log) (index generation syncValue : ℕ) :
    Backed ((ring.acceptSubmit index generation syncValue).2, kept)
      (.submitFrame index generation syncValue
        (ring.acceptSubmit index generation syncValue).1 :: log) := by
  cases haccept : (ring.acceptSubmit index generation syncValue).1 with
  | false =>
    rw [SurfaceRing.acceptSubmit_eq_self haccept]
    exact h.append [_] (by simp [Event.makesSurfaces])
  | true =>
    -- An accepted frame is of the ring's own generation, which stays the same.
    obtain ⟨rfl, hready⟩ := SurfaceRing.latestReady_of_acceptSubmit haccept
    have hgeneration : (ring.acceptSubmit index ring.generation syncValue).2.generation =
        ring.generation := by
      unfold SurfaceRing.acceptSubmit
      split_ifs <;> rfl
    have hsince : sinceSurfaces (.submitFrame index ring.generation syncValue true :: log) =
        .submitFrame index ring.generation syncValue true :: sinceSurfaces log :=
      List.takeWhile_cons_of_pos rfl
    constructor
    · intro index' syncValue' hshown
      rw [hgeneration, hsince]
      rcases hshown with hlatest | hkept
      · obtain ⟨rfl, rfl⟩ := Prod.mk.inj (Option.some.inj (hready.symm.trans hlatest))
        exact List.mem_cons_self ..
      · exact List.mem_cons_of_mem _ (h.accepted index' syncValue' (.inr hkept))
    · intro index' syncValue' hkept
      rw [hsince]
      exact List.mem_cons_of_mem _ (h.shown index' syncValue' hkept)

/-- What may be shown is backed by the log, and `shown` is what has been shown. -/
def Shown (shown : List (ℕ × ℕ)) (w : World κ β) : Prop :=
  Backed w.rt.showable w.log ∧ shownFrames w.log = shown

/-- Events that show nothing show no frame. -/
theorem shownFrames_append {es : List Event} (he : ∀ e ∈ es, e.shown? = none) (log : List Event) :
    shownFrames (es ++ log) = shownFrames log := by
  rw [shownFrames, List.filterMap_append, List.filterMap_eq_nil_iff.mpr he]
  rfl

section Methods

variable (shown : List (ℕ × ℕ))

/-- A method that makes no surfaces, shows nothing and keeps the ring keeps `Shown`. -/
theorem Shown.append {shown : List (ℕ × ℕ)} {w w' : World κ β} (h : Shown shown w) (es : List Event)
    (he : ∀ e ∈ es, e.makesSurfaces = false ∧ e.shown? = none) (hlog : w'.log = es ++ w.log)
    (hrt : w'.rt.showable = w.rt.showable) : Shown shown w' := by
  refine ⟨?_, ?_⟩
  · rw [hlog, hrt]
    exact h.1.append es fun e h => (he e h).1
  · rw [hlog, shownFrames_append fun e h => (he e h).2]
    exact h.2

/-- A runtime that forgets the frame it kept. -/
theorem Shown.forget {shown : List (ℕ × ℕ)} {w w' : World κ β} (h : Shown shown w)
    (hlog : w'.log = w.log) (hrt : w'.rt.showable = (w.rt.ring, none)) : Shown shown w' := by
  refine ⟨?_, hlog ▸ h.2⟩
  rw [hlog, hrt]
  exact h.1.forget

/-- A callback keeps `Shown`: a frame it reports is accepted for the newest surfaces. -/
theorem hostCall_shown (c : HostCall) {shown : List (ℕ × ℕ)} {w : World κ β} (h : Shown shown w) :
    Shown shown ((hostCall env c).run w).2 := by
  cases c with
  | submitFrame index generation syncValue =>
    exact ⟨h.1.submit index generation syncValue, h.2⟩
  | audioSample frames n =>
    obtain ⟨_, _, _, hrun, -⟩ := onAudioSample_run env frames n w
    rw [hostCall, hrun]
    exact h
  | videoRefresh data width height pitch =>
    change Shown shown { w with rt := w.rt.onVideoRefresh data width height pitch }
    unfold onVideoRefresh
    split_ifs <;> exact h
  | _ => exact h

/-- The callbacks of a core keep `Shown`. -/
theorem hostCalls_shown (cs : List HostCall) {shown : List (ℕ × ℕ)} {w : World κ β}
    (h : Shown shown w) :
    Shown shown ((hostCalls env cs).run w).2 := by
  induction cs generalizing w with
  | nil => exact h
  | cons c cs ih => exact ih (hostCall_shown env c h)

/-! ### The methods -/

/-- A loader call and the callbacks during it. -/
theorem callLoader_shown {α : Type} (f : CoreLoader → κ → LoaderOutcome κ α) :
    ⦃fun w => ⌜Shown shown w⌝⦄ callLoader env f ⦃⇓ _ w => ⌜Shown shown w⌝⦄ := by
  refine triple_of_run fun w hw => hostCalls_shown env _ (hw.append _ (fun e he => ?_) rfl rfl)
  obtain ⟨call, -, rfl⟩ := List.mem_map.mp (List.mem_reverse.mp he)
  exact ⟨rfl, rfl⟩

/-- Logging another event keeps `Shown`. -/
theorem record_shown {e : Event} (he : e.makesSurfaces = false ∧ e.shown? = none) :
    ⦃fun w => ⌜Shown shown w⌝⦄ (record e : RuntimeM κ β Unit) ⦃⇓ _ w => ⌜Shown shown w⌝⦄ :=
  triple_of_run fun _ hw => hw.append [e] (by simpa using he) rfl rfl

/-- Asking for the description of a core keeps `Shown`. -/
theorem callGetInfo_shown :
    ⦃fun w => ⌜Shown shown w⌝⦄ callGetInfo env ⦃⇓ _ w => ⌜Shown shown w⌝⦄ :=
  triple_of_run fun _ hw => hostCalls_shown env _ (hw.append [.abi .getInfo]
    (by simp [Event.makesSurfaces, Event.shown?]) rfl rfl)

/-- Releasing the module keeps `Shown`. -/
theorem resetModule_shown :
    ⦃fun w => ⌜Shown shown w⌝⦄ resetModule env ⦃⇓ _ w => ⌜Shown shown w⌝⦄ := by
  refine triple_of_run fun w hw => ?_
  change Shown shown ((if w.rt.module then _ else _ : RuntimeM κ β Unit).run w).2
  split_ifs
  · exact hw.append [.releaseModule] (by simp [Event.makesSurfaces, Event.shown?]) rfl rfl
  · exact hw

/-- Opening the audio output keeps `Shown`. -/
theorem openAudio_shown (av : AvInfo) :
    ⦃fun w => ⌜Shown shown w⌝⦄ openAudio env av ⦃⇓ _ w => ⌜Shown shown w⌝⦄ := by
  mvcgen [openAudio]

/-- A failed allocation leaves the frames of the surfaces before it. -/
theorem allocateSurfaces_shown :
    ⦃fun w => ⌜Shown shown w⌝⦄ allocateSurfaces env
      ⦃⇓ r w => ⌜shownFrames w.log = shown ∧ (r.1 ≠ .ok → Shown shown w)⌝⦄ := by
  refine triple_of_run fun w hw => ⟨hw.2, fun hfailed => ?_⟩
  refine hw.append [.allocateSurfaces ((allocateSurfaces env).run w).1.1] (fun e he => ?_) rfl rfl
  obtain rfl := List.mem_singleton.mp he
  exact ⟨decide_eq_false hfailed, rfl⟩

/-- A ring that has just been reallocated has nothing to show. -/
theorem shown_reallocate {shown : List (ℕ × ℕ)} {w : World κ β} (h : shownFrames w.log = shown) :
    Shown shown { w with rt := { w.rt with
      ring := w.rt.ring.reallocate w.rt.width w.rt.height, haveLastReady := false } } :=
  ⟨backed_reallocate w.rt.ring w.rt.width w.rt.height w.log, h⟩

/-- `rebuild_surfaces` keeps `Shown`, whether or not it succeeds. -/
theorem rebuildSurfaces_shown :
    ⦃fun w => ⌜Shown shown w⌝⦄ rebuildSurfaces env ⦃⇓ _ w => ⌜Shown shown w⌝⦄ := by
  have hstop := callLoader_shown env shown (·.stop env.core ·)
  have hallocate := allocateSurfaces_shown env shown
  have hset := fun set => callLoader_shown env shown (·.setSurfaces env.core set ·)
  mvcgen [rebuildSurfaces, hstop, hallocate, hset]
  all_goals first | exact shown_reallocate (by simp_all) | simp_all

/-- `unload_core` keeps `Shown`. -/
theorem unloadCore_shown :
    ⦃fun w => ⌜Shown shown w⌝⦄ unloadCore env ⦃⇓ _ w => ⌜Shown shown w⌝⦄ := by
  have hdestroy := callLoader_shown env shown (·.destroy env.core ·)
  have hreset := resetModule_shown env shown
  mvcgen [unloadCore, hdestroy, hreset]
  rename_i w hw t
  have hclosed : t.2.rt = w.rt ∧ t.2.log = w.log := by
    simp only [t]
    split_ifs <;> exact ⟨rfl, rfl⟩
  exact hw.forget hclosed.2 (congrArg (fun rt => rt.clearCore.showable) hclosed.1)

/-- Unloading with a result keeps `Shown`. -/
theorem unloadWith_shown (r : RpResult) :
    ⦃fun w => ⌜Shown shown w⌝⦄ unloadWith env r ⦃⇓ _ w => ⌜Shown shown w⌝⦄ := by
  have hunload := unloadCore_shown env shown
  mvcgen [unloadWith, hunload]

/-- `resize` keeps `Shown`. -/
theorem resize_shown (width height : UInt32) :
    ⦃fun w => ⌜Shown shown w⌝⦄ resize env width height ⦃⇓ _ w => ⌜Shown shown w⌝⦄ := by
  have hrebuild := rebuildSurfaces_shown env shown
  have hstart := callLoader_shown env shown (·.start env.core ·)
  mvcgen [resize, hrebuild, hstart]

/-- `finish_load_core` keeps `Shown`. -/
theorem finishLoadCore_shown (type : CoreType) :
    ⦃fun w => ⌜Shown shown w⌝⦄ finishLoadCore env type ⦃⇓ _ w => ⌜Shown shown w⌝⦄ := by
  have hask := callLoader_shown env shown (·.getAvInfo env.core ·)
  have hunload := unloadWith_shown env shown
  have haudio := openAudio_shown env shown
  have hrebuild := rebuildSurfaces_shown env shown
  have hstart := callLoader_shown env shown (·.start env.core ·)
  mvcgen [finishLoadCore, hask, hunload, haudio, hrebuild, hstart]

/-- Giving up a load keeps `Shown`. -/
theorem abandonLoad_shown (r : RpResult) :
    ⦃fun w => ⌜Shown shown w⌝⦄ abandonLoad env r ⦃⇓ _ w => ⌜Shown shown w⌝⦄ := by
  have hdestroy := callLoader_shown env shown (·.destroy env.core ·)
  have hreset := resetModule_shown env shown
  mvcgen [abandonLoad, hdestroy, hreset]

/-- `load_core` keeps `Shown`. -/
theorem loadCore_shown (dir : String) :
    ⦃fun w => ⌜Shown shown w⌝⦄ loadCore env dir ⦃⇓ _ w => ⌜Shown shown w⌝⦄ := by
  have hunload := unloadCore_shown env shown
  have hreset := resetModule_shown env shown
  have hrecord := record_shown (κ := κ) (β := β) shown (e := .openModule) ⟨rfl, rfl⟩
  have hload := callLoader_shown env shown (·.load env.core true ·)
  have hcreate := callLoader_shown env shown (·.create env.core ·)
  have habandon := abandonLoad_shown env shown
  have hfinish := finishLoadCore_shown env shown
  mvcgen [loadCore, hunload, hreset, hrecord, hload, hcreate, habandon, hfinish]

/-- `load_static_core` keeps `Shown`. -/
theorem loadStaticCore_shown (id : String) :
    ⦃fun w => ⌜Shown shown w⌝⦄ loadStaticCore env id ⦃⇓ _ w => ⌜Shown shown w⌝⦄ := by
  have hunload := unloadCore_shown env shown
  have hreset := resetModule_shown env shown
  have hrecord := record_shown (κ := κ) (β := β) shown (e := .openModule) ⟨rfl, rfl⟩
  have hload := callLoader_shown env shown (·.load env.core true ·)
  have hinfo := callGetInfo_shown env shown
  have hcreate := callLoader_shown env shown (·.create env.core ·)
  have habandon := abandonLoad_shown env shown
  have hfinish := finishLoadCore_shown env shown
  mvcgen [loadStaticCore, hunload, hreset, hrecord, hload, hinfo, hcreate, habandon, hfinish]

/-- `load_content` keeps `Shown`. -/
theorem loadContent_shown (path : Option String) :
    ⦃fun w => ⌜Shown shown w⌝⦄ loadContent env path ⦃⇓ _ w => ⌜Shown shown w⌝⦄ := by
  have hload := callLoader_shown env shown (·.loadContent env.core (path.getD "") ·)
  have hstart := callLoader_shown env shown (·.start env.core ·)
  have hask := callLoader_shown env shown (·.getAvInfo env.core ·)
  have haudio := openAudio_shown env shown
  mvcgen [loadContent, hload, hstart, hask, haudio]

/-- `reset` keeps `Shown`. -/
theorem reset_shown :
    ⦃fun w => ⌜Shown shown w⌝⦄ reset env ⦃⇓ _ w => ⌜Shown shown w⌝⦄ := by
  have hdestroy := callLoader_shown env shown (·.destroy env.core ·)
  have hload := fun module => callLoader_shown env shown (·.load env.core module ·)
  have hcreate := callLoader_shown env shown (·.create env.core ·)
  have hunload := unloadWith_shown env shown
  have hfinish := finishLoadCore_shown env shown
  have hcontent := loadContent_shown env shown
  mvcgen [reset, hdestroy, hload, hcreate, hunload, hfinish, hcontent]
  rename_i w hw _ _ _ _
  exact Shown.forget hw rfl rfl

/-- The capture of a rewind snapshot keeps `Shown`. -/
theorem captureRewind_shown :
    ⦃fun w => ⌜Shown shown w⌝⦄ captureRewind env ⦃⇓ _ w => ⌜Shown shown w⌝⦄ := by
  have hsize := callLoader_shown env shown (·.serializeSize env.core ·)
  have hserialize := fun size => callLoader_shown env shown (·.serialize env.core size ·)
  mvcgen [captureRewind, hsize, hserialize]

/-- `advance` keeps `Shown`. -/
theorem advance_shown (emit : Bool) :
    ⦃fun w => ⌜Shown shown w⌝⦄ advance env emit ⦃⇓ _ w => ⌜Shown shown w⌝⦄ := by
  have hcapture := captureRewind_shown env shown
  have hframe := fun i₀ i₁ => callLoader_shown env shown (·.runFrame env.core i₀ i₁ ·)
  mvcgen [advance, hcapture, hframe]

/-- `save_state` keeps `Shown`. -/
theorem saveState_shown (buf : Bool) (size : ℕ) :
    ⦃fun w => ⌜Shown shown w⌝⦄ saveState env buf size ⦃⇓ _ w => ⌜Shown shown w⌝⦄ := by
  have hsize := callLoader_shown env shown (·.serializeSize env.core ·)
  have hserialize := fun size => callLoader_shown env shown (·.serialize env.core size ·)
  mvcgen [saveState, hsize, hserialize]

/-- `load_state` keeps `Shown`. -/
theorem loadState_shown (data : Blob) :
    ⦃fun w => ⌜Shown shown w⌝⦄ loadState env data ⦃⇓ _ w => ⌜Shown shown w⌝⦄ := by
  have hunserialize := callLoader_shown env shown (·.unserialize env.core data ·)
  mvcgen [loadState, hunserialize]

/-- `set_rewind` keeps `Shown`. -/
theorem setRewind_shown (enabled : Bool) (maxSnapshots : ℕ) :
    ⦃fun w => ⌜Shown shown w⌝⦄ setRewind env enabled maxSnapshots ⦃⇓ _ w => ⌜Shown shown w⌝⦄ := by
  have hsize := callLoader_shown env shown (·.serializeSize env.core ·)
  mvcgen [setRewind, hsize]

/-- `rewind` keeps `Shown`. -/
theorem rewind_shown :
    ⦃fun w => ⌜Shown shown w⌝⦄ rewind env ⦃⇓ _ w => ⌜Shown shown w⌝⦄ := by
  have hunserialize := fun data => callLoader_shown env shown (·.unserialize env.core data ·)
  mvcgen [rewind, hunserialize]

end Methods

/-! ### The frames a call shows -/

/-- The frame that `render` passes to `composite_and_present`. -/
def rendered (rt : Runtime) : Option (ℕ × ℕ) :=
  if !rt.backend then none
  else if rt.coreLoaded ∧ rt.coreType = .driven then none
  else if rt.renderTarget.2.2 then some (rt.renderTarget.1, rt.renderTarget.2.1)
  else none

/-- The frame that a call passes to `composite_and_present`. -/
def shows (rt : Runtime) : ApiCall → Option (ℕ × ℕ)
  | .render _ | .present _ => rt.rendered
  | _ => none

/-- The render of a presenting core shows the frame it looks up. -/
theorem renderRing_shown {shown : List (ℕ × ℕ)} {w : World κ β} (h : Shown shown w) (out : Bool) :
    Shown ((if w.rt.renderTarget.2.2 then some (w.rt.renderTarget.1, w.rt.renderTarget.2.1)
      else none).toList ++ shown) ((renderRing env out).run w).2 := by
  rcases htarget : w.rt.renderTarget with ⟨index, syncValue, has⟩
  cases has with
  | true =>
    obtain ⟨hrt, hlog⟩ := renderRing_run env out w htarget
    have hbacked : Backed w.rt.showable (.composite index syncValue true :: w.log) :=
      h.1.append [_] (by simp [Event.makesSurfaces])
    refine ⟨?_, ?_⟩
    · rw [hrt, hlog]
      split_ifs with hpaused
      · exact hbacked
      · -- The frame that is kept is the latest ready one.
        have hready := renderTarget_eq w.rt
        rw [if_neg hpaused, htarget] at hready
        exact hbacked.keep hready List.mem_cons_self
    · rw [hlog]
      exact congrArg (_ :: ·) h.2
  | false =>
    have hrun : ((renderRing env out).run w).2.rt = w.rt ∧
        ((renderRing env out).run w).2.log = .composite index syncValue false :: w.log := by
      unfold renderRing
      rw [get_bind_run, htarget]
      simp only [Bool.and_false, Bool.false_eq_true, if_false]
      exact ⟨rfl, rfl⟩
    rw [Shown, hrun.1, hrun.2]
    exact ⟨h.1.append [_] (by simp [Event.makesSurfaces]), h.2⟩

/-- The render of a driven core shows no frame of the ring. -/
theorem renderDriven_shown {shown : List (ℕ × ℕ)} {w : World κ β} (h : Shown shown w) (out : Bool) :
    Shown shown ((renderDriven env out).run w).2 := by
  unfold renderDriven
  rw [get_bind_run]
  by_cases hgl : (w.rt.drIsGl && w.rt.drHave) = true
  · rw [if_pos hgl]
    exact h
  · rw [if_neg hgl]
    exact h

/-- `render` shows the frame it finds, if any. -/
theorem render_shown {shown : List (ℕ × ℕ)} {w : World κ β} (h : Shown shown w) (out : Bool) :
    Shown (w.rt.rendered.toList ++ shown) ((render env out).run w).2 := by
  unfold render rendered
  rw [get_bind_run]
  by_cases hbackend : (!w.rt.backend) = true
  · rw [if_pos hbackend, if_pos hbackend]
    exact h
  rw [if_neg hbackend, if_neg hbackend]
  by_cases hdriven : w.rt.coreLoaded ∧ w.rt.coreType = .driven
  · rw [if_pos hdriven, if_pos hdriven]
    exact renderDriven_shown env h out
  · rw [if_neg hdriven, if_neg hdriven]
    exact renderRing_shown env h out

/-- With a driven core `render` finds no frame. -/
theorem rendered_driven {rt : Runtime} (h : rt.coreLoaded = true ∧ rt.coreType = .driven) :
    rt.rendered = none := by
  unfold rendered
  rw [if_pos h, ite_self]

/-- `present` shows the frame that its `render` finds. -/
theorem present_shown {shown : List (ℕ × ℕ)} {w : World κ β} (h : Shown shown w) (out : Bool) :
    Shown (w.rt.rendered.toList ++ shown) ((present env out).run w).2 := by
  unfold present
  rw [get_bind_run]
  by_cases hdriven : w.rt.coreLoaded = true ∧ w.rt.coreType = .driven ∧ (!w.rt.paused) = true
  · -- A driven core that has been advanced is still a driven core.
    have hview := (run_of_triple (advance_quiet env w.control true) (.refl w.control)).1
    have hadvance := run_of_triple (advance_shown env shown true) h
    rw [if_pos hdriven, rendered_driven ⟨hdriven.1, hdriven.2.1⟩]
    rcases hrun : (advance env true).run w with ⟨r, w'⟩
    rw [hrun] at hadvance hview
    have hdriven' : w'.rt.coreLoaded = true ∧ w'.rt.coreType = .driven :=
      ⟨(congrArg View.coreLoaded hview).trans hdriven.1,
        (congrArg View.coreType hview).trans hdriven.2.1⟩
    rw [run_bind_of_eq hrun]
    by_cases hok : r = .ok
    · have hrender := render_shown env hadvance out
      rw [rendered_driven hdriven'] at hrender
      rw [if_neg (not_not_intro hok)]
      exact hrender
    · rw [if_pos hok]
      exact hadvance
  · rw [if_neg hdriven]
    exact render_shown env h out

/-- A call shows the frame of `shows` and no other. -/
theorem call_shown {shown : List (ℕ × ℕ)} {w : World κ β} (h : Shown shown w) (a : ApiCall) :
    Shown ((shows w.rt a).toList ++ shown) ((call env a).run w).2 := by
  cases a with
  | loadCore dir => exact run_of_triple (loadCore_shown env shown dir) h
  | loadStaticCore id => exact run_of_triple (loadStaticCore_shown env shown id) h
  | unloadCore => exact run_of_triple (unloadCore_shown env shown) h
  | loadContent path => exact run_of_triple (loadContent_shown env shown path) h
  | resize width height => exact run_of_triple (resize_shown env shown width height) h
  | setInput port input =>
    change Shown shown { w with rt := if port &&& 1 = 0 then _ else _ }
    split_ifs <;> exact h
  | present out => exact present_shown env h out
  | advance emit => exact run_of_triple (advance_shown env shown emit) h
  | render out => exact render_shown env h out
  | serializeSize => exact run_of_triple (callLoader_shown env shown _) h
  | saveState buf size => exact run_of_triple (saveState_shown env shown buf size) h
  | loadState data => exact run_of_triple (loadState_shown env shown data) h
  | setRewind on n => exact run_of_triple (setRewind_shown env shown on n) h
  | rewind => exact run_of_triple (rewind_shown env shown) h
  | pause =>
    change Shown shown { w with rt := if w.rt.coreLoaded then _ else _ }
    split_ifs <;> exact h
  | resume => exact h
  | reset => exact run_of_triple (reset_shown env shown) h
  | coreThread calls => exact hostCalls_shown env calls h

end Runtime

end RetroPark
