import RetroPark.Runtime.Video

/-!
# Rewinding a driven core

What the methods that capture, restore and replay snapshots do to a runtime that holds a ready core
with faithful savestates. Each leaves the steady part of the runtime as it is but for the rewind
fields, and the lemma named after it says how it moves those and the core.
-/

namespace RetroPark

/-- What a deterministic core delivers in a frame is a function of its state and the inputs. -/
structure DrivenCore.Frames {κ : Type} {core : CoreEnv κ} {c : CorePtr} {σ : Type*}
    (D : DrivenCore core c σ) where
  calls : σ → InputState × InputState → List HostCall
  runFrame_calls : ∀ k i₀ i₁, (core.runFrame k c i₀ i₁).calls = calls (D.view k) (i₀, i₁)

/-- The frame that is delivered in full, if any. -/
def DrivenCore.Frames.frame {κ : Type} {core : CoreEnv κ} {c : CorePtr} {σ : Type*}
    {D : DrivenCore core c σ} (F : D.Frames) (s : σ) (ports : InputState × InputState)
    (maxW maxH : UInt32) : Option Frame :=
  ((F.calls s ports).foldl LastVideo.refresh .blank).frame maxW maxH

theorem DrivenCore.enc_inj {κ : Type} {core : CoreEnv κ} {c : CorePtr} {σ : Type*}
    (D : DrivenCore core c σ) (k : κ) {s t : σ} (h : D.enc s = D.enc t) : s = t := by
  rw [← D.unserialize_view k s, h, D.unserialize_view]

theorem DrivenReady.driving {c : CorePtr} {rt : Runtime} (h : DrivenReady c rt) :
    rt.driving = true := by
  have hcontent : (!rt.requiresContent || rt.contentLoaded) = true := by
    cases hreq : rt.requiresContent with
    | false => rfl
    | true => simp [h.content hreq]
  simp [Runtime.driving, h.backend, h.coreLoaded, h.coreType, hcontent]

namespace Runtime

/-- The ring after the capture at the start of a frame, which a replay leaves out. -/
def capturedRing (rt : Runtime) (snap : Blob) : List Blob :=
  if rt.rewindReplay then rt.rewindRing
  else if rt.rewindEnabled then rewindRingPush rt.rewindRing snap rt.rewindMax
  else rt.rewindRing

/-- The runtime with another ring and another replay flag. -/
def withRing (rt : Runtime) (ring : List Blob) (replay : Bool) : Runtime :=
  { rt with rewindRing := ring, rewindReplay := replay }

theorem withRing_self {rt : Runtime} {replay : Bool} (h : rt.rewindReplay = replay) :
    rt.withRing rt.rewindRing replay = rt := by
  subst h
  rfl

theorem withRing_congr {rt rt' : Runtime} (h : rt'.steady = rt.steady) (ring : List Blob)
    (replay : Bool) : (rt'.withRing ring replay).steady = (rt.withRing ring replay).steady :=
  congrArg (fun r : Runtime => r.withRing ring replay) h

/-- The runtime after the capture. -/
def captured (rt : Runtime) (snap : Blob) : Runtime := rt.withRing (rt.capturedRing snap) false

variable {κ β : Type} {env : Env κ β} {c : CorePtr} {σ : Type*} {D : DrivenCore env.core c σ}
  {w : World κ β} {s : σ}

/-! ### Frames -/

/-- The snapshot of a frame is the state of the core. -/
theorem Live.captureRewind (h : Live env D w s) :
    ∃ w', (captureRewind env).run w = ((), w') ∧ D.view w'.core = s ∧
      w'.rt.steady = (w.rt.captured (D.enc s)).steady := by
  unfold Runtime.captureRewind captured capturedRing
  rw [get_bind_run]
  cases hreplay : w.rt.rewindReplay with
  | true => exact ⟨_, rfl, h.view, rfl⟩
  | false =>
    rw [if_neg Bool.false_ne_true, if_neg Bool.false_ne_true, get_bind_run]
    cases henabled : w.rt.rewindEnabled with
    | true =>
      obtain ⟨w₁, hrun₁, hrt₁, hcore₁⟩ := serializeSize_ready env h.ready
      obtain ⟨w₂, hrun₂, hrt₂, hcore₂⟩ := serialize_ready env (h.ready.congr hrt₁) (D.enc s).length
      have hview₁ : D.view w₁.core = s := by rw [hcore₁, D.serializeSize_view, h.view]
      have hsize : (env.core.serializeSize w.core c).value = (D.enc s).length := by
        rw [D.serializeSize_value, h.view]
      -- Asking for the size has not changed what the core serializes to.
      have hok : (env.core.serialize w₁.core c (D.enc s).length).value = (.ok, D.enc s) := by
        rw [← hview₁]
        exact Prod.ext (D.serialize_ok w₁.core) (D.serialize_blob w₁.core)
      have hrt := hrt₂.trans hrt₁
      have hring : w₂.rt.rewindRing = w.rt.rewindRing := (congrArg Runtime.rewindRing hrt :)
      have hmax : w₂.rt.rewindMax = w.rt.rewindMax := (congrArg Runtime.rewindMax hrt :)
      have hreplay₂ : w₂.rt.rewindReplay = false :=
        (congrArg Runtime.rewindReplay hrt :).trans hreplay
      rw [hsize] at hrun₁
      rw [if_pos rfl, if_pos rfl, run_bind_of_eq hrun₁, if_pos (D.enc_pos s), run_bind_of_eq hrun₂,
        hok]
      refine ⟨_, rfl, ?_, ?_⟩
      · show D.view w₂.core = s
        rw [hcore₂, D.serialize_view, hview₁]
      · show (w₂.rt.withRing (rewindRingPush w₂.rt.rewindRing
          (fillBuffer (D.enc s).length (D.enc s)) w₂.rt.rewindMax) w₂.rt.rewindReplay).steady = _
        rw [hring, hmax, hreplay₂, fillBuffer_length]
        exact withRing_congr hrt _ _
    | false =>
      rw [if_neg Bool.false_ne_true, if_neg Bool.false_ne_true]
      exact ⟨w, rfl, h.view, by rw [withRing_self hreplay]⟩

/-- The callbacks of a ready core's next frame. -/
theorem frameCalls_ready (h : DrivenReady c w.rt) :
    frameCalls env w = (env.core.runFrame w.core c w.rt.input0 w.rt.input1).calls := by
  simp [frameCalls, CoreLoader.runFrame, h.hasInstance, h.runFrame, h.instance_eq]

/-- A frame captures the state it starts from and steps the core. -/
theorem Live.frame (h : Live env D w s) (emit : Bool) :
    ∃ w', (Runtime.advance env emit).run w = (.ok, w') ∧
      Live env D w' (D.step s (w.rt.input0, w.rt.input1)) ∧
      w'.rt.steady = { w.rt.captured (D.enc s) with suppressAudio := false }.steady ∧
      ∀ (F : D.Frames) (f : Frame),
        F.frame s (w.rt.input0, w.rt.input1) w.rt.drMaxW w.rt.drMaxH = some f →
          w'.rt.handed = some f := by
  obtain ⟨w₁, hcapture, hview, hsteady⟩ := h.captureRewind
  have hready₁ : DrivenReady c w₁.rt := (h.ready.rewind _ _).congr hsteady
  -- Neither the capture nor the frame moves the inputs or the geometry.
  have h0 : w₁.rt.input0 = w.rt.input0 := (congrArg Runtime.input0 hsteady :)
  have h1 : w₁.rt.input1 = w.rt.input1 := (congrArg Runtime.input1 hsteady :)
  have hadvance := advance_eq_frameRun env h.ready.driving hcapture emit
  have hvideo := frameRun_lastVideo env emit w₁
  have hkeep := frameRun_steady env emit w₁
  obtain ⟨w₂, hrun, -, hcore⟩ := runFrame_ready env
    (w := { w₁ with rt := { w₁.rt with drHave := false, suppressAudio := !emit } })
    (hready₁.audio _ _) w₁.rt.input0 w₁.rt.input1
  have hframe : frameRun env emit w₁ = (.ok, w₂) := hrun
  rw [hframe] at hadvance hvideo hkeep
  refine ⟨_, hadvance, ⟨?_, ?_⟩, ?_, fun F f hf => ?_⟩
  · exact ((hready₁.audio _ _).congr hkeep).audio _ _
  · show D.view w₂.core = _
    rw [hcore, D.runFrame_view, hview, h0, h1]
  · have hsilent := congrArg (fun rt : Runtime => { rt with suppressAudio := false }) hsteady
    exact (congrArg (fun rt : Runtime => { rt with suppressAudio := false }) hkeep).trans hsilent
  · show w₂.rt.lastVideo.frame w₂.rt.drMaxW w₂.rt.drMaxH = some f
    have hmaxW : w₂.rt.drMaxW = w.rt.drMaxW :=
      (congrArg Runtime.drMaxW hkeep :).trans (congrArg Runtime.drMaxW hsteady :)
    have hmaxH : w₂.rt.drMaxH = w.rt.drMaxH :=
      (congrArg Runtime.drMaxH hkeep :).trans (congrArg Runtime.drMaxH hsteady :)
    rw [hvideo, hmaxW, hmaxH, frameCalls_ready hready₁, F.runFrame_calls, hview, h0, h1]
    exact LastVideo.frame_foldl hf _

/-- A frame is rendered after it has been run. -/
theorem Live.presentFrame (h : Live env D w s) (hpaused : w.rt.paused = false) (wantPixels : Bool) :
    ∃ r w', (Runtime.present env wantPixels).run w = (r, w') ∧
      Live env D w' (D.step s (w.rt.input0, w.rt.input1)) ∧
      w'.rt.steady = { w.rt.captured (D.enc s) with suppressAudio := false }.steady ∧
      ∀ (F : D.Frames) (f : Frame),
        F.frame s (w.rt.input0, w.rt.input1) w.rt.drMaxW w.rt.drMaxH = some f →
          w'.rt.handed = some f := by
  obtain ⟨w₁, hrun₁, hlive₁, hsteady₁, hframe₁⟩ := h.frame true
  obtain ⟨r, w₂, hrun₂, hrt₂, hcore₂⟩ := render_ready env hlive₁.ready wantPixels
  refine ⟨r, w₂, ?_, ⟨hrt₂ ▸ hlive₁.ready, hcore₂ ▸ hlive₁.view⟩, hrt₂ ▸ hsteady₁, fun F f hf => ?_⟩
  · unfold Runtime.present
    rw [get_bind_run, if_pos ⟨h.ready.coreLoaded, h.ready.coreType, by simp [hpaused]⟩,
      run_bind_of_eq hrun₁, if_neg (not_not_intro rfl), hrun₂]
  · rw [hrt₂]
    exact hframe₁ F f hf

/-- A paused present renders and runs no frame. -/
theorem Live.presentPaused (h : Live env D w s) (hpaused : w.rt.paused = true) (wantPixels : Bool) :
    ∃ r w', (Runtime.present env wantPixels).run w = (r, w') ∧ Live env D w' s ∧ w'.rt = w.rt := by
  obtain ⟨r, w', hrun, hrt, hcore⟩ := render_ready env h.ready wantPixels
  refine ⟨r, w', ?_, ⟨hrt ▸ h.ready, hcore ▸ h.view⟩, hrt⟩
  unfold Runtime.present
  rw [get_bind_run, if_neg (by simp [hpaused]), hrun]

/-! ### Snapshots -/

/-- Restoring a snapshot puts its state into the core. -/
theorem Live.rewind (h : Live env D w s) (henabled : w.rt.rewindEnabled = true)
    (hlength : 2 ≤ w.rt.rewindRing.length) {t : σ}
    (hsnap : w.rt.rewindRing.dropLast.getLast? = some (D.enc t)) :
    ∃ w', (Runtime.rewind env).run w = (.ok, w') ∧ Live env D w' t ∧
      w'.rt.steady = (w.rt.withRing w.rt.rewindRing.dropLast true).steady := by
  have hready : DrivenReady c { w.rt with rewindRing := w.rt.rewindRing.dropLast } :=
    h.ready.rewind _ _
  obtain ⟨w', hrun, hrt, hcore⟩ := unserialize_ready env
    (w := { w with rt := { w.rt with rewindRing := w.rt.rewindRing.dropLast } }) hready (D.enc t)
  -- The newest entry is dropped, and the one before it restored.
  have hlast : w.rt.rewindRing.dropLast.getLastD [] = D.enc t := by
    rw [List.getLastD_eq_getLast?, hsnap, Option.getD_some]
  refine ⟨{ w' with rt := w'.rt.withRing w'.rt.rewindRing true }, ?_, ⟨?_, ?_⟩, ?_⟩
  · unfold Runtime.rewind
    rw [get_bind_run, if_neg (by simp [henabled]), if_neg (by omega), update_bind_run, get_bind_run]
    simp only [hlast]
    rw [run_bind_of_eq hrun, update_bind_run, D.unserialize_ok]
    rfl
  · exact (hready.congr hrt).rewind _ _
  · show D.view w'.core = t
    rw [hcore, D.unserialize_view]
  · have hring : w'.rt.rewindRing = w.rt.rewindRing.dropLast := (congrArg Runtime.rewindRing hrt :)
    rw [hring]
    exact withRing_congr hrt _ _

/-- Without two snapshots there is nothing to rewind to. -/
theorem rewind_notFound (henabled : w.rt.rewindEnabled = true)
    (hlength : w.rt.rewindRing.length < 2) : (Runtime.rewind env).run w = (.notFound, w) := by
  unfold Runtime.rewind
  rw [get_bind_run, if_neg (by simp [henabled]), if_pos hlength]
  rfl

/-- The runtime after `set_rewind`, with an empty ring. -/
def rewinding (rt : Runtime) (enabled : Bool) (maxSnapshots : ℕ) : Runtime :=
  { rt with
    rewindEnabled := enabled
    rewindMax := if maxSnapshots = 0 then 600 else maxSnapshots
    rewindRing := []
    rewindReplay := false }

theorem Live.setRewind (h : Live env D w s) (enabled : Bool) (maxSnapshots : ℕ) :
    ∃ w', (Runtime.setRewind env enabled maxSnapshots).run w = (.ok, w') ∧ Live env D w' s ∧
      w'.rt.steady = (w.rt.rewinding enabled maxSnapshots).steady := by
  obtain ⟨w₁, hrun, hrt, hcore⟩ := serializeSize_ready env h.ready
  have hsize : (env.core.serializeSize w.core c).value ≠ 0 := by
    rw [D.serializeSize_value]
    exact (D.enc_pos _).ne'
  have hready := h.ready.congr hrt
  refine ⟨{ w₁ with rt := w₁.rt.rewinding enabled maxSnapshots }, ?_, ⟨?_, ?_⟩, ?_⟩
  · unfold Runtime.setRewind
    rw [run_bind_of_eq hrun, if_neg hsize]
    rfl
  · exact ⟨hready.1, hready.2, hready.3, hready.4, hready.5, hready.6, hready.7, hready.8, hready.9,
      hready.10⟩
  · show D.view w₁.core = s
    rw [hcore, D.serializeSize_view, h.view]
  · exact congrArg (rewinding · enabled maxSnapshots) hrt

/-- Loading a snapshot puts its state into the core and leaves the rewind fields alone. -/
theorem Live.loadBlob (h : Live env D w s) (data : Blob) :
    ∃ r w', (Runtime.loadState env data).run w = (r, w') ∧ DrivenReady c w'.rt ∧
      w'.rt.steady = w.rt.steady ∧ (data = [] → w' = w) ∧ ∀ t, data = D.enc t →
        D.view w'.core = t := by
  by_cases hdata : data = []
  · subst hdata
    refine ⟨.badArg, w, rfl, h.ready, rfl, fun _ => rfl, fun t ht => ?_⟩
    have hpos := D.enc_pos t
    rw [← ht] at hpos
    exact absurd hpos (lt_irrefl _)
  · obtain ⟨w', hrun, hrt, hcore⟩ := loadState_ready env h.ready (List.length_pos_iff.mpr hdata)
    refine ⟨_, w', hrun, h.ready.congr hrt, hrt, fun h => absurd h hdata, ?_⟩
    rintro t rfl
    rw [hcore, D.unserialize_view]

/-- Saving into any buffer only probes the core. -/
theorem Live.saveBlob (h : Live env D w s) (buf : Bool) (size : ℕ) :
    ∃ r w', (Runtime.saveState env buf size).run w = (r, w') ∧ Live env D w' s ∧
      w'.rt.steady = w.rt.steady := by
  unfold Runtime.saveState
  cases buf with
  | false => exact ⟨_, w, rfl, h, rfl⟩
  | true =>
    obtain ⟨w₁, hrun₁, hrt₁, hcore₁⟩ := serializeSize_ready env h.ready
    have hlive₁ : Live env D w₁ s :=
      ⟨h.ready.congr hrt₁, by rw [hcore₁, D.serializeSize_view, h.view]⟩
    rw [if_neg (by simp), run_bind_of_eq hrun₁]
    split_ifs
    · exact ⟨_, w₁, rfl, hlive₁, hrt₁⟩
    · exact ⟨_, w₁, rfl, hlive₁, hrt₁⟩
    · obtain ⟨w₂, hrun₂, hrt₂, hcore₂⟩ := serialize_ready env hlive₁.ready
        (env.core.serializeSize w.core c).value
      refine ⟨_, w₂, hrun₂, ⟨hlive₁.ready.congr hrt₂, ?_⟩, hrt₂.trans hrt₁⟩
      rw [hcore₂, D.serialize_view, hlive₁.view]

end Runtime

end RetroPark
