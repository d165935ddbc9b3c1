import RetroPark.Runtime.Triples

/-!
# The frames of a driven core

`Runtime::advance` keeps what the core's callbacks deliver in a frame, and `Runtime::render` hands
it to the backend or has the backend show its last frame again.

* `LastVideo` is what has been delivered, `refresh` the effect of a callback on it, and `frame` what
  is handed over;
* `frame_foldl`: a frame that the callbacks deliver in full does not depend on what came before;
* `advance_eq_frameRun` and `render_driving`: the two methods on a core that is ready to run.
-/

namespace RetroPark

/-- A frame as `render` hands it to the backend. -/
inductive Frame
  | texture (tex width height : UInt32) (bottomLeftOrigin : Bool)
  | cpu (data : Option Blob) (width height pitch : UInt32)
  deriving DecidableEq, Repr

/-- What the callbacks of a driven core have delivered last. -/
structure LastVideo where
  data : Option Blob
  width : UInt32
  height : UInt32
  pitch : UInt32
  dupe : Bool
  delivered : Bool
  isGl : Bool
  glTex : UInt32
  glW : UInt32
  glH : UInt32
  glBlo : Bool
  deriving DecidableEq

namespace LastVideo

/-- The effect of one callback. -/
def refresh (v : LastVideo) : HostCall → LastVideo
  | .videoRefresh data width height pitch =>
      if data.isNone && v.isGl then { v with delivered := true }
      else
        { v with
          delivered := true, dupe := data.isNone, isGl := false, data, width, height, pitch }
  | .videoRefreshGl glTex glW glH glBlo =>
      { v with delivered := true, dupe := false, isGl := true, glTex, glW, glH, glBlo }
  | _ => v

/-- `render` composites the core's texture. -/
def showsGl (v : LastVideo) : Bool := v.isGl && v.delivered

/-- `render` uploads the frame that was delivered last. -/
def showsCpu (v : LastVideo) (maxW maxH : UInt32) : Bool :=
  !v.showsGl && (v.delivered && !v.dupe &&
    Runtime.drivenFrameValid v.width v.height v.pitch maxW maxH)

/-- When a CPU frame is shown. -/
theorem showsCpu_iff {v : LastVideo} {maxW maxH : UInt32} :
    v.showsCpu maxW maxH = true ↔ v.delivered = true ∧ v.isGl = false ∧ v.dupe = false ∧
      Runtime.drivenFrameValid v.width v.height v.pitch maxW maxH = true := by
  unfold showsCpu showsGl
  cases v.delivered <;> cases v.isGl <;> cases v.dupe <;> simp

/-- The frame `render` hands to the backend; without one the backend shows the last one again. -/
def frame (v : LastVideo) (maxW maxH : UInt32) : Option Frame :=
  if v.showsGl then some (.texture v.glTex v.glW v.glH v.glBlo)
  else if v.showsCpu maxW maxH then some (.cpu v.data v.width v.height v.pitch)
  else none

/-- Nothing has been delivered. -/
def blank : LastVideo :=
  { data := none, width := 0, height := 0, pitch := 0, dupe := false, delivered := false,
    isGl := false, glTex := 0, glW := 0, glH := 0, glBlo := false }

/-- Whatever frame `u` has, `v` has as well. -/
inductive Covers (u v : LastVideo) : Prop
  | nothing (isGl : u.isGl = false) (nothing : u.delivered = false ∨ u.dupe = true)
  | texture (isGl : u.isGl = true ∧ v.isGl = true)
      (delivered : u.delivered = true ∧ v.delivered = true)
      (glTex : u.glTex = v.glTex) (glW : u.glW = v.glW) (glH : u.glH = v.glH)
      (glBlo : u.glBlo = v.glBlo)
  | cpu (isGl : u.isGl = false ∧ v.isGl = false)
      (delivered : u.delivered = true ∧ v.delivered = true)
      (dupe : u.dupe = v.dupe) (data : u.data = v.data) (width : u.width = v.width)
      (height : u.height = v.height) (pitch : u.pitch = v.pitch)

namespace Covers

variable {u v : LastVideo}

/-- A callback covers what it covered. -/
theorem refresh (h : Covers u v) (c : HostCall) : Covers (u.refresh c) (v.refresh c) := by
  cases c with
  | videoRefreshGl tex width height blo => exact .texture ⟨rfl, rfl⟩ ⟨rfl, rfl⟩ rfl rfl rfl rfl
  | videoRefresh data width height pitch =>
    cases data with
    | some bytes =>
      exact .cpu ⟨rfl, rfl⟩ ⟨rfl, rfl⟩ rfl rfl rfl rfl rfl
    | none =>
      -- A repeat keeps a texture and turns anything else into a duplicate.
      cases h with
      | nothing hgl _ =>
        rw [LastVideo.refresh, if_neg (by simp [hgl])]
        exact .nothing rfl (.inr rfl)
      | texture hgl _ htex hwidth hheight hblo =>
        rw [LastVideo.refresh, LastVideo.refresh, if_pos (by simp [hgl]), if_pos (by simp [hgl])]
        exact .texture hgl ⟨rfl, rfl⟩ htex hwidth hheight hblo
      | cpu hgl =>
        rw [LastVideo.refresh, if_neg (by simp [hgl])]
        exact .nothing rfl (.inr rfl)
  | _ => exact h

/-- The callbacks of a frame cover what they covered. -/
theorem foldl (h : Covers u v) (cs : List HostCall) :
    Covers (cs.foldl LastVideo.refresh u) (cs.foldl LastVideo.refresh v) := by
  induction cs generalizing u v with
  | nil => exact h
  | cons c cs ih => exact ih (h.refresh c)

/-- A frame that is there is covered. -/
theorem frame (h : Covers u v) {maxW maxH : UInt32} {f : Frame} (hf : u.frame maxW maxH = some f) :
    v.frame maxW maxH = some f := by
  cases h with
  | nothing hgl hnothing =>
    rcases hnothing with h | h <;> simp [LastVideo.frame, showsGl, showsCpu, hgl, h] at hf
  | texture hgl hdelivered htex hwidth hheight hblo =>
    simpa [LastVideo.frame, showsGl, hgl, hdelivered, htex, hwidth, hheight, hblo] using hf
  | cpu hgl hdelivered hdupe hdata hwidth hheight hpitch =>
    simpa [LastVideo.frame, showsGl, showsCpu, hgl, hdelivered, hdupe, hdata, hwidth,
      hheight, hpitch]
      using hf

end Covers

/-- A frame that the callbacks deliver in full does not depend on what came before. -/
theorem frame_foldl {cs : List HostCall} {maxW maxH : UInt32} {f : Frame}
    (h : (cs.foldl refresh blank).frame maxW maxH = some f) (v : LastVideo) :
    (cs.foldl refresh v).frame maxW maxH = some f :=
  ((Covers.nothing rfl (.inl rfl)).foldl cs).frame h

end LastVideo

namespace Runtime

/-- The fields `video_refresh` and `video_refresh_gl` write. -/
def lastVideo (rt : Runtime) : LastVideo where
  data := rt.drData
  width := rt.drW
  height := rt.drH
  pitch := rt.drPitch
  dupe := rt.drDupe
  delivered := rt.drHave
  isGl := rt.drIsGl
  glTex := rt.drGlTex
  glW := rt.drGlW
  glH := rt.drGlH
  glBlo := rt.drGlBlo

variable {κ β : Type} (env : Env κ β)

/-- What a callback does to the last frame. -/
theorem hostCall_lastVideo (c : HostCall) (w : World κ β) :
    ((hostCall env c).run w).2.rt.lastVideo = w.rt.lastVideo.refresh c := by
  cases c with
  | audioSample frames n =>
    obtain ⟨_, _, _, hrun, -⟩ := onAudioSample_run env frames n w
    rw [hostCall, hrun]
    rfl
  | videoRefresh data width height pitch =>
    change (w.rt.onVideoRefresh data width height pitch).lastVideo = _
    by_cases hrepeat : (data.isNone && w.rt.drIsGl) = true
    · rw [onVideoRefresh, if_pos hrepeat]
      exact (if_pos hrepeat).symm
    · rw [onVideoRefresh, if_neg hrepeat]
      exact (if_neg hrepeat).symm
  | _ => rfl

/-- What the callbacks of a core do to the last frame. -/
theorem hostCalls_lastVideo (cs : List HostCall) (w : World κ β) :
    ((hostCalls env cs).run w).2.rt.lastVideo = cs.foldl LastVideo.refresh w.rt.lastVideo := by
  induction cs generalizing w with
  | nil => rfl
  | cons c cs ih => exact (ih _).trans (congrArg (cs.foldl _) (hostCall_lastVideo env c w))

/-- The `run_frame` call of `advance`. -/
def frameRun (emit : Bool) (w : World κ β) : RpResult × World κ β :=
  (callLoader env (·.runFrame env.core w.rt.input0 w.rt.input1 ·)).run
    { w with rt := { w.rt with drHave := false, suppressAudio := !emit } }

/-- The callbacks of a core's next frame. -/
def frameCalls (w : World κ β) : List HostCall :=
  (w.rt.loader.runFrame env.core w.rt.input0 w.rt.input1 w.core).calls

/-- What a frame of the core does to the last frame. -/
theorem frameRun_lastVideo (emit : Bool) (w : World κ β) :
    (frameRun env emit w).2.rt.lastVideo =
      (frameCalls env w).foldl LastVideo.refresh { w.rt.lastVideo with delivered := false } :=
  hostCalls_lastVideo env _ _

/-- A frame of the core leaves the steady part alone, but for the flag of a delivery. -/
theorem frameRun_steady (emit : Bool) (w : World κ β) :
    (frameRun env emit w).2.rt.steady =
      ({ w.rt with drHave := false, suppressAudio := !emit } : Runtime).steady := by
  obtain ⟨w', hrun, -, hrt⟩ := callLoader_steady env
    (·.runFrame env.core w.rt.input0 w.rt.input1 ·)
    { w with rt := { w.rt with drHave := false, suppressAudio := !emit } }
    (CoreLoader.runFrame_loader env.core _ _ _ _)
  rw [frameRun, hrun, hrt]

/-- A frame is the capture of a snapshot and a call of `run_frame`. -/
theorem advance_eq_frameRun {w w' : World κ β} (hdriving : w.rt.driving = true)
    (hcapture : (captureRewind env).run w = ((), w')) (emit : Bool) :
    (advance env emit).run w = ((frameRun env emit w').1,
      { (frameRun env emit w').2 with
        rt := { (frameRun env emit w').2.rt with suppressAudio := false } }) := by
  simp only [driving, Bool.and_eq_true, decide_eq_true_eq, Bool.or_eq_true,
    Bool.not_eq_true'] at hdriving
  obtain ⟨⟨⟨hbackend, hloaded⟩, htype⟩, hcontent⟩ := hdriving
  have hcontent' : ¬(w.rt.requiresContent ∧ !w.rt.contentLoaded) := by
    rintro ⟨hreq, hnot⟩
    rcases hcontent with h | h <;> simp [h] at hreq hnot
  unfold advance
  rw [get_bind_run, if_neg (by simp [hbackend]), if_neg (not_not_intro ⟨hloaded, htype⟩),
    if_neg hcontent', run_bind_of_eq hcapture, update_bind_run, get_bind_run, StateT.run_bind]
  rfl

/-- A frame of a core that is not being rewound is one call of `run_frame`. -/
theorem advance_driving {w : World κ β} (hdriving : w.rt.driving = true)
    (hreplay : w.rt.rewindReplay = false) (hrewind : w.rt.rewindEnabled = false) (emit : Bool) :
    (advance env emit).run w = ((frameRun env emit w).1,
      { (frameRun env emit w).2 with
        rt := { (frameRun env emit w).2.rt with suppressAudio := false } }) := by
  refine advance_eq_frameRun env hdriving ?_ emit
  unfold captureRewind
  rw [get_bind_run, if_neg (by simp [hreplay]), get_bind_run, if_neg (by simp [hrewind])]
  rfl

/-- The frame `render` hands to the backend. -/
def handed (rt : Runtime) : Option Frame := rt.lastVideo.frame rt.drMaxW rt.drMaxH

/-- The composite of a frame, or of the last one again. -/
def composite (b : β) (rt : Runtime) (wantPixels : Bool) : RpResult × β :=
  match rt.handed with
  | some (.texture tex width height blo) =>
      env.gpu.compositeExternalGl b tex width height blo wantPixels
  | some (.cpu data width height pitch) =>
      env.gpu.compositeDriven b data width height pitch false wantPixels
  | none => env.gpu.compositeDriven b none rt.drW rt.drH rt.drPitch true wantPixels

/-- `render` on a driven core hands over its frame. -/
theorem render_driving {w : World κ β} (hdriving : w.rt.driving = true) (wantPixels : Bool) :
    (render env wantPixels).run w =
      ((composite env w.gpu w.rt wantPixels).1,
        { w with gpu := (composite env w.gpu w.rt wantPixels).2 }) := by
  simp only [driving, Bool.and_eq_true, decide_eq_true_eq] at hdriving
  obtain ⟨⟨⟨hbackend, hloaded⟩, htype⟩, -⟩ := hdriving
  unfold render renderDriven
  rw [get_bind_run, if_neg (by simp [hbackend]), if_pos ⟨hloaded, htype⟩, get_bind_run]
  by_cases hgl : w.rt.lastVideo.showsGl = true
  · have hhanded : w.rt.handed =
        some (.texture w.rt.drGlTex w.rt.drGlW w.rt.drGlH w.rt.drGlBlo) := if_pos hgl
    rw [if_pos (show (w.rt.drIsGl && w.rt.drHave) = true from hgl)]
    simp only [composite, hhanded]
    rfl
  · -- The test in `render` is the one that decides what is handed over.
    have hvalid : (w.rt.drHave && !w.rt.drDupe &&
        drivenFrameValid w.rt.drW w.rt.drH w.rt.drPitch w.rt.drMaxW w.rt.drMaxH) =
          w.rt.lastVideo.showsCpu w.rt.drMaxW w.rt.drMaxH := by
      rw [LastVideo.showsCpu, Bool.eq_false_of_not_eq_true hgl]
      rfl
    rw [if_neg (show ¬(w.rt.drIsGl && w.rt.drHave) = true from hgl)]
    simp only [hvalid]
    by_cases hcpu : w.rt.lastVideo.showsCpu w.rt.drMaxW w.rt.drMaxH = true
    · have hhanded : w.rt.handed =
          some (.cpu w.rt.drData w.rt.drW w.rt.drH w.rt.drPitch) :=
        (if_neg hgl).trans (if_pos hcpu)
      simp only [composite, hhanded, hcpu]
      rfl
    · have hhanded : w.rt.handed = none := (if_neg hgl).trans (if_neg hcpu)
      simp only [composite, hhanded, Bool.eq_false_of_not_eq_true hcpu]
      rfl

end Runtime

end RetroPark
