import RetroPark.Cores.SlideShow
import RetroPark.Runtime.Video
import RetroPark.Support.Machine

/-!
# The last good frame of a driven core

`Runtime::advance` keeps what the core delivered in the frame, and `Runtime::render` composites it.
A frame that delivered nothing, a duplicate or an invalid CPU frame is to show the last good frame
again. What is shown then is whatever `GLBackend` still has in its frame texture.

* `machine` runs `advance` and `render` on a loaded driven core, and keeps beside the world the
  picture of the last good frame and the pictures that were drawn;
* `renders_last_good`: what has to hold of a run for every composite to show the last good frame.
-/

namespace RetroPark

namespace Gl

section OnGl

variable {κ α : Type} (core : CoreEnv κ) (modules : ModuleEnv κ) (audio : AudioEnv α)

/-- A callback does not reach the backend. -/
theorem hostCall_gl (c : HostCall) (w : World κ (GLBackend × α)) :
    ((Runtime.hostCall (onGl core modules audio) c).run w).2.gpu.1 = w.gpu.1 := by
  cases c with
  | audioSample frames n =>
    obtain ⟨_, _, gpu, hrun, hgpu⟩ :=
      Runtime.onAudioSample_run (onGl core modules audio) frames n w
    rw [Runtime.hostCall, hrun]
    rcases hgpu with rfl | ⟨samples, rfl⟩ <;> rfl
  | _ => rfl

/-- Callbacks do not draw. -/
theorem hostCalls_gl (cs : List HostCall) (w : World κ (GLBackend × α)) :
    ((Runtime.hostCalls (onGl core modules audio) cs).run w).2.gpu.1 = w.gpu.1 := by
  induction cs generalizing w with
  | nil => rfl
  | cons c cs ih => exact (ih _).trans (hostCall_gl core modules audio c w)

/-- A frame of the core does not reach the backend. -/
theorem frameRun_gl (emit : Bool) (w : World κ (GLBackend × α)) :
    (Runtime.frameRun (onGl core modules audio) emit w).2.gpu.1 = w.gpu.1 :=
  hostCalls_gl core modules audio _ _

end OnGl

namespace GLBackend

/-- A call of the driver changes the driver alone. -/
theorem driverCall_run (b : GLBackend) :
    ∃ ok driver, driverCall.run b = (ok, { b with driver }) := by
  obtain ⟨width, height, headless, ready, frameTex, texW, texH, target, driver⟩ := b
  cases driver with
  | nil => exact ⟨true, [], rfl⟩
  | cons ok rest => exact ⟨ok, rest, rfl⟩

/-- An upload does not depend on the driver. -/
theorem upload_retained (data : Blob) (width height pitch : UInt32) (b : GLBackend)
    (driver : List Bool) : (upload data width height pitch { b with driver }).retained =
      (upload data width height pitch b).retained := by
  unfold upload
  split_ifs <;> rfl

/-- A composite of a CPU frame or a duplicate draws what the frame texture holds then, or fails and
leaves the texture alone. -/
theorem compositeDriven_run (data : Option Blob) (width height pitch : UInt32) (dupe : Bool)
    (b : GLBackend) :
    ∃ r b', (compositeDriven data width height pitch dupe).run b = (r, b') ∧
      (r ≠ .ok ∧ b'.retained = b.retained ∨
        r = .ok ∧ b'.target = b'.retained ∧ b'.retained =
          match dupe, data with
          | false, some bytes => (upload bytes width height pitch b).retained
          | _, _ => b.retained) := by
  obtain ⟨ok, driver, hcall⟩ := driverCall_run b
  unfold compositeDriven
  rw [StateM.run_get_bind]
  by_cases hready : b.ready = true
  · rw [if_neg (by simp [hready]), StateM.run_bind_of_eq hcall]
    cases ok with
    | false => exact ⟨.device, _, rfl, .inl ⟨nofun, rfl⟩⟩
    | true =>
      rw [if_neg (by simp)]
      cases dupe with
      | true => exact ⟨.ok, _, rfl, .inr ⟨rfl, rfl, rfl⟩⟩
      | false =>
        cases data with
        | none => exact ⟨.ok, _, rfl, .inr ⟨rfl, rfl, rfl⟩⟩
        | some bytes =>
          exact ⟨.ok, _, rfl, .inr ⟨rfl, rfl, upload_retained bytes width height pitch b driver⟩⟩
  · rw [if_pos (by simp [hready])]
    exact ⟨.device, _, rfl, .inl ⟨nofun, rfl⟩⟩

/-- A texture that is composited is on the target, and the frame texture is as it was. -/
theorem compositeExternalGl_run (tex width height : UInt32) (blo : Bool) (b : GLBackend) :
    ∃ r b', (compositeExternalGl tex width height blo).run b = (r, b') ∧
      b'.retained = b.retained ∧ (r = .ok → b'.target = .texture tex width height blo) := by
  obtain ⟨ok, driver, hcall⟩ := driverCall_run b
  unfold compositeExternalGl
  rw [StateM.run_get_bind]
  by_cases hready : b.ready = true
  · rw [if_neg (by simp [hready]), StateM.run_bind_of_eq hcall]
    cases ok with
    | false => exact ⟨.device, _, rfl, rfl, nofun⟩
    | true => exact ⟨.ok, _, rfl, rfl, fun _ => rfl⟩
  · rw [if_pos (by simp [hready])]
    exact ⟨.device, _, rfl, rfl, nofun⟩

end GLBackend

/-! ### Advancing and rendering -/

/-- The picture of a frame that is valid for a core of the given geometry. -/
def validPicture (maxW maxH : UInt32) : HostCall → Option Picture
  | .videoRefresh (some data) width height pitch =>
      if Runtime.drivenFrameValid width height pitch maxW maxH then
        some (.ofFrame data width height pitch)
      else none
  | .videoRefreshGl tex width height blo => some (.texture tex width height blo)
  | _ => none

/-- A valid CPU frame has rows a positive number of whole pixels apart. -/
def WholePixels (maxW maxH : UInt32) : HostCall → Prop
  | .videoRefresh (some _) width height pitch =>
      Runtime.drivenFrameValid width height pitch maxW maxH = true → pitch % 4 = 0 ∧ pitch ≠ 0
  | _ => True

instance (maxW maxH : UInt32) : DecidablePred (WholePixels maxW maxH)
  | .videoRefresh (some _) _ _ _ => inferInstanceAs (Decidable (_ = true → _ ∧ _))
  | .videoRefresh none _ _ _ | .videoRefreshGl _ _ _ _ | .submitFrame _ _ _ | .inputState _
  | .audioSample _ _ | .audioWant => inferInstanceAs (Decidable True)

/-- What was delivered last, where `render` would draw it, is the last good frame. -/
structure Describes (v : LastVideo) (maxW maxH : UInt32) (good : Picture) : Prop where
  /-- As long as no CPU frame follows it, the core's texture is the last good frame. -/
  gl : v.isGl = true → good = .texture v.glTex v.glW v.glH v.glBlo
  cpu : v.showsCpu maxW maxH = true → ∃ data, v.data = some data ∧
    good = .ofFrame data v.width v.height v.pitch ∧ v.pitch % 4 = 0 ∧ v.pitch ≠ 0

namespace Describes

variable {v : LastVideo} {maxW maxH : UInt32} {good : Picture}

/-- The last good frame does not depend on whether the next one has been delivered. -/
theorem frameStart (h : Describes v maxW maxH good) :
    Describes { v with delivered := false } maxW maxH good where
  gl := h.gl
  cpu := fun hcpu => nomatch (LastVideo.showsCpu_iff.mp hcpu).1

/-- A valid frame becomes the last good one, and anything else leaves it to be shown again. -/
theorem refresh (h : Describes v maxW maxH good) {c : HostCall}
    (hpixels : WholePixels maxW maxH c) :
    Describes (v.refresh c) maxW maxH ((validPicture maxW maxH c).getD good) := by
  cases c with
  | videoRefreshGl tex width height blo =>
    exact ⟨fun _ => rfl, fun hcpu => by cases (LastVideo.showsCpu_iff.mp hcpu).2.1⟩
  | videoRefresh data width height pitch =>
    by_cases hrepeat : (data.isNone && v.isGl) = true
    · obtain ⟨hnone, hgl⟩ := Bool.and_eq_true_iff.mp hrepeat
      obtain rfl := Option.isNone_iff_eq_none.mp hnone
      rw [LastVideo.refresh, if_pos hrepeat]
      refine ⟨h.gl, fun hcpu => ?_⟩
      cases hgl.symm.trans (LastVideo.showsCpu_iff.mp hcpu).2.1
    · rw [LastVideo.refresh, if_neg hrepeat]
      refine ⟨by rintro ⟨⟩, fun hcpu => ?_⟩
      obtain ⟨-, -, hdupe, hvalid⟩ := LastVideo.showsCpu_iff.mp hcpu
      cases data with
      | none => cases hdupe
      | some bytes =>
        have hpicture : validPicture maxW maxH (.videoRefresh (some bytes) width height pitch) =
            some (.ofFrame bytes width height pitch) := if_pos hvalid
        exact ⟨bytes, rfl, by rw [hpicture, Option.getD_some], hpixels hvalid⟩
  | _ => exact h

/-- The last good frame after all the callbacks of a frame. -/
theorem foldl (h : Describes v maxW maxH good) {cs : List HostCall}
    (hpixels : ∀ c ∈ cs, WholePixels maxW maxH c) :
    Describes (cs.foldl LastVideo.refresh v) maxW maxH
      ((cs.filterMap (validPicture maxW maxH)).getLastD good) := by
  induction cs generalizing v good with
  | nil => exact h
  | cons c cs ih =>
    have hrest := ih (h.refresh (hpixels c (List.mem_cons_self ..)))
      fun d hd => hpixels d (List.mem_cons_of_mem c hd)
    cases hvalid : validPicture maxW maxH c with
    | none => rwa [hvalid, Option.getD_none, ← List.filterMap_cons_none hvalid] at hrest
    | some picture =>
      rw [hvalid, Option.getD_some] at hrest
      rw [List.filterMap_cons_some hvalid, List.getLastD_cons]
      exact hrest

end Describes

/-- A call of `render` that has returned. -/
structure Render where
  result : RpResult
  drawn : Picture
  /-- The picture of the last good frame at that time. -/
  lastGood : Picture
  deriving DecidableEq

/-- A loaded driven core, and what it has delivered and `render` has drawn since. -/
structure Viewer (κ α : Type) where
  world : World κ (GLBackend × α)
  /-- The picture of the last valid frame since the core was loaded. -/
  lastGood : Picture := .black
  /-- Whether that frame is a CPU frame that was rendered before the next one was run. Without any
  frame, whether the backend has not uploaded one of an earlier core. -/
  rendered : Bool
  /-- The renders that have returned, the last one first. -/
  renders : List Render := []

/-- A call of the host. -/
inductive Action
  | advance (emitAudio : Bool)
  | render (wantPixels : Bool)
  deriving DecidableEq, Repr

namespace Viewer

variable {κ α : Type} (core : CoreEnv κ) (modules : ModuleEnv κ) (audio : AudioEnv α)

/-- The pictures of the valid frames among the callbacks of the next frame. -/
def delivered (w : World κ (GLBackend × α)) : List Picture :=
  (Runtime.frameCalls (onGl core modules audio) w).filterMap
    (validPicture w.rt.drMaxW w.rt.drMaxH)

/-- The transition function. -/
def step (s : Viewer κ α) : Action → Viewer κ α
  | .advance emit =>
      let good := delivered core modules audio s.world
      { s with
        world := ((Runtime.advance (onGl core modules audio) emit).run s.world).2
        lastGood := good.getLastD s.lastGood
        rendered := s.rendered && good.isEmpty }
  | .render wantPixels =>
      let r := (Runtime.render (onGl core modules audio) wantPixels).run s.world
      { s with
        world := r.2
        rendered := s.rendered ||
          (s.world.rt.lastVideo.showsCpu s.world.rt.drMaxW s.world.rt.drMaxH && decide (r.1 = .ok))
        renders := ⟨r.1, r.2.gpu.1.target, s.lastGood⟩ :: s.renders }

/-- The machine of a driven core. -/
def machine : Machine (Viewer κ α) Action := ⟨fun s a => some (step core modules audio s a)⟩

/-- A driven core has been loaded with its content, and nothing has been run. -/
structure Loaded (w : World κ (GLBackend × α)) : Prop where
  driving : w.rt.driving = true
  rewindReplay : w.rt.rewindReplay = false
  rewindEnabled : w.rt.rewindEnabled = false
  delivered : w.rt.drHave = false
  isGl : w.rt.drIsGl = false

/-- The view of a core that has just been loaded. -/
def start (w : World κ (GLBackend × α)) : Viewer κ α :=
  { world := w, rendered := decide (w.gpu.1.texW = 0) }

/-- A render comes upon a frame that it draws itself, or upon a last good frame in the frame
texture. -/
def Covered (s : Viewer κ α) : Action → Prop
  | .advance _ => ∀ c ∈ Runtime.frameCalls (onGl core modules audio) s.world,
      WholePixels s.world.rt.drMaxW s.world.rt.drMaxH c
  | .render _ => s.world.rt.lastVideo.showsGl = true ∨
      s.world.rt.lastVideo.showsCpu s.world.rt.drMaxW s.world.rt.drMaxH = true ∨ s.rendered = true

instance (s : Viewer κ α) : DecidablePred (Covered core modules audio s)
  | .advance _ => inferInstanceAs (Decidable (∀ c ∈ _, WholePixels _ _ c))
  | .render _ => inferInstanceAs (Decidable (_ = true ∨ _ = true ∨ _ = true))

/-- Every composite has drawn the last good frame. -/
def ShowsLastGood (s : Viewer κ α) : Prop :=
  ∀ r ∈ s.renders, r.result = .ok → r.drawn = r.lastGood

/-- What holds between any two calls. -/
structure Inv (s : Viewer κ α) : Prop where
  driving : s.world.rt.driving = true
  rewindReplay : s.world.rt.rewindReplay = false
  rewindEnabled : s.world.rt.rewindEnabled = false
  video : Describes s.world.rt.lastVideo s.world.rt.drMaxW s.world.rt.drMaxH s.lastGood
  rendered : s.rendered = true → s.world.gpu.1.retained = s.lastGood
  shows : s.ShowsLastGood

variable {core modules audio} {s s' : Viewer κ α}

/-- A frame of the core keeps the invariant. -/
theorem Inv.advance (hi : Inv s) {emit : Bool}
    (hguard : Covered core modules audio s (.advance emit)) :
    Inv (step core modules audio s (.advance emit)) := by
  let env := onGl core modules audio
  have hrun := Runtime.advance_driving env hi.driving hi.rewindReplay hi.rewindEnabled emit
  have hsteady := Runtime.frameRun_steady env emit s.world
  have hworld : (step core modules audio s (.advance emit)).world =
      { (Runtime.frameRun env emit s.world).2 with
        rt := { (Runtime.frameRun env emit s.world).2.rt with suppressAudio := false } } :=
    congrArg Prod.snd hrun
  have hmaxW : (Runtime.frameRun env emit s.world).2.rt.drMaxW = s.world.rt.drMaxW :=
    (congrArg Runtime.drMaxW hsteady :)
  have hmaxH : (Runtime.frameRun env emit s.world).2.rt.drMaxH = s.world.rt.drMaxH :=
    (congrArg Runtime.drMaxH hsteady :)
  refine
    { driving := ?_, rewindReplay := ?_, rewindEnabled := ?_, video := ?_, rendered := ?_
      shows := hi.shows }
  · rw [hworld]
    exact (congrArg Runtime.driving hsteady :).trans hi.driving
  · rw [hworld]
    exact (congrArg Runtime.rewindReplay hsteady :).trans hi.rewindReplay
  · rw [hworld]
    exact (congrArg Runtime.rewindEnabled hsteady :).trans hi.rewindEnabled
  · rw [hworld]
    show Describes (Runtime.frameRun env emit s.world).2.rt.lastVideo
      (Runtime.frameRun env emit s.world).2.rt.drMaxW
        (Runtime.frameRun env emit s.world).2.rt.drMaxH _
    rw [Runtime.frameRun_lastVideo, hmaxW, hmaxH]
    exact hi.video.frameStart.foldl hguard
  · intro hrendered
    obtain ⟨hbefore, hnone⟩ := Bool.and_eq_true_iff.mp hrendered
    rw [hworld]
    show (Runtime.frameRun env emit s.world).2.gpu.1.retained =
      (delivered core modules audio s.world).getLastD s.lastGood
    -- No frame has been delivered, so neither the texture nor the last good frame changes.
    rw [frameRun_gl, hi.rendered hbefore, List.isEmpty_iff.mp hnone]
    rfl

/-- A valid frame is not empty. -/
theorem width_ne_zero {width height pitch maxW maxH : UInt32}
    (h : Runtime.drivenFrameValid width height pitch maxW maxH = true) : width ≠ 0 := by
  rintro rfl
  simp [Runtime.drivenFrameValid] at h

/-- What a `render` answers and leaves in the backend: the picture it draws, and the frame texture,
are the last good frame when it draws a frame of the core or finds the last good one uploaded. -/
structure Draws (core : CoreEnv κ) (modules : ModuleEnv κ) (audio : AudioEnv α)
    (s : Viewer κ α) (wantPixels : Bool) (r : RpResult) (b : GLBackend) : Prop where
  run : (Runtime.render (onGl core modules audio) wantPixels).run s.world =
    (r, { s.world with gpu := (b, s.world.gpu.2) })
  target : r = .ok → (s.world.rt.lastVideo.showsGl = true ∨
    s.world.rt.lastVideo.showsCpu s.world.rt.drMaxW s.world.rt.drMaxH = true ∨
      s.rendered = true) → b.target = s.lastGood
  retained : (s.rendered = true ∨ r = .ok ∧
    s.world.rt.lastVideo.showsCpu s.world.rt.drMaxW s.world.rt.drMaxH = true) →
      b.retained = s.lastGood

/-- The texture of the core is drawn as it is; the frame texture is left alone. -/
theorem render_texture (hi : Inv s) (wantPixels : Bool)
    (hgl : s.world.rt.lastVideo.showsGl = true) :
    ∃ r b, Draws core modules audio s wantPixels r b := by
  obtain ⟨r, b, hcomposite, hretained, htarget⟩ := GLBackend.compositeExternalGl_run
    s.world.rt.drGlTex s.world.rt.drGlW s.world.rt.drGlH s.world.rt.drGlBlo s.world.gpu.1
  have hhanded : s.world.rt.handed = some (.texture s.world.rt.drGlTex s.world.rt.drGlW
    s.world.rt.drGlH s.world.rt.drGlBlo) := if_pos hgl
  obtain ⟨hisGl, -⟩ := Bool.and_eq_true_iff.mp hgl
  refine ⟨r, b, ?_, fun hok _ => (htarget hok).trans (hi.video.gl hisGl).symm, ?_⟩
  · rw [Runtime.render_driving _ hi.driving]
    simp only [Runtime.composite, hhanded, onGl, gpu, hcomposite]
  · rintro (hrendered | ⟨-, hcpu⟩)
    · exact hretained.trans (hi.rendered hrendered)
    · cases hisGl.symm.trans (LastVideo.showsCpu_iff.mp hcpu).2.1

/-- A CPU frame is uploaded, unless the composite fails before it gets there. -/
theorem render_upload (hi : Inv s) (wantPixels : Bool)
    (hgl : ¬s.world.rt.lastVideo.showsGl = true)
    (hcpu : s.world.rt.lastVideo.showsCpu s.world.rt.drMaxW s.world.rt.drMaxH = true) :
    ∃ r b, Draws core modules audio s wantPixels r b := by
  obtain ⟨data, hdata, hgood, hpitch, hpos⟩ := hi.video.cpu hcpu
  have hhanded : s.world.rt.handed = some (.cpu s.world.rt.lastVideo.data s.world.rt.drW
    s.world.rt.drH s.world.rt.drPitch) := (if_neg hgl).trans (if_pos hcpu)
  rw [hdata] at hhanded
  obtain ⟨r, b, hcomposite, hresult⟩ := GLBackend.compositeDriven_run (some data)
    s.world.rt.drW s.world.rt.drH s.world.rt.drPitch false s.world.gpu.1
  have hwidth : s.world.rt.drW ≠ 0 := width_ne_zero (LastVideo.showsCpu_iff.mp hcpu).2.2.2
  have hupload : (GLBackend.upload data s.world.rt.drW s.world.rt.drH s.world.rt.drPitch
      s.world.gpu.1).retained = s.lastGood :=
    (GLBackend.upload_frame hwidth hpitch hpos).trans hgood.symm
  refine ⟨r, b, ?_, fun hok _ => ?_, ?_⟩
  · rw [Runtime.render_driving _ hi.driving]
    simp only [Runtime.composite, hhanded, onGl, gpu, hcomposite]
  · rcases hresult with ⟨hfail, -⟩ | ⟨-, htarget, hretained⟩
    · exact absurd hok hfail
    · exact htarget.trans (hretained.trans hupload)
  · intro hcase
    rcases hresult with ⟨hfail, hretained⟩ | ⟨-, -, hretained⟩
    · rcases hcase with hrendered | ⟨hok, -⟩
      · exact hretained.trans (hi.rendered hrendered)
      · exact absurd hok hfail
    · exact hretained.trans hupload

/-- Of a duplicate, what the frame texture holds is drawn again. -/
theorem render_duplicate (hi : Inv s) (wantPixels : Bool)
    (hgl : ¬s.world.rt.lastVideo.showsGl = true)
    (hcpu : ¬s.world.rt.lastVideo.showsCpu s.world.rt.drMaxW s.world.rt.drMaxH = true) :
    ∃ r b, Draws core modules audio s wantPixels r b := by
  have hhanded : s.world.rt.handed = none := (if_neg hgl).trans (if_neg hcpu)
  obtain ⟨r, b, hcomposite, hresult⟩ := GLBackend.compositeDriven_run none
    s.world.rt.drW s.world.rt.drH s.world.rt.drPitch true s.world.gpu.1
  refine ⟨r, b, ?_, fun hok hcovered => ?_, ?_⟩
  · rw [Runtime.render_driving _ hi.driving]
    simp only [Runtime.composite, hhanded, onGl, gpu, hcomposite]
  · rcases hresult with ⟨hfail, -⟩ | ⟨-, htarget, hretained⟩
    · exact absurd hok hfail
    · rcases hcovered with h | h | hrendered
      · exact absurd h hgl
      · exact absurd h hcpu
      · rw [htarget, hretained]
        exact hi.rendered hrendered
  · rintro (hrendered | ⟨-, h⟩)
    · rw [← hi.rendered hrendered]
      rcases hresult with ⟨-, hretained⟩ | ⟨-, -, hretained⟩
      · exact hretained
      · exact hretained
    · exact absurd h hcpu

/-- `render` draws the core's texture, or uploads a CPU frame, or draws what the frame texture
holds. -/
theorem render_run (hi : Inv s) (wantPixels : Bool) :
    ∃ r b, Draws core modules audio s wantPixels r b := by
  by_cases hgl : s.world.rt.lastVideo.showsGl = true
  · exact render_texture hi wantPixels hgl
  · by_cases hcpu : s.world.rt.lastVideo.showsCpu s.world.rt.drMaxW s.world.rt.drMaxH = true
    · exact render_upload hi wantPixels hgl hcpu
    · exact render_duplicate hi wantPixels hgl hcpu

/-- A render that is covered keeps the invariant. -/
theorem Inv.render (hi : Inv s) {wantPixels : Bool}
    (hguard : Covered core modules audio s (.render wantPixels)) :
    Inv (step core modules audio s (.render wantPixels)) := by
  obtain ⟨r, b, hrun, htarget, hretained⟩ :=
    @render_run _ _ core modules audio s hi wantPixels
  have hstep : step core modules audio s (.render wantPixels) =
      { s with
        world := { s.world with gpu := (b, s.world.gpu.2) }
        rendered := s.rendered ||
          (s.world.rt.lastVideo.showsCpu s.world.rt.drMaxW s.world.rt.drMaxH && decide (r = .ok))
        renders := ⟨r, b.target, s.lastGood⟩ :: s.renders } := by
    simp only [step, hrun]
  rw [hstep]
  refine { hi with rendered := fun hrendered => hretained ?_, shows := ?_ }
  · simpa [and_comm] using hrendered
  · intro q hq hok
    rcases List.mem_cons.mp hq with rfl | hq
    · exact htarget hok hguard
    · exact hi.shows q hq hok

variable {w : World κ (GLBackend × α)}

/-- The invariant holds when a core has just been loaded. -/
theorem Inv.start (h : Loaded w) : Inv (start w) where
  driving := h.driving
  rewindReplay := h.rewindReplay
  rewindEnabled := h.rewindEnabled
  video := by
    refine ⟨fun hgl => ?_, fun hcpu => ?_⟩
    · exact nomatch h.isGl.symm.trans hgl
    · exact nomatch h.delivered.symm.trans (LastVideo.showsCpu_iff.mp hcpu).1
  rendered := fun hblank => by
    have hzero : w.gpu.1.texW = 0 := of_decide_eq_true hblank
    exact if_neg (not_not_intro hzero)
  shows := fun _ hr => nomatch hr

/-- Every composite shows the last good frame if each render comes upon a frame that it draws itself
or that the frame texture has kept. -/
theorem renders_last_good (hload : Loaded w) {as : List Action}
    (h : Machine.Run (machine core modules audio) (Covered core modules audio)
      (Viewer.start w) as s) :
    s.ShowsLastGood := by
  refine (h.invariant (I := Inv) (Inv.start hload) ?_).shows
  rintro t a t' hi hguard ⟨⟩
  cases a with
  | advance emit => exact hi.advance hguard
  | render wantPixels => exact hi.render hguard

/-! ### Runs of a core with a given sequence of frames -/

/-- The slide show is loaded. -/
theorem loaded_slideShow (frames : List (List HostCall)) :
    Loaded (SlideShow.loaded frames) := by
  constructor <;> rfl

/-- The machine of the core with the given frames. -/
def slideShow (frames : List (List HostCall)) : Machine (Viewer RefCoreRollback Unit) Action :=
  machine (SlideShow.core frames) RefCoreRollback.modules SlideShow.audio

/-- The guard of its runs. -/
def Shown (frames : List (List HostCall)) : Viewer RefCoreRollback Unit → Action → Prop :=
  Covered (SlideShow.core frames) RefCoreRollback.modules SlideShow.audio

instance (frames : List (List HostCall)) (s : Viewer RefCoreRollback Unit) :
    DecidablePred (Shown frames s) :=
  inferInstanceAs (DecidablePred (Covered _ _ _ s))

/-- A slide, a frame without one, and a texture. -/
def slideThenTexture : List (List HostCall) :=
  [[SlideShow.slide 200], [], [.videoRefreshGl 7 64 64 true]]

/-- Every frame is rendered. -/
def renderAll : List Action :=
  [.advance true, .render true, .advance true, .render true, .advance true, .render true]

/-- The picture of a slide. -/
def slidePicture (red : UInt8) : Picture := .frame [[red, 0, 0, 255]]

/-- A slide, a texture and again the slide are shown, each when it is the last good frame. -/
theorem renders_last_good_renderAll :
    ∃ s, Machine.Run (slideShow slideThenTexture) (Shown slideThenTexture)
        (start (SlideShow.loaded slideThenTexture)) renderAll s ∧
      s.renders.map Render.drawn = [.texture 7 64 64 true, slidePicture 200, slidePicture 200] ∧
        s.ShowsLastGood := by
  have hend : ∃ s, Machine.Run (slideShow slideThenTexture)
        (Shown slideThenTexture) (start (SlideShow.loaded slideThenTexture)) renderAll s ∧
      s.renders.map Render.drawn = [.texture 7 64 64 true, slidePicture 200, slidePicture 200] :=
    Machine.exists_run (by decide +kernel)
  obtain ⟨s, hrun, hdrawn⟩ := hend
  exact ⟨s, hrun, hdrawn, renders_last_good (loaded_slideShow _) hrun⟩

/-- The slide is run but not rendered before the frame without one. -/
def skipSlide : List Action := [.advance true, .advance true, .render true]

/-- The slide is lost, and the render shows black. -/
theorem slide_lost :
    ∃ s, Machine.Run (slideShow slideThenTexture) Machine.always
        (start (SlideShow.loaded slideThenTexture)) skipSlide s ∧
      s.renders = [⟨.ok, .black, slidePicture 200⟩] ∧ ¬s.ShowsLastGood := by
  have hend : ∃ s, Machine.Run (slideShow slideThenTexture) Machine.always
        (start (SlideShow.loaded slideThenTexture)) skipSlide s ∧
      s.renders = [⟨.ok, .black, slidePicture 200⟩] :=
    Machine.exists_run (by decide +kernel)
  obtain ⟨s, hrun, hrenders⟩ := hend
  refine ⟨s, hrun, hrenders, fun hshows => ?_⟩
  have hdrawn := hshows _ (hrenders ▸ List.mem_singleton_self _) rfl
  exact nomatch hdrawn

end Viewer

end Gl

end RetroPark
