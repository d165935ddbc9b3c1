import RetroPark.Cores.LibretroShim.Blinker
import RetroPark.Cores.LibretroShim.Callbacks
import RetroPark.Render.FramebufferCopy
import RetroPark.Render.Gl.LastFrame

/-!
# What the player sees of a libretro core

A libretro core that draws without OpenGL gives the shim frames in its own pixel format and with its
own pitch. The shim converts them, the runtime keeps the last one that fits the core's geometry, and
the backend uploads it.

`screen_shows_frame`: after any run of frames and renders of such a core, the next render shows the
last frame that fits, and every pixel of it has the colour of the core's pixel. Converted rows have
no padding, so the frames never run into the trouble that `Gl.GLBackend.upload` has with the pitch
of other cores.
-/

namespace RetroPark.LibretroShim

open Gl (GLBackend Picture rows onGl validPicture WholePixels)
open Gl.Viewer (Loaded Covered Inv delivered machine start step)

/-- The bytes of a pixel. -/
def pixelAt (rs : List Blob) (x y : ℕ) : Blob := Strided.slice (rs.getD y []) (x * 4) 4

namespace VideoFrame

/-- The pixel in column `x` of row `y`. -/
def pixelOf (f : VideoFrame) (data : Blob) (x y : ℕ) : UInt32 :=
  sourcePixel data f.format (y * (UInt32.ofNat f.pitch).toNat) x

/-- The frame is a picture with the colours of the core's pixels. -/
structure Image (f : VideoFrame) (data : Blob) (rs : List Blob) : Prop where
  source : f.data = .pixels data
  height : rs.length = f.height.toNat
  width : ∀ r ∈ rs, r.length = f.width.toNat * 4
  pixel : ∀ x < f.width.toNat, ∀ y < f.height.toNat,
    pixelAt rs x y = colour f.format (f.pixelOf data x y)
  /-- Pixels look the same only if they are, in the bits that the format uses. -/
  distinct : ∀ x < f.width.toNat, ∀ y < f.height.toNat, ∀ x' < f.width.toNat, ∀ y' < f.height.toNat,
    (pixelAt rs x y = pixelAt rs x' y' ↔
      f.pixelOf data x y &&& usedBits f.format = f.pixelOf data x' y' &&& usedBits f.format)

/-- A picture shows the frame. -/
def ShownBy (f : VideoFrame) (p : Picture) : Prop := ∃ data rs, p = .frame rs ∧ f.Image data rs

/-- The runtime takes the frame: it has pixels, and fits the geometry. -/
def fits (maxW maxH : UInt32) (f : VideoFrame) : Bool :=
  match f.data with
  | .pixels _ => Runtime.drivenFrameValid f.width f.height (f.width * 4) maxW maxH
  | _ => false

/-- The frame as the runtime hands it to the backend. -/
def picture (f : VideoFrame) : Picture :=
  match f.data with
  | .pixels data =>
      .ofFrame (convertToRgba8 data f.width f.height (UInt32.ofNat f.pitch) f.format
        (frameBuffer f.width f.height)) f.width f.height (f.width * 4)
  | _ => .black

variable {f : VideoFrame} {maxW maxH : UInt32}

/-- A frame fits if it has pixels and a size within the geometry. -/
theorem fits_iff : f.fits maxW maxH = true ↔ ∃ data, f.data = .pixels data ∧ f.width ≠ 0 ∧
    f.height ≠ 0 ∧ f.width ≤ maxW ∧ f.height ≤ maxH := by
  unfold fits
  cases f.data with
  | pixels data =>
    rw [drivenFrameValid_iff]
    constructor
    · rintro ⟨hw, hh, hmaxW, hmaxH, -⟩
      exact ⟨data, rfl, hw, hh, hmaxW, hmaxH⟩
    · rintro ⟨_, -, hw, hh, hmaxW, hmaxH⟩
      exact ⟨hw, hh, hmaxW, hmaxH, UInt32.le_refl _⟩
  | dupe | hwFrameBuffer => simp

/-- A frame of a software core is shown if it fits. -/
theorem validPicture_softCall (f : VideoFrame) (maxW maxH : UInt32) :
    validPicture maxW maxH f.softCall = if f.fits maxW maxH then some f.picture else none := by
  unfold softCall fits picture
  cases f.data with
  | pixels data =>
    by_cases hempty : f.width = 0 ∨ f.height = 0
    · have hinvalid :
          Runtime.drivenFrameValid f.width f.height (f.width * 4) maxW maxH = false := by
        rw [← Bool.not_eq_true, drivenFrameValid_iff]
        rintro ⟨hw, hh, -⟩
        exact hempty.elim hw hh
      simp [hempty, hinvalid, validPicture]
    · simp [hempty, validPicture]
  | dupe | hwFrameBuffer => simp [validPicture]

/-- The rows of a frame whose width does not wrap around are whole numbers of pixels apart. -/
theorem wholePixels_softCall (f : VideoFrame) (hmaxW : maxW.toNat < 2 ^ 30) :
    WholePixels maxW maxH f.softCall := by
  unfold softCall
  cases f.data with
  | pixels data =>
    dsimp only
    split_ifs
    · trivial
    · intro hvalid
      obtain ⟨hwidth, -, hle, -⟩ := drivenFrameValid_iff.mp hvalid
      have hnarrow : f.width.toNat < 2 ^ 30 := (UInt32.le_iff_toNat_le.mp hle).trans_lt hmaxW
      have hbytes := rowBytes_toNat_of_lt hnarrow
      have hpos : f.width.toNat ≠ 0 := fun h => hwidth (UInt32.toNat_inj.mp h)
      constructor
      · apply UInt32.toNat_inj.mp
        rw [UInt32.toNat_mod]
        show (rowBytes f.width).toNat % 4 = 0
        omega
      · intro hzero
        have hzero' : (rowBytes f.width).toNat = 0 := congrArg UInt32.toNat hzero
        omega
  | dupe | hwFrameBuffer => trivial

/-- Each pixel of a frame that fits has its colour. -/
theorem shownBy_picture (hfits : f.fits maxW maxH = true) (hmaxW : maxW.toNat < 2 ^ 30) :
    f.ShownBy f.picture := by
  obtain ⟨data, hdata, hwidth, hheight, hle, -⟩ := fits_iff.mp hfits
  have hnarrow : f.width.toNat < 2 ^ 30 := (UInt32.le_iff_toNat_le.mp hle).trans_lt hmaxW
  -- Below `2 ^ 30` pixels a row's bytes do not wrap around.
  have hbytes : (f.width * 4).toNat = f.width.toNat * 4 := by
    rw [Nat.mul_comm]
    exact rowBytes_toNat_of_lt hnarrow
  have hbuffer : (frameBuffer f.width f.height).length = f.height.toNat * f.width.toNat * 4 :=
    List.length_replicate
  let buffer := convertToRgba8 data f.width f.height (UInt32.ofNat f.pitch) f.format
    (frameBuffer f.width f.height)
  have hpicture : f.picture =
      .frame (rows buffer f.width.toNat f.height.toNat (f.width.toNat * 4)) := by
    simp only [picture, hdata, Picture.ofFrame, hbytes, buffer]
  have hpixel : ∀ x < f.width.toNat, ∀ y < f.height.toNat,
      pixelAt (rows buffer f.width.toNat f.height.toNat (f.width.toNat * 4)) x y =
        colour f.format (f.pixelOf data x y) := by
    intro x hx y hy
    rw [pixelAt, List.getD_eq_getElem?_getD, rows_getElem? _ _ hy, Option.getD_some,
      Strided.slice_slice (by omega)]
    exact slice_convertToRgba8 hnarrow.le hbuffer.ge hx hy
  refine ⟨data, _, hpicture, hdata, ?_, ?_, hpixel, ?_⟩
  · rw [rows, List.length_map, List.length_range]
  · intro r hr
    obtain ⟨y, hy, rfl⟩ := List.mem_map.mp hr
    have hend := rowEnd_le (List.mem_range.mp hy) f.width.toNat
    have hlength : buffer.length = f.height.toNat * f.width.toNat * 4 :=
      (length_convertRows hnarrow.le hbuffer.ge).trans hbuffer
    exact Strided.length_slice (by rw [hlength, ← Nat.mul_assoc]; exact hend)
  · intro x hx y hy x' hx' y' hy'
    rw [hpixel x hx y hy, hpixel x' hx' y' hy']
    exact colour_eq_iff _ _ _

end VideoFrame

/-! ### One frame of the core -/

/-- The frames that fit among those of a log, the newest first. -/
def fitting (maxW maxH : UInt32) (es : List RetroEvent) : List VideoFrame :=
  (es.filterMap RetroEvent.frame?).filter (·.fits maxW maxH)

/-- What the screen shows after the events of a log. -/
def lastPicture (maxW maxH : UInt32) (es : List RetroEvent) : Picture :=
  ((fitting maxW maxH es).map VideoFrame.picture).headD .black

/-- The frames of a log of frames are these frames. -/
theorem filterMap_video (fs : List VideoFrame) :
    (fs.map RetroEvent.video).filterMap RetroEvent.frame? = fs := by
  rw [List.filterMap_map]
  exact List.filterMap_some

variable {Λ : Type} {P : Platform Λ} {maxW maxH : UInt32}

/-- The calls of a frame are those of the frames it logs, and the core still has no framebuffer. -/
structure SoftFrame (r : Reply (ShimModule Λ) Unit) (log : List RetroEvent) : Prop where
  core : ∃ i es, r.core = { current := some i, log := es ++ log } ∧ i.hw = none ∧
    r.calls.filter isVideo = ((es.filterMap RetroEvent.frame?).map VideoFrame.softCall).reverse

/-- A libretro core without a framebuffer has the host called once for each of its frames. -/
theorem softFrame_runFrame {m : ShimModule Λ} {i : Instance Λ} (hm : m.current = some i)
    (hsoft : i.hw = none) (c : CorePtr) (port0 port1 : InputState) :
    SoftFrame ((core P).runFrame m c port0 port1) m.log := by
  let s : Frontend Λ := { inst := i, log := .called :: m.log }
  have hreply : (core P).runFrame m c port0 port1 =
      { value := ((shRunFrame P port0 port1).run s).1
        calls := ((shRunFrame P port0 port1).run s).2.calls
        core :=
          { current := some ((shRunFrame P port0 port1).run s).2.inst
            log := ((shRunFrame P port0 port1).run s).2.log } } := by
    simp only [core, ShimModule.onInstance, hm, s]
  by_cases hgame : i.gameLoaded = true
  · have hserved := runEntry_served P (some (port0, port1)) P.library.run s
    -- A software core has no context to be made current.
    have hcurrent : s.current P = s := if_neg (by simp [s, hsoft])
    rw [shRunFrame_run P hgame, hcurrent] at hreply
    generalize ((runEntry P (some (port0, port1)) P.library.run).run s).2 = s' at hserved hreply
    obtain ⟨fs, cs, hlog, hcalls, hcs⟩ := hserved.delivered
    have hlog' : .run :: s'.log = .run :: (fs.map .video ++ [.called]) ++ m.log := by
      rw [hlog, List.cons_append, List.append_assoc]
      rfl
    rw [hreply]
    refine ⟨s'.inst, .run :: (fs.map .video ++ [.called]), congrArg (ShimModule.mk _) hlog', ?_, ?_⟩
    · rw [← Option.not_isSome_iff_eq_none, hserved.hw]
      simp [s, hsoft]
    · show s'.calls.filter isVideo = _
      rw [hcalls, List.nil_append, hcs hsoft, List.filterMap_cons_none rfl, List.filterMap_append,
        filterMap_video, List.filterMap_cons_none rfl, List.filterMap_nil, List.append_nil]
  · rw [shRunFrame_idle P (Bool.not_eq_true _ ▸ hgame)] at hreply
    rw [hreply]
    exact ⟨i, [.called], rfl, hsoft, rfl⟩

/-- What a frame of a software core delivers and leaves. -/
theorem softFrame_loader {m : ShimModule Λ} {i : Instance Λ} (hm : m.current = some i)
    (hsoft : i.hw = none) (l : CoreLoader) (port0 port1 : InputState) :
    ∃ i' es, (l.runFrame (core P) port0 port1 m).core = { current := some i', log := es ++ m.log } ∧
      i'.hw = none ∧ (l.runFrame (core P) port0 port1 m).calls.filter isVideo =
        ((es.filterMap RetroEvent.frame?).map VideoFrame.softCall).reverse := by
  have hnone : m = { current := some i, log := [] ++ m.log } := congrArg (ShimModule.mk · m.log) hm
  unfold CoreLoader.runFrame
  split_ifs
  · exact ⟨i, [], hnone, hsoft, rfl⟩
  · exact ⟨i, [], hnone, hsoft, rfl⟩
  · exact (softFrame_runFrame hm hsoft l.core port0 port1).core

/-- Callbacks for other things show nothing. -/
theorem validPicture_other {c : HostCall} (hc : isVideo c = false) :
    validPicture maxW maxH c = none := by
  cases c with
  | videoRefresh | videoRefreshGl => cases hc
  | _ => rfl

/-- What is shown depends on the callbacks for video alone. -/
theorem filterMap_validPicture_filter (cs : List HostCall) :
    (cs.filter isVideo).filterMap (validPicture maxW maxH) =
      cs.filterMap (validPicture maxW maxH) := by
  rw [List.filterMap_filter]
  refine List.filterMap_congr fun c _ => ?_
  by_cases hc : isVideo c = true
  · rw [if_pos hc]
  · rw [if_neg hc, validPicture_other (Bool.not_eq_true _ ▸ hc)]

/-- The pictures of the calls are those of the frames that fit, in order. -/
theorem filterMap_softCall (fs : List VideoFrame) :
    ((fs.map VideoFrame.softCall).reverse).filterMap (validPicture maxW maxH) =
      ((fs.filter (·.fits maxW maxH)).map VideoFrame.picture).reverse := by
  rw [List.filterMap_reverse, List.filterMap_map]
  congr 1
  induction fs with
  | nil => rfl
  | cons f fs ih =>
    rw [List.filterMap_cons, Function.comp_apply, VideoFrame.validPicture_softCall, ih]
    by_cases hf : f.fits maxW maxH = true <;> simp [hf]

/-- The last picture of two logs is the last one of the second that has any. -/
theorem lastPicture_append (es es' : List RetroEvent) :
    lastPicture maxW maxH (es' ++ es) =
      ((fitting maxW maxH es').map VideoFrame.picture).reverse.getLastD
        (lastPicture maxW maxH es) := by
  rw [lastPicture, lastPicture, fitting, fitting, List.filterMap_append, List.filter_append,
    List.map_append, List.getLastD_eq_getLast?, List.getLast?_reverse, List.headD_eq_head?_getD,
    List.head?_append, List.headD_eq_head?_getD, Option.getD_or, fitting]

/-! ### Runs -/

section Viewer

variable {α : Type} {modules : ModuleEnv (ShimModule Λ)} {audio : Gl.AudioEnv α}
  {w : World (ShimModule Λ) (GLBackend × α)} {s s' : Gl.Viewer (ShimModule Λ) α}

/-- A render comes after a frame that is shown, or one that was rendered before. -/
def InTime (P : Platform Λ) (modules : ModuleEnv (ShimModule Λ)) (audio : Gl.AudioEnv α)
    (s : Gl.Viewer (ShimModule Λ) α) : Gl.Action → Prop
  | .advance _ => True
  | .render wantPixels => Covered (core P) modules audio s (.render wantPixels)

instance InTime.decidable (P : Platform Λ) (modules : ModuleEnv (ShimModule Λ))
    (audio : Gl.AudioEnv α) (s : Gl.Viewer (ShimModule Λ) α) :
      DecidablePred (InTime P modules audio s)
  | .advance _ => inferInstanceAs (Decidable True)
  | .render wantPixels =>
      inferInstanceAs (Decidable (Covered (core P) modules audio s (.render wantPixels)))

/-- The game draws without OpenGL, and the last good frame is the last one of its log that fits. -/
structure Watched (maxW maxH : UInt32) (log : List RetroEvent) (s : Gl.Viewer (ShimModule Λ) α) :
    Prop where
  inv : Inv s
  limitW : s.world.rt.drMaxW = maxW
  limitH : s.world.rt.drMaxH = maxH
  played : ∃ i es, s.world.core = { current := some i, log := es ++ log } ∧ i.hw = none ∧
    s.lastGood = lastPicture maxW maxH es

/-- The core is where the loader has left it. -/
theorem advance_core {κ : Type} (core : CoreEnv κ) (modules : ModuleEnv κ) (audio : Gl.AudioEnv α)
    {s : Gl.Viewer κ α} (hi : Inv s) (emit : Bool) :
    (step core modules audio s (.advance emit)).world.core =
        (s.world.rt.loader.runFrame core s.world.rt.input0 s.world.rt.input1 s.world.core).core ∧
      (step core modules audio s (.advance emit)).world.rt.drMaxW = s.world.rt.drMaxW ∧
      (step core modules audio s (.advance emit)).world.rt.drMaxH = s.world.rt.drMaxH := by
  let env := onGl core modules audio
  have hrun := Runtime.advance_driving env hi.driving hi.rewindReplay hi.rewindEnabled emit
  have hsteady := Runtime.frameRun_steady env emit s.world
  have hworld : (step core modules audio s (.advance emit)).world =
      { (Runtime.frameRun env emit s.world).2 with
        rt := { (Runtime.frameRun env emit s.world).2.rt with suppressAudio := false } } :=
    congrArg Prod.snd hrun
  rw [hworld]
  exact ⟨(Runtime.hostCalls_steady env _ _).1, (congrArg Runtime.drMaxW hsteady :),
    (congrArg Runtime.drMaxH hsteady :)⟩

/-- A frame of the core keeps the last picture in step with the log. -/
theorem Watched.advance {maxW maxH : UInt32} {log : List RetroEvent}
    (h : Watched maxW maxH log s) (hmaxW : maxW.toNat < 2 ^ 30) (emit : Bool) :
    Watched maxW maxH log (step (core P) modules audio s (.advance emit)) := by
  obtain ⟨i, es, hcore, hsoft, hgood⟩ := h.played
  obtain ⟨hcore', hlimitW, hlimitH⟩ := advance_core (core P) modules audio h.inv emit
  obtain ⟨i', es', hstep, hsoft', hcalls⟩ :=
    softFrame_loader (P := P) (m := s.world.core) (by rw [hcore]) hsoft s.world.rt.loader
      s.world.rt.input0 s.world.rt.input1
  -- The frames are converted into buffers of their own size, so each has all its pixels.
  have hwhole : Covered (core P) modules audio s (.advance emit) := by
    intro c hc
    rw [h.limitW, h.limitH]
    by_cases hvideo : isVideo c = true
    · have hmem := List.mem_filter.mpr ⟨hc, hvideo⟩
      rw [Runtime.frameCalls, onGl] at hmem
      rw [hcalls, List.mem_reverse] at hmem
      obtain ⟨f, -, rfl⟩ := List.mem_map.mp hmem
      exact f.wholePixels_softCall hmaxW
    · cases c with
      | videoRefresh | videoRefreshGl => exact absurd rfl hvideo
      | _ => trivial
  refine ⟨h.inv.advance hwhole, hlimitW.trans h.limitW, hlimitH.trans h.limitH, i', es' ++ es, ?_,
    hsoft', ?_⟩
  · rw [hcore', hstep, hcore, List.append_assoc]
  · show (delivered (core P) modules audio s.world).getLastD s.lastGood = _
    rw [delivered, ← filterMap_validPicture_filter, Runtime.frameCalls, onGl, hcalls,
      filterMap_softCall, h.limitW, h.limitH, hgood, lastPicture_append, fitting]

/-- A render keeps the last picture in step with the log. -/
theorem Watched.render {maxW maxH : UInt32} {log : List RetroEvent} (h : Watched maxW maxH log s)
    {wantPixels : Bool} (hguard : Covered (core P) modules audio s (.render wantPixels)) :
    Watched maxW maxH log (step (core P) modules audio s (.render wantPixels)) := by
  obtain ⟨r, b, hrun, -⟩ :=
    @Gl.Viewer.render_run _ _ (core P) modules audio s h.inv wantPixels
  have hworld : (step (core P) modules audio s (.render wantPixels)).world =
      { s.world with gpu := (b, s.world.gpu.2) } := congrArg Prod.snd hrun
  refine ⟨h.inv.render hguard, ?_, ?_, ?_⟩
  · rw [hworld]
    exact h.limitW
  · rw [hworld]
    exact h.limitH
  · rw [hworld]
    exact h.played

/-- A picture shows the last frame of a log that fits. -/
def ShowsLast (maxW maxH : UInt32) (es : List RetroEvent) (p : Picture) : Prop :=
  match fitting maxW maxH es with
  | [] => p = .black
  | f :: _ => f.ShownBy p

/-- The last picture has the colours of the last frame that fits. -/
theorem showsLast_lastPicture {maxW maxH : UInt32} (hmaxW : maxW.toNat < 2 ^ 30)
    (es : List RetroEvent) : ShowsLast maxW maxH es (lastPicture maxW maxH es) := by
  rw [ShowsLast, lastPicture]
  cases hfitting : fitting maxW maxH es with
  | nil => rfl
  | cons f fs =>
    have hmem : f ∈ fitting maxW maxH es := hfitting ▸ List.mem_cons_self
    exact VideoFrame.shownBy_picture (List.mem_filter.mp hmem).2 hmaxW

/-- The result of a render, and what it has drawn. -/
def rendered (P : Platform Λ) (modules : ModuleEnv (ShimModule Λ)) (audio : Gl.AudioEnv α)
    (s : Gl.Viewer (ShimModule Λ) α) (wantPixels : Bool) : RpResult × Picture :=
  let r := (Runtime.render (onGl (core P) modules audio) wantPixels).run s.world
  (r.1, r.2.gpu.1.target)

/-- After any run of a game that draws without OpenGL, a render that is in time shows the last frame
that fits the geometry, each pixel in its colour. -/
theorem screen_shows_frame (hload : Loaded w) {i : Instance Λ} (hgame : w.core.current = some i)
    (hsoft : i.hw = none) (hmaxW : w.rt.drMaxW.toNat < 2 ^ 30) {as : List Gl.Action}
    (hrun : Machine.Run (machine (core P) modules audio) (InTime P modules audio) (start w) as s) :
    ∃ es, s.world.core.log = es ++ w.core.log ∧ ∀ wantPixels,
      InTime P modules audio s (.render wantPixels) →
      (rendered P modules audio s wantPixels).1 = .ok →
        ShowsLast w.rt.drMaxW w.rt.drMaxH es (rendered P modules audio s wantPixels).2 := by
  have hstart : Watched w.rt.drMaxW w.rt.drMaxH w.core.log (start w : Gl.Viewer (ShimModule Λ) α) :=
    ⟨Inv.start hload, rfl, rfl, i, [], congrArg (ShimModule.mk · w.core.log) hgame, hsoft, rfl⟩
  have h : Watched w.rt.drMaxW w.rt.drMaxH w.core.log s := by
    refine hrun.invariant hstart ?_
    rintro t a t' ht hguard ⟨⟩
    cases a with
    | advance emit => exact ht.advance hmaxW emit
    | render wantPixels => exact ht.render (hguard)
  obtain ⟨i', es, hcore, -, hgood⟩ := h.played
  refine ⟨es, by rw [hcore], fun wantPixels hguard hok => ?_⟩
  obtain ⟨r, b, hrender, htarget, -⟩ :=
    @Gl.Viewer.render_run _ _ (core P) modules audio s h.inv wantPixels
  simp only [rendered, hrender] at hok ⊢
  have hshown : b.target = lastPicture w.rt.drMaxW w.rt.drMaxH es :=
    (htarget hok (hguard)).trans hgood
  exact hshown ▸ showsLast_lastPicture hmaxW es

end Viewer

/-! ### A run of the small core -/

/-- The blinking core is loaded. -/
theorem loaded_blinker : Loaded (Blinker.loaded false) := by
  constructor <;> rfl

/-- Two frames, of which the first is rendered. -/
def twoFrames : List Gl.Action := [.advance true, .render true, .advance true]

/-- The second frame has the counter in its first pixel, and no padding. -/
theorem screen_shows_frame_twoFrames :
    ∃ s, Machine.Run (machine (core (Blinker.platform false)) Blinker.modules Blinker.audio)
        (InTime (Blinker.platform false) Blinker.modules Blinker.audio)
        (start (Blinker.loaded false)) twoFrames s ∧
      rendered (Blinker.platform false) Blinker.modules Blinker.audio s true =
        (.ok, .frame [[0, 0, 16, 255, 0, 0, 0, 255], [0, 0, 0, 255, 0, 0, 0, 255]]) ∧
      ∃ es, s.world.core.log = es ++ (Blinker.loaded false).core.log ∧
        ShowsLast 2 2 es
          (rendered (Blinker.platform false) Blinker.modules Blinker.audio s true).2 := by
  have hend : ∃ s, Machine.Run
        (machine (core (Blinker.platform false)) Blinker.modules Blinker.audio)
        (InTime (Blinker.platform false) Blinker.modules Blinker.audio)
        (start (Blinker.loaded false)) twoFrames s ∧
      rendered (Blinker.platform false) Blinker.modules Blinker.audio s true =
          (.ok, .frame [[0, 0, 16, 255, 0, 0, 0, 255], [0, 0, 0, 255, 0, 0, 0, 255]]) ∧
        InTime (Blinker.platform false) Blinker.modules Blinker.audio s (.render true) :=
    Machine.exists_run (by decide +kernel)
  obtain ⟨s, hrun, hrendered, htime⟩ := hend
  obtain ⟨i, hi, hsoft⟩ : ∃ i, (Blinker.loaded false).core.current = some i ∧ i.hw = none := by
    refine ⟨_, rfl, rfl⟩
  obtain ⟨es, hlog, hshows⟩ :=
    screen_shows_frame loaded_blinker hi hsoft (by decide +kernel) hrun
  refine ⟨s, hrun, hrendered, es, hlog, hshows true htime (congrArg Prod.fst hrendered)⟩

end RetroPark.LibretroShim
