import RetroPark.Runtime.Control

/-!
# What holds of the core's side

The runtime reaches its core through the loader alone. What every method of the loader keeps, for
the loader and the core together, holds in every run of the runtime.

* `CoreSide env J`: all methods but `load_content` and `get_av_info` keep `J`;
* `ContentSide` allows for cores whose content may be loaded only once, and which may be asked for
  their geometry only when it is: `ContentSide.call` shows that a call of the runtime keeps the
  rest, and that only `load_content` needs a core that is idle. A reset, which loads the content
  again, does not.
-/

namespace RetroPark

open Std.Do

set_option mvcgen.warning false

/-- What a method of the loader leaves behind satisfies `J`. -/
def LoaderOutcome.Leaves {κ α : Type} (J : CoreLoader → κ → Prop) (o : LoaderOutcome κ α) : Prop :=
  J o.loader o.core

namespace Runtime

open Program

variable {κ β : Type} {env : Env κ β} {J : CoreLoader → κ → Prop}

/-- The loader and the core are as `J` says. -/
def On (J : CoreLoader → κ → Prop) (w : World κ β) : Prop := J w.rt.loader w.core

variable (env J) in
/-- The methods of the loader keep `J`. -/
structure CoreSide : Prop where
  load : ∀ {l k}, J l k → ∀ module, (l.load env.core module k).Leaves J
  getInfo : ∀ {l k}, J l k → J l (env.core.getInfo k).core
  create : ∀ {l k}, J l k → (l.create env.core k).Leaves J
  setSurfaces : ∀ {l k}, J l k → ∀ set, (l.setSurfaces env.core set k).Leaves J
  start : ∀ {l k}, J l k → (l.start env.core k).Leaves J
  stop : ∀ {l k}, J l k → (l.stop env.core k).Leaves J
  destroy : ∀ {l k}, J l k → (l.destroy env.core k).Leaves J
  runFrame : ∀ {l k}, J l k → ∀ port0 port1, (l.runFrame env.core port0 port1 k).Leaves J
  serializeSize : ∀ {l k}, J l k → (l.serializeSize env.core k).Leaves J
  serialize : ∀ {l k}, J l k → ∀ size, (l.serialize env.core size k).Leaves J
  unserialize : ∀ {l k}, J l k → ∀ data, (l.unserialize env.core data k).Leaves J
  openModule : ∀ {l k}, J l k → ∀ path, J l (env.modules.openModule k path).2
  releaseModule : ∀ {l k}, J l k → J l (env.modules.releaseModule k)

/-- Callbacks touch neither the loader nor the core. -/
theorem hostCalls_on {cs : List HostCall} {w : World κ β} (h : On J w) :
    On J ((hostCalls env cs).run w).2 := by
  obtain ⟨hcore, hsteady⟩ := hostCalls_steady env cs w
  have hloader : ((hostCalls env cs).run w).2.rt.loader = w.rt.loader :=
    (congrArg Runtime.loader hsteady :)
  rw [On, hcore, hloader]
  exact h

/-- A method of the loader that leaves `J` behind leaves it behind in the runtime. -/
theorem callLoader_on {α : Type} (f : CoreLoader → κ → LoaderOutcome κ α) {w : World κ β}
    (h : (f w.rt.loader w.core).Leaves J) : On J ((callLoader env f).run w).2 :=
  hostCalls_on h

/-! ### Frames and savestates -/

namespace CoreSide

/-- Asking for the size of a savestate keeps `J`. -/
theorem callSerializeSize (hJ : CoreSide env J) :
    ⦃fun w => ⌜On J w⌝⦄ callLoader env (·.serializeSize env.core ·) ⦃⇓ _ w => ⌜On J w⌝⦄ :=
  triple_of_run fun _ hw => callLoader_on _ (hJ.serializeSize hw)

/-- Taking a savestate keeps `J`. -/
theorem callSerialize (hJ : CoreSide env J) (size : ℕ) :
    ⦃fun w => ⌜On J w⌝⦄ callLoader env (·.serialize env.core size ·) ⦃⇓ _ w => ⌜On J w⌝⦄ :=
  triple_of_run fun _ hw => callLoader_on _ (hJ.serialize hw size)

/-- Restoring a savestate keeps `J`. -/
theorem callUnserialize (hJ : CoreSide env J) (data : Blob) :
    ⦃fun w => ⌜On J w⌝⦄ callLoader env (·.unserialize env.core data ·) ⦃⇓ _ w => ⌜On J w⌝⦄ :=
  triple_of_run fun _ hw => callLoader_on _ (hJ.unserialize hw data)

/-- Running a frame keeps `J`. -/
theorem callRunFrame (hJ : CoreSide env J) (port0 port1 : InputState) :
    ⦃fun w => ⌜On J w⌝⦄ callLoader env (·.runFrame env.core port0 port1 ·) ⦃⇓ _ w => ⌜On J w⌝⦄ :=
  triple_of_run fun _ hw => callLoader_on _ (hJ.runFrame hw port0 port1)

/-- `set_input` does not reach the core. -/
theorem setInput (_ : CoreSide env J) (port : UInt32) (input : InputState) :
    ⦃fun w => ⌜On J w⌝⦄ (Runtime.setInput port input : RuntimeM κ β Unit) ⦃⇓ _ w => ⌜On J w⌝⦄ := by
  refine triple_of_run fun w hw => ?_
  change J (if port &&& 1 = 0 then _ else _ : Runtime).loader _
  split_ifs <;> exact hw

/-- The capture of a rewind snapshot keeps `J`. -/
theorem captureRewind (hJ : CoreSide env J) :
    ⦃fun w => ⌜On J w⌝⦄ Runtime.captureRewind env ⦃⇓ _ w => ⌜On J w⌝⦄ := by
  have hsize := hJ.callSerializeSize
  have hserialize := hJ.callSerialize
  mvcgen [Runtime.captureRewind, hsize, hserialize]

/-- `advance` keeps `J`. -/
theorem advance (hJ : CoreSide env J) (emit : Bool) :
    ⦃fun w => ⌜On J w⌝⦄ Runtime.advance env emit ⦃⇓ _ w => ⌜On J w⌝⦄ := by
  have hcapture := hJ.captureRewind
  have hframe := hJ.callRunFrame
  mvcgen [Runtime.advance, hcapture, hframe]

/-- `render` does not reach the core. -/
theorem render (_ : CoreSide env J) (wantPixels : Bool) :
    ⦃fun w => ⌜On J w⌝⦄ Runtime.render env wantPixels ⦃⇓ _ w => ⌜On J w⌝⦄ := by
  mvcgen [Runtime.render, renderDriven, renderRing]

/-- `present` keeps `J`. -/
theorem present (hJ : CoreSide env J) (wantPixels : Bool) :
    ⦃fun w => ⌜On J w⌝⦄ Runtime.present env wantPixels ⦃⇓ _ w => ⌜On J w⌝⦄ := by
  have hadvance := hJ.advance
  have hrender := hJ.render
  mvcgen [Runtime.present, hadvance, hrender]

/-- `save_state` keeps `J`. -/
theorem saveState (hJ : CoreSide env J) (buf : Bool) (size : ℕ) :
    ⦃fun w => ⌜On J w⌝⦄ Runtime.saveState env buf size ⦃⇓ _ w => ⌜On J w⌝⦄ := by
  have hsize := hJ.callSerializeSize
  have hserialize := hJ.callSerialize
  mvcgen [Runtime.saveState, hsize, hserialize]

/-- `load_state` keeps `J`. -/
theorem loadState (hJ : CoreSide env J) (data : Blob) :
    ⦃fun w => ⌜On J w⌝⦄ Runtime.loadState env data ⦃⇓ _ w => ⌜On J w⌝⦄ := by
  have hunserialize := hJ.callUnserialize
  mvcgen [Runtime.loadState, hunserialize]

/-- `set_rewind` keeps `J`. -/
theorem setRewind (hJ : CoreSide env J) (enabled : Bool) (maxSnapshots : ℕ) :
    ⦃fun w => ⌜On J w⌝⦄ Runtime.setRewind env enabled maxSnapshots ⦃⇓ _ w => ⌜On J w⌝⦄ := by
  have hsize := hJ.callSerializeSize
  mvcgen [Runtime.setRewind, hsize]

/-- `rewind` keeps `J`. -/
theorem rewind (hJ : CoreSide env J) :
    ⦃fun w => ⌜On J w⌝⦄ Runtime.rewind env ⦃⇓ _ w => ⌜On J w⌝⦄ := by
  have hunserialize := hJ.callUnserialize
  mvcgen [Runtime.rewind, hunserialize]

/-- `pause` does not reach the core. -/
theorem pause (_ : CoreSide env J) :
    ⦃fun w => ⌜On J w⌝⦄ (Runtime.pause : RuntimeM κ β RpResult) ⦃⇓ _ w => ⌜On J w⌝⦄ := by
  refine triple_of_run fun w hw => ?_
  change J (if w.rt.coreLoaded then _ else _ : Runtime).loader _
  split_ifs <;> exact hw

/-- A method that does not manage the core's life keeps `J`. -/
theorem quiet (hJ : CoreSide env J) {a : ApiCall} (ha : a.isQuiet = true) {w : World κ β}
    (hw : On J w) : On J ((call env a).run w).2 := by
  cases a with
  | setInput port input => exact run_of_triple (hJ.setInput port input) hw
  | present out => exact run_of_triple (hJ.present out) hw
  | advance emit => exact run_of_triple (hJ.advance emit) hw
  | render out => exact run_of_triple (hJ.render out) hw
  | serializeSize => exact run_of_triple hJ.callSerializeSize hw
  | saveState buf size => exact run_of_triple (hJ.saveState buf size) hw
  | loadState data => exact run_of_triple (hJ.loadState data) hw
  | setRewind enabled n => exact run_of_triple (hJ.setRewind enabled n) hw
  | rewind => exact run_of_triple hJ.rewind hw
  | pause => exact run_of_triple hJ.pause hw
  | resume => exact hw
  | coreThread calls => exact hostCalls_on hw
  | loadCore | loadStaticCore | unloadCore | loadContent | resize | reset => cases ha

/-- Opening the audio output does not reach the core. -/
theorem openAudio (_ : CoreSide env J) (av : AvInfo) :
    ⦃fun w => ⌜On J w⌝⦄ Runtime.openAudio env av ⦃⇓ _ w => ⌜On J w⌝⦄ := by
  mvcgen [Runtime.openAudio]

/-! ### The life of the core -/

/-- The calls that every `CoreSide` keeps. -/
def Plain : Op → Prop
  | .getAvInfo | .loadContent _ => False
  | .quiet a => a.isQuiet = true
  | _ => True

/-- Every plain call of a script keeps `J`. -/
theorem op (hJ : CoreSide env J) {i : Op} (hi : Plain i) {w : World κ β} (hw : On J w) :
    On J ((Op.exec env i).run w).2 := by
  cases i with
  | view | readManifest | getStatic => exact hw
  | edit e =>
    -- No edit touches the loader.
    have hloader : (e.write w.rt).loader = w.rt.loader :=
      (congrArg View.loader (e.view_write w.rt)).trans (e.effect_loader _)
    show J (e.write w.rt).loader w.core
    rw [hloader]
    exact hw
  | openModule path => exact hJ.openModule hw path
  | holdModule => exact hw
  | resetModule =>
    show On J (StateT.run (if w.rt.module then _ else _ : RuntimeM κ β Unit) w).2
    by_cases hmodule : w.rt.module = true
    · rw [if_pos hmodule]
      exact hJ.releaseModule hw
    · rw [if_neg hmodule]
      exact hw
  | load module => exact callLoader_on _ (hJ.load hw module)
  | getInfo => exact hostCalls_on (hJ.getInfo hw)
  | create => exact callLoader_on _ (hJ.create hw)
  | handSurfaces descs =>
    show On J (StateT.run (if _ then _ else _ : RuntimeM κ β RpResult) w).2
    split_ifs
    · exact callLoader_on _ (hJ.setSurfaces hw _)
    · exact hw
  | start => exact callLoader_on _ (hJ.start hw)
  | stop => exact callLoader_on _ (hJ.stop hw)
  | destroy => exact callLoader_on _ (hJ.destroy hw)
  | getAvInfo | loadContent => exact hi.elim
  | initBackend | allocateSurfaces => exact hw
  | openAudio av => exact run_of_triple (hJ.openAudio av) hw
  | closeAudio =>
    show On J (if w.rt.audio then _ else w)
    split_ifs <;> exact hw
  | quiet a => exact hJ.quiet hi hw

end CoreSide

variable (env) in
/-- A step of the world. -/
def Exec (i : Op) (w : World κ β) (r : i.Answer) (w' : World κ β) : Prop :=
  (Op.exec env i).run w = (r, w')

variable (env) in
/-- Whatever script is run, it leaves the core as `I` says. -/
abbrev Keeps {α : Type} (I : CoreLoader → κ → Prop) (p : Script α) (w : World κ β) : Prop :=
  Always (Exec env) (fun _ _ => True) (fun _ => On I) p w

/-- A script of plain calls keeps `J`. -/
theorem CoreSide.keeps {α : Type} (hJ : CoreSide env J) {p : Script α} (hp : Only CoreSide.Plain p)
    {w : World κ β} (hw : On J w) : Keeps env J p w := by
  refine hp.always (fun i c r c' hi hc hstep => ?_) hw
  have hop := hJ.op hi hc
  rw [hstep] at hop
  exact hop

/-- `rebuild_surfaces` makes plain calls only. -/
theorem only_rebuildSurfaces : Only CoreSide.Plain Script.rebuildSurfaces := by
  simp [Script.rebuildSurfaces, Script.newSurfaces, CoreSide.Plain]

/-- `resize` makes plain calls only. -/
theorem only_resize (width height : UInt32) : Only CoreSide.Plain (Script.resize width height) := by
  simp [Script.resize, CoreSide.Plain, Only.bind, only_rebuildSurfaces]

/-- `unload_core` makes plain calls only. -/
theorem only_unloadCore : Only CoreSide.Plain Script.unloadCore := by
  simp [Script.unloadCore, CoreSide.Plain]

/-- Unloading with a result makes plain calls only. -/
theorem only_unloadWith (r : RpResult) : Only CoreSide.Plain (Script.unloadWith r) :=
  only_unloadCore.bind fun _ => trivial

/-- Giving up a load makes plain calls only. -/
theorem only_abandonLoad (r : RpResult) : Only CoreSide.Plain (Script.abandonLoad r) := by
  simp [Script.abandonLoad, CoreSide.Plain]

/-- A call of the loader answers its value and leaves what the method leaves. -/
theorem callLoader_leaves {α : Type} {f : CoreLoader → κ → LoaderOutcome κ α}
    {w w' : World κ β} {r : α}
    (h : (callLoader env f).run w = (r, w')) :
    r = (f w.rt.loader w.core).value ∧ ∀ {I}, (f w.rt.loader w.core).Leaves I → On I w' := by
  refine ⟨(congrArg Prod.fst h).symm, fun hI => ?_⟩
  have hon : On _ ((callLoader env f).run w).2 := callLoader_on f hI
  rw [h] at hon
  exact hon

/-! ### Content -/

variable (env J) in
/-- A core that is `idle` may be given content, and then is `playing`. Until then it is asked for
its geometry only if it takes no content. -/
structure ContentSide (idle playing : CoreLoader → κ → Prop) : Prop where
  side : CoreSide env J
  idleSide : CoreSide env idle
  of_idle : ∀ {l k}, idle l k → J l k
  of_playing : ∀ {l k}, playing l k → J l k
  load : ∀ {l k}, J l k → ∀ module, (l.load env.core module k).value = .ok →
    (l.load env.core module k).Leaves idle
  loadContent : ∀ {l k}, idle l k → ∀ path, (l.loadContent env.core path k).Leaves J ∧
    ((l.loadContent env.core path k).value = .ok → (l.loadContent env.core path k).Leaves playing)
  start : ∀ {l k}, playing l k → (l.start env.core k).Leaves playing
  getAvInfo : ∀ {l k}, playing l k → (l.getAvInfo env.core k).Leaves playing
  getAvInfo_idle : ∀ {l k}, idle l k → l.hasLoadContent = false →
    (l.getAvInfo env.core k).Leaves idle

namespace ContentSide

variable {idle playing : CoreLoader → κ → Prop} (h : ContentSide env J idle playing) {w : World κ β}

include h

/-- A script of plain calls keeps an idle core within `J`. -/
theorem keeps_of_idle {α : Type} {p : Script α} (hp : Only CoreSide.Plain p) (hw : On idle w) :
    Keeps env J p w :=
  (h.idleSide.keeps hp hw).mono fun _ _ => h.of_idle

/-- A core that was just created is idle. -/
theorem finishLoadCore (type : CoreType) (hw : On idle w) :
    Keeps env idle (Script.finishLoadCore type) w := by
  unfold Script.finishLoadCore
  refine .call trivial ?_
  rintro _ w₁ ⟨⟩
  have hw₁ : On idle { w with rt := (Edit.enter type).write w.rt } := hw
  refine (always_ite ..).mpr ⟨fun _ => .call trivial ?_, fun _ => h.idleSide.keeps ?_ hw₁⟩
  · rintro _ w₂ ⟨⟩
    refine (always_ite ..).mpr ⟨fun _ => hw₁, fun hrequires => .call trivial fun r w₃ hstep => ?_⟩
    -- The core takes no content.
    have hnone : w.rt.loader.hasLoadContent = false := (Bool.not_eq_true _).mp hrequires
    have hw₃ := (callLoader_leaves hstep).2 (h.getAvInfo_idle hw₁ hnone)
    refine h.idleSide.keeps ?_ hw₃
    simp [CoreSide.Plain, only_unloadWith]
  · simp [CoreSide.Plain, Only.bind, only_rebuildSurfaces, only_unloadWith]

/-- `load_content` of a driven core keeps an idle core within `J`. -/
theorem loadDriven (path : String) (hw : On idle w) : Keeps env J (Script.loadDriven path) w := by
  unfold Script.loadDriven
  refine .call trivial fun r w₁ hstep => ?_
  obtain ⟨hr, hleaves⟩ := callLoader_leaves (f := (·.loadContent env.core path ·)) hstep
  obtain ⟨hloaded, hplaying⟩ := h.loadContent hw path
  refine (always_ite ..).mpr
    ⟨fun _ => hleaves hloaded, fun hok => .call trivial fun av w₂ hstep₂ => ?_⟩
  have hw₁ : On playing w₁ := hleaves (hplaying (hr.symm.trans (not_not.mp hok)))
  have hw₂ : On playing w₂ := (callLoader_leaves hstep₂).2 (h.getAvInfo hw₁)
  refine h.side.keeps ?_ (h.of_playing hw₂)
  simp [CoreSide.Plain]

/-- The audio part of `load_content` keeps a playing core within `J`. -/
theorem contentAudio (hw : On playing w) : Keeps env J Script.contentAudio w := by
  unfold Script.contentAudio
  refine .call trivial fun av w₁ hstep => ?_
  have hw₁ : On playing w₁ := (callLoader_leaves hstep).2 (h.getAvInfo hw)
  refine h.side.keeps ?_ (h.of_playing hw₁)
  simp [CoreSide.Plain]

/-- `load_content` of a presenting core keeps an idle core within `J`. -/
theorem loadPresenting (path : String) (hw : On idle w) :
    Keeps env J (Script.loadPresenting path) w := by
  unfold Script.loadPresenting
  refine .call trivial ?_
  rintro _ w₁ ⟨⟩
  refine (always_ite ..).mpr ⟨fun _ => h.of_idle hw, fun _ => .call trivial fun r w₂ hstep => ?_⟩
  obtain ⟨hr, hleaves⟩ := callLoader_leaves (f := (·.loadContent env.core path ·)) hstep
  obtain ⟨hloaded, hplaying⟩ := h.loadContent hw path
  refine (always_ite ..).mpr ⟨fun _ => hleaves hloaded, fun hok => .call trivial ?_⟩
  rintro _ w₃ ⟨⟩
  have hw₂ : On playing w₂ := hleaves (hplaying (hr.symm.trans (not_not.mp hok)))
  refine .call trivial ?_
  rintro _ w₄ ⟨⟩
  refine (always_ite ..).mpr
    ⟨fun _ => .call trivial fun r w₅ hstep => ?_, fun _ => h.contentAudio hw₂⟩
  have hw₅ : On playing w₅ := (callLoader_leaves hstep).2 (h.start hw₂)
  exact (always_ite ..).mpr ⟨fun _ => h.of_playing hw₅, fun _ => h.contentAudio hw₅⟩

/-- `load_content` keeps an idle core within `J`, whatever the type of the core. -/
theorem loadPath (path : String) (hw : On idle w) : Keeps env J (Script.loadPath path) w := by
  unfold Script.loadPath
  refine .call trivial ?_
  rintro _ w₁ ⟨⟩
  refine (always_ite ..).mpr ⟨fun _ => h.of_idle hw, fun _ => .call trivial ?_⟩
  rintro _ w₂ ⟨⟩
  have hw₂ : On idle { w with rt := (Edit.contentPath path).write w.rt } := hw
  refine .call trivial ?_
  rintro _ w₃ ⟨⟩
  refine (always_ite ..).mpr ⟨fun _ => h.loadPresenting path hw₂, fun _ => .call trivial ?_⟩
  rintro _ w₄ ⟨⟩
  exact (always_ite ..).mpr ⟨fun _ => h.of_idle hw₂, fun _ => h.loadDriven path hw₂⟩

/-- The instance is created anew from a module that was just loaded. -/
theorem createAndFinish {α : Type} {type : CoreType} {failed : Script α} {k : RpResult → Script α}
    (hfailed : Only CoreSide.Plain failed) (hw : On idle w)
    (hk : ∀ r {w'}, On idle w' → Keeps env J (k r) w') :
    Keeps env J (do
      let r ← Script.op .create
      if r ≠ .ok then failed
      else
        let r ← Script.finishLoadCore type
        k r) w := by
  refine .call trivial fun r w₁ hstep => ?_
  have hw₁ : On idle w₁ :=
    (callLoader_leaves (f := (·.create env.core ·)) hstep).2 (h.idleSide.create hw)
  refine (always_ite ..).mpr ⟨fun _ => h.keeps_of_idle hfailed hw₁, fun _ => ?_⟩
  exact (h.finishLoadCore type hw₁).bind fun r w₂ hw₂ => hk r hw₂

/-- A load keeps `J`, and leaves an idle core if it succeeds. -/
theorem load_step {module : Bool} {r : RpResult} {w' : World κ β} (hw : On J w)
    (hstep : Exec env (.load module) w r w') : On J w' ∧ (r = .ok → On idle w') := by
  obtain ⟨hr, hleaves⟩ := callLoader_leaves (f := (·.load env.core module ·)) hstep
  exact ⟨hleaves (h.side.load hw module), fun hok => hleaves (h.load hw module (hr.symm.trans hok))⟩

/-- A step of a script with a plain call keeps `J`. -/
theorem op_step {i : Op} {r : i.Answer} {w' : World κ β} (hstep : Exec env i w r w') (hw : On J w)
    (hi : CoreSide.Plain i) : On J w' := by
  have hop := h.side.op hi hw
  rw [hstep] at hop
  exact hop

/-- Loading the core that a manifest names keeps `J`. -/
theorem loadManifest (coreDir : String) (m : ManifestFile) (hw : On J w) :
    Keeps env J (Script.loadManifest coreDir m) w := by
  cases m with
  | missing | malformed => exact hw
  | manifest type graphicsApi entry =>
    refine .call trivial ?_
    rintro _ w₁ ⟨⟩
    refine (always_ite ..).mpr ⟨fun _ => hw, fun _ => .call trivial fun _ w₂ hopen => ?_⟩
    have hw₂ := h.op_step hopen hw trivial
    refine (always_ite ..).mpr ⟨fun _ => hw₂, fun _ => .call trivial fun _ w₃ hreset => ?_⟩
    have hw₃ := h.op_step hreset hw₂ trivial
    refine .call trivial fun _ w₄ hhold => .call trivial fun r w₅ hload => ?_
    obtain ⟨hw₅, hidle⟩ := h.load_step (h.op_step hhold hw₃ trivial) hload
    refine (always_ite ..).mpr ⟨fun _ => h.side.keeps ?_ hw₅, fun hok => ?_⟩
    · simp [CoreSide.Plain]
    · refine h.createAndFinish (only_abandonLoad _) (hidle (not_not.mp hok)) fun r w₆ hw₆ => ?_
      exact h.keeps_of_idle (by simp [CoreSide.Plain]) hw₆

/-- `load_core` keeps `J`. -/
theorem loadCore (coreDir : String) (hw : On J w) : Keeps env J (Script.loadCore coreDir) w := by
  have hmanifest : ∀ {w' : World κ β}, On J w' → Keeps env J (do
      Script.loadManifest coreDir (← Script.op (.readManifest coreDir))) w' := by
    refine fun hw' => .call trivial ?_
    rintro _ w₁ ⟨⟩
    exact h.loadManifest coreDir _ hw'
  refine .call trivial ?_
  rintro _ w₁ ⟨⟩
  refine (always_ite ..).mpr ⟨fun _ => hw, fun _ => (always_ite ..).mpr ⟨fun _ => ?_, fun _ => ?_⟩⟩
  · exact (h.side.keeps only_unloadCore hw).bind fun _ _ hw' => hmanifest hw'
  · exact hmanifest hw

/-- Loading a registered core keeps `J`. -/
theorem loadRegistered (coreId : String) (hw : On J w) :
    Keeps env J (Script.loadRegistered coreId) w := by
  refine .call trivial ?_
  rintro _ w₁ ⟨⟩
  refine (always_ite ..).mpr ⟨fun _ => hw, fun _ => .call trivial fun _ w₂ hreset => ?_⟩
  have hw₂ := h.op_step hreset hw trivial
  refine .call trivial fun _ w₃ hhold => .call trivial fun r w₄ hload => ?_
  obtain ⟨hw₄, hidle⟩ := h.load_step (h.op_step hhold hw₂ trivial) hload
  refine (always_ite ..).mpr ⟨fun _ => h.side.keeps ?_ hw₄, fun hok => .call trivial ?_⟩
  · simp [CoreSide.Plain]
  · rintro _ w₅ ⟨⟩
    have hw₅ := hidle (not_not.mp hok)
    refine (always_ite ..).mpr ⟨fun _ => h.keeps_of_idle (only_abandonLoad _) hw₅, fun _ => ?_⟩
    refine .call trivial fun info w₆ hinfo => .call trivial ?_
    rintro _ w₇ ⟨⟩
    have hw₆ : On idle w₆ := by
      have hop := h.idleSide.op (i := .getInfo) trivial hw₅
      rw [hinfo] at hop
      exact hop
    refine (always_ite ..).mpr ⟨fun _ => h.keeps_of_idle (only_abandonLoad _) hw₆, fun _ => ?_⟩
    refine h.createAndFinish (only_abandonLoad _) hw₆ fun r w₈ hw₈ => ?_
    exact h.keeps_of_idle (by simp [CoreSide.Plain]) hw₈

/-- `load_static_core` keeps `J`. -/
theorem loadStaticCore (coreId : String) (hw : On J w) :
    Keeps env J (Script.loadStaticCore coreId) w := by
  refine .call trivial ?_
  rintro _ w₁ ⟨⟩
  refine (always_ite ..).mpr ⟨fun _ => hw, fun _ => (always_ite ..).mpr ⟨fun _ => ?_, fun _ => ?_⟩⟩
  · exact (h.side.keeps only_unloadCore hw).bind fun _ _ hw' => h.loadRegistered coreId hw'
  · exact h.loadRegistered coreId hw

/-- A reset loads the content into a new instance. -/
theorem reset (hw : On J w) : Keeps env J Script.reset w := by
  refine .call trivial ?_
  rintro _ w₁ ⟨⟩
  refine (always_ite ..).mpr ⟨fun _ => h.side.keeps (by simp [CoreSide.Plain]) hw, fun _ => ?_⟩
  refine .call trivial fun _ w₂ hreboot => .call trivial ?_
  have hw₂ := h.op_step hreboot hw trivial
  rintro v w₃ ⟨⟩
  refine .call trivial fun _ w₄ hcontent => .call trivial fun _ w₅ hdestroy => ?_
  have hw₅ := h.op_step hdestroy (h.op_step hcontent hw₂ trivial) trivial
  refine .call trivial fun r w₆ hload => ?_
  obtain ⟨hw₆, hidle⟩ := h.load_step hw₅ hload
  refine (always_ite ..).mpr ⟨fun _ => h.side.keeps (only_unloadWith _) hw₆, fun hok => ?_⟩
  refine h.createAndFinish (only_unloadWith _) (hidle (not_not.mp hok)) fun r w₇ hw₇ => ?_
  refine (always_ite ..).mpr
    ⟨fun _ => h.of_idle hw₇, fun _ => (always_ite ..).mpr ⟨fun _ => ?_, ?_⟩⟩
  · refine .call trivial ?_
    rintro _ w₈ ⟨⟩
    exact h.loadPath _ hw₇
  · exact fun _ => h.of_idle hw₇

/-- A call of the runtime keeps `J`. Only content is loaded into a core that must be idle. -/
theorem call (a : ApiCall) (hw : On J w) (hcontent : ∀ path, a = .loadContent path → On idle w) :
    On J ((Runtime.call env a).run w).2 := by
  have hscript : Keeps env J (Script.call a) w := by
    cases a with
    | loadCore dir => exact (h.loadCore dir hw).bind fun _ _ => id
    | loadStaticCore id => exact (h.loadStaticCore id hw).bind fun _ _ hw' => hw'
    | unloadCore => exact (h.side.keeps only_unloadCore hw).bind fun _ _ => id
    | loadContent path => exact (h.loadPath _ (hcontent path rfl)).bind fun _ _ => id
    | resize width height => exact (h.side.keeps (only_resize width height) hw).bind fun _ _ => id
    | reset => exact (h.reset hw).bind fun _ _ => id
    | _ => exact h.side.keeps (by simp [Script.call, CoreSide.Plain, ApiCall.isQuiet]) hw
  rw [← runIn_call]
  exact hscript.runIn (f := id) fun _ _ => rfl

end ContentSide

end Runtime

end RetroPark
