import RetroPark.Runtime.Triples

/-!
# What is heard

The samples that reach the audio output of a driven core's runtime.

* `Listener` is a device that keeps what it is given to play, `Voice` a deterministic core with
  faithful savestates that sounds in its frames alone;
* `soundState` is what has been heard so far and what decides whether more will be. The methods a
  netplay session calls do not change it (`saveState_soundState` and its neighbours), but for
  `advance`;
* `advance_soundState` says what `advance` adds: the sound of the frame it runs, unless the caller
  has asked for none.
-/

namespace RetroPark

open Std.Do

set_option mvcgen.warning false

/-- The samples a callback delivers. -/
def HostCall.sound : HostCall → Option (List Int16)
  | .audioSample (some samples) n => if n = 0 then none else some (samples.take (2 * n))
  | _ => none

/-- The samples a list of callbacks delivers, one entry a callback. -/
def sounds (cs : List HostCall) : List (List Int16) := cs.filterMap HostCall.sound

/-- What has been submitted to the audio output of a device. Showing a frame submits nothing. -/
structure Listener {β : Type*} (gpu : GpuEnv β) where
  heard : β → List (List Int16)
  audioSubmit : ∀ g samples, heard (gpu.audioSubmit g samples) = heard g ++ [samples]
  compositeAndPresent : ∀ g index syncValue has pixels,
    heard (gpu.compositeAndPresent g index syncValue has pixels).2 = heard g
  compositeDriven : ∀ g data w h pitch dupe pixels,
    heard (gpu.compositeDriven g data w h pitch dupe pixels).2 = heard g
  compositeExternalGl : ∀ g tex w h blo pixels,
    heard (gpu.compositeExternalGl g tex w h blo pixels).2 = heard g

/-- The sound of a deterministic core: that of a frame depends on the state before it and the
inputs, and the serialization of a state makes none. -/
structure Voice {κ : Type} {core : CoreEnv κ} {c : CorePtr} {σ : Type*}
    (D : DrivenCore core c σ) where
  sound : σ → InputState × InputState → List (List Int16)
  runFrame : ∀ k port0 port1,
    sounds (core.runFrame k c port0 port1).calls = sound (D.view k) (port0, port1)
  serializeSize : ∀ k, sounds (core.serializeSize k c).calls = []
  serialize : ∀ k n, sounds (core.serialize k c n).calls = []
  unserialize : ∀ k data, sounds (core.unserialize k c data).calls = []

namespace Voice

variable {κ : Type} {core : CoreEnv κ} {c : CorePtr} {σ : Type*} {D : DrivenCore core c σ}
  {l : CoreLoader} {k : κ}

/-- The core is silent when it is asked for the size of a savestate. -/
theorem serializeSize_sounds (V : Voice D) (hl : l.core = c) :
    sounds (l.serializeSize core k).calls = [] := by
  unfold CoreLoader.serializeSize
  split_ifs
  · rfl
  · exact hl ▸ V.serializeSize k

/-- The core is silent when a savestate is taken. -/
theorem serialize_sounds (V : Voice D) (hl : l.core = c) {size : ℕ} :
    sounds (l.serialize core size k).calls = [] := by
  unfold CoreLoader.serialize
  split_ifs
  · rfl
  · rfl
  · exact hl ▸ V.serialize k size

/-- The core is silent when a savestate is restored. -/
theorem unserialize_sounds (V : Voice D) (hl : l.core = c) {data : Blob} :
    sounds (l.unserialize core data k).calls = [] := by
  unfold CoreLoader.unserialize
  split_ifs
  · rfl
  · rfl
  · exact hl ▸ V.unserialize k data

end Voice

namespace Runtime

/-- Samples reach the audio output unless they are suppressed: there is one and the runtime is not
paused. -/
def audible (rt : Runtime) : Bool := rt.audio && !rt.paused

/-- What is audible is steady. -/
theorem audible_of_steady {rt rt' : Runtime} (h : rt'.steady = rt.steady) :
    rt'.audible = rt.audible ∧ rt'.suppressAudio = rt.suppressAudio ∧
      rt'.loader.core = rt.loader.core := by
  have haudio : rt'.audio = rt.audio := (congrArg Runtime.audio h :)
  have hpaused : rt'.paused = rt.paused := (congrArg Runtime.paused h :)
  refine ⟨?_, (congrArg Runtime.suppressAudio h :), (congrArg (fun rt => rt.loader.core) h :)⟩
  rw [audible, audible, haudio, hpaused]

variable {κ β : Type} {env : Env κ β} (L : Listener env.gpu)

/-! ### Callbacks -/

/-- The samples of a callback are submitted unless they are suppressed. -/
theorem onAudioSample_gpu (frames : Option (List Int16)) (n : ℕ) (w : World κ β) :
    ((onAudioSample env frames n).run w).2.gpu =
      if w.rt.audible && !w.rt.suppressAudio then
        ((HostCall.audioSample frames n).sound.map (env.gpu.audioSubmit w.gpu)).getD w.gpu
      else w.gpu := by
  show (if w.rt.suppressAudio || w.rt.paused then w else _ : World κ β).gpu = _
  by_cases hoff : (w.rt.suppressAudio || w.rt.paused) = true
  · have hmuted : (w.rt.audible && !w.rt.suppressAudio) = false := by
      rw [audible]
      grind
    rw [if_pos hoff, hmuted]
    rfl
  · obtain ⟨hsuppress, hpaused⟩ := Bool.or_eq_false_iff.mp (Bool.eq_false_of_not_eq_true hoff)
    rw [if_neg hoff, audible, hsuppress, hpaused, Bool.not_false, Bool.and_true, Bool.and_true]
    cases frames with
    | none => exact (ite_self _).symm
    | some samples =>
      by_cases hn : n = 0
      · simp [hn, HostCall.sound]
      · simp [hn, HostCall.sound]

/-- A callback is heard if the runtime is audible and its sound is not suppressed. -/
theorem hostCall_heard (c : HostCall) (w : World κ β) :
    L.heard ((hostCall env c).run w).2.gpu =
      L.heard w.gpu ++ if w.rt.audible && !w.rt.suppressAudio then sounds [c] else [] := by
  cases c with
  | audioSample frames n =>
    rw [hostCall, onAudioSample_gpu]
    split_ifs
    · cases hsound : (HostCall.audioSample frames n).sound with
      | none => simp [sounds, hsound]
      | some samples => simp [sounds, hsound, L.audioSubmit]
    · exact (List.append_nil _).symm
  | _ => exact ((congrArg (L.heard w.gpu ++ ·) (ite_self [])).trans (List.append_nil _)).symm

/-- The samples of callbacks are heard in their order, unless they are suppressed. -/
theorem hostCalls_heard (cs : List HostCall) (w : World κ β) :
    L.heard ((hostCalls env cs).run w).2.gpu =
      L.heard w.gpu ++ if w.rt.audible && !w.rt.suppressAudio then sounds cs else [] := by
  induction cs generalizing w with
  | nil => exact ((congrArg (L.heard w.gpu ++ ·) (ite_self [])).trans (List.append_nil _)).symm
  | cons c cs ih =>
    obtain ⟨haudible, hsuppress, -⟩ := audible_of_steady (hostCall_steady env c w).2
    refine (ih ((hostCall env c).run w).2).trans ?_
    rw [hostCall_heard, haudible, hsuppress, List.append_assoc]
    split_ifs
    · rw [sounds, sounds, sounds, ← List.filterMap_append, List.singleton_append]
    · rfl

/-- What has been heard, and what decides whether more will be heard and from which core. -/
def soundState (w : World κ β) : List (List Int16) × Bool × CorePtr :=
  (L.heard w.gpu, w.rt.audible, w.rt.loader.core)

/-- What the sound state depends on. -/
theorem soundState_congr {w w' : World κ β} (hheard : L.heard w'.gpu = L.heard w.gpu)
    (haudible : w'.rt.audible = w.rt.audible) (hcore : w'.rt.loader.core = w.rt.loader.core) :
    soundState L w' = soundState L w := by
  rw [soundState, hheard, haudible, hcore, soundState]

/-- A loader method that leaves the loader as it is is heard through the callbacks made during it.
-/
theorem callLoader_soundState {α : Type} (f : CoreLoader → κ → LoaderOutcome κ α)
    (hl : ∀ l k, (f l k).loader = l) (w : World κ β) :
    soundState L ((callLoader env f).run w).2 =
      (L.heard w.gpu ++ (if w.rt.audible && !w.rt.suppressAudio then
          sounds (f w.rt.loader w.core).calls else []), w.rt.audible, w.rt.loader.core) := by
  have hheard := hostCalls_heard L (f w.rt.loader w.core).calls
    { w with
      rt := { w.rt with loader := (f w.rt.loader w.core).loader }
      core := (f w.rt.loader w.core).core
      log := ((f w.rt.loader w.core).trace.map Event.abi).reverse ++ w.log }
  obtain ⟨w', hrun, -, hrt⟩ := callLoader_steady env f w (hl _ _)
  obtain ⟨haudible, -, hcore⟩ := audible_of_steady hrt
  rw [hrun, soundState, haudible, hcore]
  refine congrArg (fun h => (h, w.rt.audible, w.rt.loader.core)) (Eq.trans ?_ hheard)
  rw [show w' = ((callLoader env f).run w).2 from (congrArg Prod.snd hrun).symm]
  rfl

/-- Nothing is heard of a loader method without a sound, or of one that is suppressed. -/
theorem callLoader_silent {α : Type} (f : CoreLoader → κ → LoaderOutcome κ α)
    (hl : ∀ l k, (f l k).loader = l) {w : World κ β}
    (hsilent : w.rt.suppressAudio = true ∨ sounds (f w.rt.loader w.core).calls = []) :
    soundState L ((callLoader env f).run w).2 = soundState L w := by
  rw [callLoader_soundState L f hl w, soundState]
  rcases hsilent with hsuppress | hnone
  · rw [hsuppress, Bool.not_true, Bool.and_false, if_neg Bool.false_ne_true, List.append_nil]
  · rw [hnone, ite_self, List.append_nil]

/-! ### The methods a session calls -/

section Silent

variable {c : CorePtr} {σ : Type} {D : DrivenCore env.core c σ}
  {g : List (List Int16) × Bool × CorePtr}

/-- The sound state names the core. -/
theorem core_of_soundState {w : World κ β} (hw : soundState L w = g) (hc : g.2.2 = c) :
    w.rt.loader.core = c := (congrArg (fun g => g.2.2) hw).trans hc

/-- Asking for the size of a savestate keeps the sound state. -/
theorem callSerializeSize_soundState (V : Voice D) (hc : g.2.2 = c) :
    ⦃fun w => ⌜soundState L w = g⌝⦄ callLoader env (·.serializeSize env.core ·)
      ⦃⇓ _ w => ⌜soundState L w = g⌝⦄ :=
  triple_of_run fun _ hw =>
    (callLoader_silent L _ (fun l k => l.serializeSize_loader env.core k)
      (.inr (V.serializeSize_sounds (core_of_soundState L hw hc)))).trans hw

/-- Taking a savestate keeps the sound state. -/
theorem callSerialize_soundState (V : Voice D) (hc : g.2.2 = c) (size : ℕ) :
    ⦃fun w => ⌜soundState L w = g⌝⦄ callLoader env (·.serialize env.core size ·)
      ⦃⇓ _ w => ⌜soundState L w = g⌝⦄ :=
  triple_of_run fun _ hw =>
    (callLoader_silent L _ (fun l k => l.serialize_loader env.core k size)
      (.inr (V.serialize_sounds (core_of_soundState L hw hc)))).trans hw

/-- Restoring a savestate keeps the sound state. -/
theorem callUnserialize_soundState (V : Voice D) (hc : g.2.2 = c) (data : Blob) :
    ⦃fun w => ⌜soundState L w = g⌝⦄ callLoader env (·.unserialize env.core data ·)
      ⦃⇓ _ w => ⌜soundState L w = g⌝⦄ :=
  triple_of_run fun _ hw =>
    (callLoader_silent L _ (fun l k => l.unserialize_loader env.core k data)
      (.inr (V.unserialize_sounds (core_of_soundState L hw hc)))).trans hw

/-- `serialize_size` keeps the sound state. -/
theorem serializeSize_soundState (V : Voice D) (hc : g.2.2 = c) :
    ⦃fun w => ⌜soundState L w = g⌝⦄ serializeSize env ⦃⇓ _ w => ⌜soundState L w = g⌝⦄ :=
  callSerializeSize_soundState L V hc

/-- `set_input` keeps the sound state. -/
theorem setInput_soundState (port : UInt32) (input : InputState) :
    ⦃fun w => ⌜soundState L w = g⌝⦄ (setInput port input : RuntimeM κ β Unit)
      ⦃⇓ _ w => ⌜soundState L w = g⌝⦄ := by
  refine triple_of_run fun w hw => ?_
  obtain rfl := hw
  show soundState L { w with rt := if port &&& 1 = 0 then _ else _ } = soundState L w
  split_ifs <;> rfl

/-- The capture of a rewind snapshot keeps the sound state. -/
theorem captureRewind_soundState (V : Voice D) (hc : g.2.2 = c) :
    ⦃fun w => ⌜soundState L w = g⌝⦄ captureRewind env ⦃⇓ _ w => ⌜soundState L w = g⌝⦄ := by
  have hsize := callSerializeSize_soundState L V hc
  have hserialize := callSerialize_soundState L V hc
  mvcgen [captureRewind, hsize, hserialize]

/-- `save_state` keeps the sound state. -/
theorem saveState_soundState (V : Voice D) (hc : g.2.2 = c) (buf : Bool) (size : ℕ) :
    ⦃fun w => ⌜soundState L w = g⌝⦄ saveState env buf size ⦃⇓ _ w => ⌜soundState L w = g⌝⦄ := by
  have hsize := callSerializeSize_soundState L V hc
  have hserialize := callSerialize_soundState L V hc
  mvcgen [saveState, hsize, hserialize]

/-- `load_state` keeps the sound state. -/
theorem loadState_soundState (V : Voice D) (hc : g.2.2 = c) (data : Blob) :
    ⦃fun w => ⌜soundState L w = g⌝⦄ loadState env data ⦃⇓ _ w => ⌜soundState L w = g⌝⦄ := by
  have hunserialize := callUnserialize_soundState L V hc
  mvcgen [loadState, hunserialize]

/-- `render` keeps the sound state. -/
theorem render_soundState (wantPixels : Bool) :
    ⦃fun w => ⌜soundState L w = g⌝⦄ render env wantPixels ⦃⇓ _ w => ⌜soundState L w = g⌝⦄ := by
  mvcgen [render, renderDriven, renderRing]
  all_goals obtain rfl := ‹soundState L _ = g›
  · exact soundState_congr L (L.compositeExternalGl ..) rfl rfl
  · exact soundState_congr L (L.compositeDriven ..) rfl rfl
  · exact soundState_congr L (L.compositeAndPresent ..) rfl rfl
  · exact soundState_congr L (L.compositeAndPresent ..) rfl rfl

end Silent

/-- `advance` on a ready core captures a rewind snapshot and runs a frame, with the audio flag set
to what the caller asks for. -/
theorem advance_run {c : CorePtr} {w w₁ w₂ : World κ β} {r : RpResult} (h : DrivenReady c w.rt)
    (emit : Bool) (hcapture : (captureRewind env).run w = ((), w₁))
    (hframe : (callLoader env (·.runFrame env.core w₁.rt.input0 w₁.rt.input1 ·)).run
      { w₁ with rt := { w₁.rt with drHave := false, suppressAudio := !emit } } = (r, w₂)) :
    (advance env emit).run w = (r, { w₂ with rt := { w₂.rt with suppressAudio := false } }) := by
  have hcontent : ¬(w.rt.requiresContent ∧ !w.rt.contentLoaded) := by
    rintro ⟨hreq, hnot⟩
    simp [h.content hreq] at hnot
  unfold advance
  rw [get_bind_run, if_neg (by simp [h.backend]),
    if_neg (not_not_intro ⟨h.coreLoaded, h.coreType⟩), if_neg hcontent, run_bind_of_eq hcapture,
    update_bind_run, get_bind_run, run_bind_of_eq hframe]
  rfl

/-- `advance` is heard through the frame it runs, if its sound is asked for. -/
theorem advance_soundState {c : CorePtr} {σ : Type} {D : DrivenCore env.core c σ} (V : Voice D)
    {w : World κ β} (h : DrivenReady c w.rt) (emit : Bool) :
    soundState L ((advance env emit).run w).2 =
      (L.heard w.gpu ++ (if emit && w.rt.audible then
          V.sound (D.view w.core) (w.rt.input0, w.rt.input1) else []), w.rt.audible, c) := by
  obtain ⟨w₁, hcapture, hready₁, hprobe, -, h0, h1⟩ := captureRewind_ready env h
  have hkeep := run_of_triple (captureRewind_soundState L V h.instance_eq) (w := w) rfl
  rw [hcapture] at hkeep
  have hheard : L.heard w₁.gpu = L.heard w.gpu := congrArg Prod.fst hkeep
  have haudible : w₁.rt.audible = w.rt.audible := congrArg (fun g => g.2.1) hkeep
  -- The frame is run with the audio flag set.
  let w₂ : World κ β :=
    { w₁ with rt := { w₁.rt with drHave := false, suppressAudio := !emit } }
  have hready₂ : DrivenReady c w₂.rt := hready₁.audio _ _
  have hframe := callLoader_soundState L (·.runFrame env.core w₁.rt.input0 w₁.rt.input1 ·)
    (fun l k => l.runFrame_loader env.core k _ _) w₂
  have hsound : sounds (w₂.rt.loader.runFrame env.core w₁.rt.input0 w₁.rt.input1 w₂.core).calls =
      V.sound (D.view w.core) (w.rt.input0, w.rt.input1) := by
    rw [CoreLoader.runFrame, if_neg (by simp [hready₂.hasInstance]),
      if_neg (by simp [hready₂.runFrame]), hready₂.instance_eq, ← h0, ← h1, ← D.view_probed hprobe]
    exact V.runFrame w₁.core w₁.rt.input0 w₁.rt.input1
  rw [advance_run h emit hcapture rfl]
  refine hframe.trans ?_
  rw [hsound, hready₂.instance_eq]
  show (L.heard w₁.gpu ++ (if w₁.rt.audible && !!emit then _ else []), w₁.rt.audible, c) = _
  rw [hheard, haudible, Bool.not_not, Bool.and_comm]

end Runtime

end RetroPark
