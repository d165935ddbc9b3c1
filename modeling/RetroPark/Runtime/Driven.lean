import RetroPark.Runtime.Runtime
import RetroPark.Support.StateRun

/-!
# A loaded driven core as a deterministic machine

A netplay session sees the runtime through six methods: `set_input`, `advance`, `render`,
`serialize_size`, `save_state` and `load_state`. This module says what they do to a runtime that
holds a ready driven core.

* `SerializeCapable` and `DrivenCore` state what is assumed of the core: that it can always be
  serialized, and that it is a deterministic machine whose savestates capture its whole state;
* `Live D w s` relates a world to the state `s` of that machine, and the lemmas named after the
  methods say how each method moves `s`.
-/

namespace RetroPark

/-- A core whose instance `c` can always be serialized, at a size that asking for it does not
change. -/
structure SerializeCapable {κ : Type} (core : CoreEnv κ) (c : CorePtr) : Prop where
  size_pos : ∀ k, 0 < (core.serializeSize k c).value
  size_again : ∀ k, (core.serializeSize (core.serializeSize k c).core c).value =
    (core.serializeSize k c).value
  serialize_ok : ∀ k, (core.serialize k c (core.serializeSize k c).value).value.1 = .ok

/-- A deterministic driven core with faithful savestates. The instance `c` has a state in `σ`,
one frame is the function `step` of that state and the two port inputs, and serializing and
unserializing are total and inverse to each other on every state. -/
structure DrivenCore {κ : Type} (core : CoreEnv κ) (c : CorePtr) (σ : Type*) where
  /-- The state of the instance, read off the core side. -/
  view : κ → σ
  /-- One frame, given the inputs of port 0 and port 1. -/
  step : σ → InputState × InputState → σ
  /-- The serialized form of a state. -/
  enc : σ → Blob
  enc_pos : ∀ s, 0 < (enc s).length
  runFrame_view : ∀ k i₀ i₁, view (core.runFrame k c i₀ i₁).core = step (view k) (i₀, i₁)
  serializeSize_value : ∀ k, (core.serializeSize k c).value = (enc (view k)).length
  serializeSize_view : ∀ k, view (core.serializeSize k c).core = view k
  serialize_ok : ∀ k, (core.serialize k c (enc (view k)).length).value.1 = .ok
  serialize_blob : ∀ k, (core.serialize k c (enc (view k)).length).value.2 = enc (view k)
  serialize_view : ∀ k n, view (core.serialize k c n).core = view k
  unserialize_ok : ∀ k s, (core.unserialize k c (enc s)).value = .ok
  unserialize_view : ∀ k s, view (core.unserialize k c (enc s)).core = s

/-- A driven core with faithful savestates can save. -/
theorem DrivenCore.serializeCapable {κ : Type} {core : CoreEnv κ} {c : CorePtr} {σ : Type*}
    (D : DrivenCore core c σ) : SerializeCapable core c where
  size_pos k := by
    rw [D.serializeSize_value]
    exact D.enc_pos _
  size_again k := by
    rw [D.serializeSize_value, D.serializeSize_view, D.serializeSize_value]
  serialize_ok k := by
    rw [D.serializeSize_value]
    exact D.serialize_ok k

/-- The core side `k'` is reached from `k` by asking instance `c` for its size and its serialized
state, which a faithful core answers without moving. -/
inductive Probed {κ : Type} (core : CoreEnv κ) (c : CorePtr) : κ → κ → Prop
  | refl {k : κ} : Probed core c k k
  | size {k k' : κ} (h : Probed core c k k') : Probed core c k (core.serializeSize k' c).core
  | save {k k' : κ} (n : ℕ) (h : Probed core c k k') : Probed core c k (core.serialize k' c n).core

/-- Probes after probes are probes. -/
theorem Probed.trans {κ : Type} {core : CoreEnv κ} {c : CorePtr} {k k' k'' : κ}
    (h : Probed core c k k') (h' : Probed core c k' k'') : Probed core c k k'' := by
  induction h' with
  | refl => exact h
  | size _ ih => exact .size ih
  | save n _ ih => exact .save n ih

/-- Probes do not change the state of the core. -/
theorem DrivenCore.view_probed {κ : Type} {core : CoreEnv κ} {c : CorePtr} {σ : Type*}
    (D : DrivenCore core c σ) {k k' : κ} (h : Probed core c k k') : D.view k' = D.view k := by
  induction h with
  | refl => rfl
  | size _ ih => rw [D.serializeSize_view, ih]
  | save n _ ih => rw [D.serialize_view, ih]

namespace CoreLoader

/-- A loader with an entry point of its table set has a table. -/
theorem isSome_of_serializeSize {l : CoreLoader} (h : l.table.serializeSize = true) :
    l.abi.isSome = true := by
  cases habi : l.abi with
  | none => simp [table, habi, default] at h
  | some _ => rfl

end CoreLoader

/-- The runtime holds a driven core with its content, whose instance is `c` and whose table has
the entry points a session needs. -/
structure DrivenReady (c : CorePtr) (rt : Runtime) : Prop where
  backend : rt.backend = true
  coreLoaded : rt.coreLoaded = true
  coreType : rt.coreType = .driven
  content : rt.requiresContent = true → rt.contentLoaded = true
  instance_eq : rt.loader.core = c
  hasInstance : rt.loader.hasInstance = true
  runFrame : rt.loader.table.runFrame = true
  serializeSize : rt.loader.table.serializeSize = true
  serialize : rt.loader.table.serialize = true
  unserialize : rt.loader.table.unserialize = true

/-- Readiness does not depend on what a callback may write. -/
theorem DrivenReady.congr {c : CorePtr} {rt rt' : Runtime} (h : DrivenReady c rt)
    (heq : rt'.steady = rt.steady) : DrivenReady c rt' := by
  have hl : rt'.loader = rt.loader := (congrArg Runtime.loader heq :)
  exact
    { backend := (congrArg Runtime.backend heq).trans h.backend
      coreLoaded := (congrArg Runtime.coreLoaded heq).trans h.coreLoaded
      coreType := (congrArg Runtime.coreType heq).trans h.coreType
      content := fun hr => (congrArg Runtime.contentLoaded heq).trans
        (h.content ((congrArg Runtime.requiresContent heq).symm.trans hr))
      instance_eq := hl ▸ h.instance_eq
      hasInstance := hl ▸ h.hasInstance
      runFrame := hl ▸ h.runFrame
      serializeSize := hl ▸ h.serializeSize
      serialize := hl ▸ h.serialize
      unserialize := hl ▸ h.unserialize }

/-- Readiness does not depend on the rewind state. -/
theorem DrivenReady.rewind {c : CorePtr} {rt : Runtime} (h : DrivenReady c rt) (ring : List Blob)
    (replay : Bool) : DrivenReady c { rt with rewindRing := ring, rewindReplay := replay } :=
  ⟨h.1, h.2, h.3, h.4, h.5, h.6, h.7, h.8, h.9, h.10⟩

/-- Readiness does not depend on the delivery flags of the frame about to run. -/
theorem DrivenReady.audio {c : CorePtr} {rt : Runtime} (h : DrivenReady c rt)
    (have_ suppress : Bool) :
      DrivenReady c { rt with drHave := have_, suppressAudio := suppress } :=
  ⟨h.1, h.2, h.3, h.4, h.5, h.6, h.7, h.8, h.9, h.10⟩

/-- The pause flag and the inputs are steady. -/
theorem Runtime.steady_inputs {rt rt' : Runtime} (h : rt'.steady = rt.steady) :
    rt'.paused = rt.paused ∧ rt'.input0 = rt.input0 ∧ rt'.input1 = rt.input1 :=
  ⟨(congrArg Runtime.paused h :), (congrArg Runtime.input0 h :), (congrArg Runtime.input1 h :)⟩

namespace Runtime

variable {κ β : Type} (env : Env κ β) {c : CorePtr}

/-- A loader method that leaves the loader as it is changes only the core side and what callbacks
write. -/
theorem callLoader_steady {α : Type} (f : CoreLoader → κ → LoaderOutcome κ α) (w : World κ β)
    (hl : (f w.rt.loader w.core).loader = w.rt.loader) :
    ∃ w', (callLoader env f).run w = ((f w.rt.loader w.core).value, w') ∧
      w'.core = (f w.rt.loader w.core).core ∧ w'.rt.steady = w.rt.steady := by
  have hcalls := hostCalls_steady env (f w.rt.loader w.core).calls
    { w with
      rt := { w.rt with loader := (f w.rt.loader w.core).loader }
      core := (f w.rt.loader w.core).core
      log := ((f w.rt.loader w.core).trace.map Event.abi).reverse ++ w.log }
  refine ⟨_, rfl, hcalls.1, hcalls.2.trans ?_⟩
  rw [hl]

/-! ### Running a method step by step -/

/-- A sequence runs its second part from where the first one ends. -/
theorem run_bind_of_eq {α γ : Type} {m : RuntimeM κ β α} {f : α → RuntimeM κ β γ} {a : α}
    {w w' : World κ β} (h : m.run w = (a, w')) : (m >>= f).run w = (f a).run w' :=
  StateM.run_bind_of_eq h

/-- Reading the state changes nothing. -/
theorem get_bind_run {γ : Type} (f : World κ β → RuntimeM κ β γ) (w : World κ β) :
    (get >>= f).run w = (f w).run w := rfl

/-- An update changes the runtime. -/
theorem update_bind_run {γ : Type} (g : Runtime → Runtime) (f : Unit → RuntimeM κ β γ)
    (w : World κ β) : (update g >>= f).run w = (f ()).run { w with rt := g w.rt } := rfl

/-! ### The loader calls of a ready core -/

section Ready

variable {w : World κ β}

/-- `set_input` on a ready core sets the input of one port. -/
theorem setInput_ready (h : DrivenReady c w.rt) (port : UInt32) (input : InputState) :
    ∃ w', (setInput port input).run w = ((), w') ∧ DrivenReady c w'.rt ∧ w'.core = w.core ∧
      w'.rt.paused = w.rt.paused ∧
      w'.rt.input0 = (if port &&& 1 = 0 then input else w.rt.input0) ∧
      w'.rt.input1 = (if port &&& 1 = 0 then w.rt.input1 else input) := by
  refine ⟨_, rfl, ?_⟩
  change DrivenReady c (if port &&& 1 = 0 then _ else _) ∧ w.core = w.core ∧
    (if port &&& 1 = 0 then _ else _ : Runtime).paused = _ ∧
    (if port &&& 1 = 0 then _ else _ : Runtime).input0 = _ ∧
    (if port &&& 1 = 0 then _ else _ : Runtime).input1 = _
  split_ifs
  · exact ⟨⟨h.1, h.2, h.3, h.4, h.5, h.6, h.7, h.8, h.9, h.10⟩, rfl, rfl, rfl, rfl⟩
  · exact ⟨⟨h.1, h.2, h.3, h.4, h.5, h.6, h.7, h.8, h.9, h.10⟩, rfl, rfl, rfl, rfl⟩

/-- A ready core answers with the size of its savestates. -/
theorem serializeSize_ready (h : DrivenReady c w.rt) :
    ∃ w', (callLoader env (·.serializeSize env.core ·)).run w =
        ((env.core.serializeSize w.core c).value, w') ∧
      w'.rt.steady = w.rt.steady ∧ w'.core = (env.core.serializeSize w.core c).core := by
  have hout : w.rt.loader.serializeSize env.core w.core =
      { value := (env.core.serializeSize w.core c).value, loader := w.rt.loader
        core := (env.core.serializeSize w.core c).core
        calls := (env.core.serializeSize w.core c).calls, trace := [.serializeSize c] } := by
    have habi : w.rt.loader.abi.isNone = false := by
      simpa using CoreLoader.isSome_of_serializeSize h.serializeSize
    simp [CoreLoader.serializeSize, h.hasInstance, habi, h.serializeSize, h.instance_eq]
  obtain ⟨w', hrun, hcore, hrt⟩ :=
    callLoader_steady env (·.serializeSize env.core ·) w (by rw [hout])
  rw [hout] at hrun hcore
  exact ⟨w', hrun, hrt, hcore⟩

/-- A ready core answers with its savestate. -/
theorem serialize_ready (h : DrivenReady c w.rt) (n : ℕ) :
    ∃ w', (callLoader env (·.serialize env.core n ·)).run w =
        ((env.core.serialize w.core c n).value, w') ∧
      w'.rt.steady = w.rt.steady ∧ w'.core = (env.core.serialize w.core c n).core := by
  have hout : w.rt.loader.serialize env.core n w.core =
      { value := (env.core.serialize w.core c n).value, loader := w.rt.loader
        core := (env.core.serialize w.core c n).core
        calls := (env.core.serialize w.core c n).calls
        trace := [.serialize c (env.core.serialize w.core c n).value.1] } := by
    simp [CoreLoader.serialize, h.hasInstance, h.serialize, h.instance_eq]
  obtain ⟨w', hrun, hcore, hrt⟩ :=
    callLoader_steady env (·.serialize env.core n ·) w (by rw [hout])
  rw [hout] at hrun hcore
  exact ⟨w', hrun, hrt, hcore⟩

/-- A ready core runs a frame. -/
theorem runFrame_ready (h : DrivenReady c w.rt) (i₀ i₁ : InputState) :
    ∃ w', (callLoader env (·.runFrame env.core i₀ i₁ ·)).run w = (.ok, w') ∧
      w'.rt.steady = w.rt.steady ∧ w'.core = (env.core.runFrame w.core c i₀ i₁).core := by
  have hout : w.rt.loader.runFrame env.core i₀ i₁ w.core =
      { value := .ok, loader := w.rt.loader
        core := (env.core.runFrame w.core c i₀ i₁).core
        calls := (env.core.runFrame w.core c i₀ i₁).calls, trace := [.runFrame c i₀ i₁] } := by
    simp [CoreLoader.runFrame, h.hasInstance, h.runFrame, h.instance_eq]
  obtain ⟨w', hrun, hcore, hrt⟩ :=
    callLoader_steady env (·.runFrame env.core i₀ i₁ ·) w (by rw [hout])
  rw [hout] at hrun hcore
  exact ⟨w', hrun, hrt, hcore⟩

/-- A ready core answers to a savestate it is given. -/
theorem unserialize_ready (h : DrivenReady c w.rt) (data : Blob) :
    ∃ w', (callLoader env (·.unserialize env.core data ·)).run w =
        ((env.core.unserialize w.core c data).value, w') ∧
      w'.rt.steady = w.rt.steady ∧ w'.core = (env.core.unserialize w.core c data).core := by
  have hout : w.rt.loader.unserialize env.core data w.core =
      { value := (env.core.unserialize w.core c data).value, loader := w.rt.loader
        core := (env.core.unserialize w.core c data).core
        calls := (env.core.unserialize w.core c data).calls
        trace := [.unserialize c (env.core.unserialize w.core c data).value] } := by
    simp [CoreLoader.unserialize, h.hasInstance, h.unserialize, h.instance_eq]
  obtain ⟨w', hrun, hcore, hrt⟩ :=
    callLoader_steady env (·.unserialize env.core data ·) w (by rw [hout])
  rw [hout] at hrun hcore
  exact ⟨w', hrun, hrt, hcore⟩

/-- `load_state` on a ready core gives it the state. -/
theorem loadState_ready (h : DrivenReady c w.rt) {data : Blob} (hdata : 0 < data.length) :
    ∃ w', (loadState env data).run w = ((env.core.unserialize w.core c data).value, w') ∧
      w'.rt.steady = w.rt.steady ∧ w'.core = (env.core.unserialize w.core c data).core := by
  obtain ⟨w', hrun, hrest⟩ := unserialize_ready env h data
  exact ⟨w', by simpa [loadState, hdata.ne'] using hrun, hrest⟩

/-! ### The methods a session calls -/

/-- The capture of a rewind snapshot only probes the core and moves the snapshot ring. -/
theorem captureRewind_ready (h : DrivenReady c w.rt) :
    ∃ w', (captureRewind env).run w = ((), w') ∧ DrivenReady c w'.rt ∧
      Probed env.core c w.core w'.core ∧ w'.rt.paused = w.rt.paused ∧
      w'.rt.input0 = w.rt.input0 ∧ w'.rt.input1 = w.rt.input1 := by
  unfold captureRewind
  rw [get_bind_run]
  -- A replayed frame is not captured again.
  by_cases hreplay : w.rt.rewindReplay
  · rw [if_pos hreplay]
    exact ⟨_, rfl, h.rewind _ _, .refl, rfl, rfl, rfl⟩
  rw [if_neg hreplay, get_bind_run]
  by_cases hon : w.rt.rewindEnabled
  · rw [if_pos hon]
    obtain ⟨w₁, hrun₁, hrt₁, hcore₁⟩ := serializeSize_ready env h
    have hprobe₁ : Probed env.core c w.core w₁.core := hcore₁ ▸ .size .refl
    rw [run_bind_of_eq hrun₁]
    by_cases hsize : 0 < (env.core.serializeSize w.core c).value
    · rw [if_pos hsize]
      obtain ⟨w₂, hrun₂, hrt₂, hcore₂⟩ := serialize_ready env (h.congr hrt₁)
        (env.core.serializeSize w.core c).value
      have hrt := hrt₂.trans hrt₁
      have hprobe₂ : Probed env.core c w.core w₂.core := hcore₂ ▸ .save _ hprobe₁
      have hsame := steady_inputs hrt
      rw [run_bind_of_eq hrun₂]
      by_cases hok : (env.core.serialize w₁.core c
          (env.core.serializeSize w.core c).value).value.1 = .ok
      · simp only [hok, if_true]
        exact ⟨_, rfl, (h.congr hrt).rewind _ _, hprobe₂, hsame⟩
      · simp only [hok, if_false]
        exact ⟨_, rfl, h.congr hrt, hprobe₂, hsame⟩
    · rw [if_neg hsize]
      exact ⟨_, rfl, h.congr hrt₁, hprobe₁, steady_inputs hrt₁⟩
  · rw [if_neg hon]
    exact ⟨_, rfl, h, .refl, rfl, rfl, rfl⟩

/-- `advance` runs the core for exactly one frame on the inputs set last. -/
theorem advance_ready (h : DrivenReady c w.rt) (emit : Bool) :
    ∃ w' k, (advance env emit).run w = (.ok, w') ∧ DrivenReady c w'.rt ∧
      w'.rt.paused = w.rt.paused ∧ Probed env.core c w.core k ∧
      w'.core = (env.core.runFrame k c w.rt.input0 w.rt.input1).core := by
  obtain ⟨w₁, hrun₁, hready₁, hprobe, hpaused, h0, h1⟩ := captureRewind_ready env h
  let w₂ : World κ β :=
    { w₁ with rt := { w₁.rt with drHave := false, suppressAudio := !emit } }
  have hready₂ : DrivenReady c w₂.rt := hready₁.audio _ _
  obtain ⟨w₃, hrun₃, hrt₃, hcore₃⟩ :=
    runFrame_ready env hready₂ w₂.rt.input0 w₂.rt.input1
  refine ⟨{ w₃ with rt := { w₃.rt with suppressAudio := false } }, w₁.core, ?_, ?_, ?_, hprobe, ?_⟩
  · unfold advance
    -- A ready core has the content it requires.
    have hcontent : ¬(w.rt.requiresContent ∧ !w.rt.contentLoaded) := by
      rintro ⟨hreq, hnot⟩
      simp [h.content hreq] at hnot
    rw [get_bind_run, if_neg (by simp [h.backend]),
      if_neg (not_not_intro ⟨h.coreLoaded, h.coreType⟩), if_neg hcontent, run_bind_of_eq hrun₁,
      update_bind_run, get_bind_run, run_bind_of_eq hrun₃]
    rfl
  · exact (hready₂.congr hrt₃).audio _ _
  · exact (congrArg Runtime.paused hrt₃ :).trans hpaused
  · rw [hcore₃]
    change (env.core.runFrame w₁.core c w₁.rt.input0 w₁.rt.input1).core = _
    rw [h0, h1]

/-- `save_state` into a buffer of the core's own size succeeds. -/
theorem saveState_ready (h : DrivenReady c w.rt) (hcap : SerializeCapable env.core c) {size : ℕ}
    (hsize : (env.core.serializeSize w.core c).value = size) :
    ∃ w', (saveState env true size).run w =
        ((.ok, (env.core.serialize (env.core.serializeSize w.core c).core c size).value.2), w') ∧
      DrivenReady c w'.rt ∧ w'.rt.paused = w.rt.paused ∧ Probed env.core c w.core w'.core := by
  obtain ⟨w₁, hrun₁, hrt₁, hcore₁⟩ := serializeSize_ready env h
  obtain ⟨w₂, hrun₂, hrt₂, hcore₂⟩ := serialize_ready env (h.congr hrt₁) size
  have hpos : 0 < size := hsize ▸ hcap.size_pos w.core
  have hrt := hrt₂.trans hrt₁
  refine ⟨w₂, ?_, h.congr hrt, (steady_inputs hrt).1, ?_⟩
  · have hok := hcap.serialize_ok (env.core.serializeSize w.core c).core
    rw [hcap.size_again, hsize] at hok
    unfold saveState
    rw [if_neg (by simp), run_bind_of_eq hrun₁, hsize, if_neg hpos.ne', if_neg (lt_irrefl _), hrun₂,
      hcore₁, ← hok]
  · rw [hcore₂, hcore₁]
    exact .save _ (.size .refl)

/-- `render` shows a frame and touches nothing but the device. -/
theorem render_ready (h : DrivenReady c w.rt) (wantPixels : Bool) :
    ∃ r w', (render env wantPixels).run w = (r, w') ∧ w'.rt = w.rt ∧ w'.core = w.core := by
  have hdriven : (render env wantPixels).run w = (renderDriven env wantPixels).run w := by
    unfold render
    rw [get_bind_run, if_neg (by simp [h.backend]), if_pos ⟨h.coreLoaded, h.coreType⟩]
  rw [hdriven]
  unfold renderDriven
  rw [get_bind_run]
  by_cases hgl : (w.rt.drIsGl && w.rt.drHave) = true
  · rw [if_pos hgl]
    exact ⟨_, _, rfl, rfl, rfl⟩
  · rw [if_neg hgl]
    exact ⟨_, _, rfl, rfl, rfl⟩

/-- `present` on a core that is not paused is `advance` followed by `render`. -/
theorem present_ready (h : DrivenReady c w.rt) (hpaused : w.rt.paused = false)
    (wantPixels : Bool) :
    ∃ r w' k, (present env wantPixels).run w = (r, w') ∧ DrivenReady c w'.rt ∧
      w'.rt.paused = false ∧ Probed env.core c w.core k ∧
      w'.core = (env.core.runFrame k c w.rt.input0 w.rt.input1).core := by
  obtain ⟨w₁, k, hrun₁, hready₁, hpaused₁, hprobe, hcore₁⟩ := advance_ready env h true
  obtain ⟨r, w₂, hrun₂, hrt₂, hcore₂⟩ := render_ready env hready₁ wantPixels
  refine ⟨r, w₂, k, ?_, hrt₂ ▸ hready₁, ?_, hprobe, hcore₂.trans hcore₁⟩
  · unfold present
    rw [get_bind_run, if_pos ⟨h.coreLoaded, h.coreType, by simp [hpaused]⟩, run_bind_of_eq hrun₁,
      if_neg (not_not_intro rfl), hrun₂]
  · rw [hrt₂, hpaused₁, hpaused]

end Ready

/-! ### The runtime as a state of the core -/

/-- The runtime holds the ready core `D`, and the core is in state `s`. -/
structure Live {σ : Type*} (D : DrivenCore env.core c σ) (w : World κ β) (s : σ) : Prop where
  ready : DrivenReady c w.rt
  view : D.view w.core = s

section Live

variable {env} {σ : Type*} {D : DrivenCore env.core c σ} {w : World κ β} {s : σ}

/-- A live core that loads a savestate is in its state. -/
theorem Live.loadState (h : Live env D w s) (s' : σ) :
    ∃ w', (loadState env (D.enc s')).run w = (.ok, w') ∧ Live env D w' s' := by
  obtain ⟨w', hrun, hrt, hcore⟩ := loadState_ready env h.ready (D.enc_pos s')
  refine ⟨w', ?_, h.ready.congr hrt, ?_⟩
  · rw [hrun, D.unserialize_ok]
  · rw [hcore, D.unserialize_view]

/-- A render leaves the state of a live core alone. -/
theorem Live.render (h : Live env D w s) (wantPixels : Bool) :
    ∃ r w', (render env wantPixels).run w = (r, w') ∧ Live env D w' s := by
  obtain ⟨r, w', hrun, hrt, hcore⟩ := render_ready env h.ready wantPixels
  exact ⟨r, w', hrun, hrt ▸ h.ready, hcore ▸ h.view⟩

/-- Setting both ports puts the local and the remote input in their seats. -/
theorem Live.setInputs (h : Live env D w s) {localPort remotePort : UInt32}
    (hseat : (localPort = 0 ∧ remotePort = 1) ∨ (localPort = 1 ∧ remotePort = 0))
    (lin rin : InputState) :
    ∃ w', ((setInput remotePort rin).run ((setInput localPort lin).run w).2).2 = w' ∧
      Live env D w' s ∧ w'.rt.paused = w.rt.paused ∧
      (w'.rt.input0, w'.rt.input1) = if localPort &&& 1 = 0 then (lin, rin) else (rin, lin) := by
  obtain ⟨w₁, hrun₁, hready₁, hcore₁, hpaused₁, h0, h1⟩ := setInput_ready h.ready localPort lin
  obtain ⟨w₂, hrun₂, hready₂, hcore₂, hpaused₂, h0', h1'⟩ :=
    setInput_ready hready₁ remotePort rin
  refine ⟨w₂, by rw [hrun₁, hrun₂], ⟨hready₂, by rw [hcore₂, hcore₁, h.view]⟩,
    hpaused₂.trans hpaused₁, ?_⟩
  rw [h0', h1', h0, h1]
  rcases hseat with ⟨hl, hr⟩ | ⟨hl, hr⟩ <;> simp [hl, hr]

/-- Asking for the size and saving into a buffer of that size yields the serialized state. -/
theorem Live.snapshot (h : Live env D w s) :
    ∃ w₁ w₂, (serializeSize env).run w = ((D.enc s).length, w₁) ∧
      (saveState env true (D.enc s).length).run w₁ = ((.ok, D.enc s), w₂) ∧
      Live env D w₂ s ∧ w₂.rt.paused = w.rt.paused := by
  obtain ⟨w₁, hrun₁, hrt₁, hcore₁⟩ := serializeSize_ready env h.ready
  have hview₁ : D.view w₁.core = s := by rw [hcore₁, D.serializeSize_view, h.view]
  have hsize : (env.core.serializeSize w₁.core c).value = (D.enc s).length := by
    rw [D.serializeSize_value, hview₁]
  obtain ⟨w₂, hrun₂, hready₂, hpaused₂, hprobe₂⟩ :=
    saveState_ready env (h.ready.congr hrt₁) D.serializeCapable hsize
  refine ⟨w₁, w₂, ?_, ?_, ⟨hready₂, (D.view_probed hprobe₂).trans hview₁⟩,
    hpaused₂.trans (steady_inputs hrt₁).1⟩
  · rw [← h.view, ← D.serializeSize_value]
    exact hrun₁
  · rw [hrun₂]
    have hblob := D.serialize_blob (env.core.serializeSize w₁.core c).core
    rw [D.serializeSize_view, hview₁] at hblob
    rw [hblob]

/-- A live core that advances makes one step. -/
theorem Live.advance (h : Live env D w s) (emit : Bool) :
    ∃ w', (advance env emit).run w = (.ok, w') ∧
      Live env D w' (D.step s (w.rt.input0, w.rt.input1)) := by
  obtain ⟨w', k, hrun, hready, -, hprobe, hcore⟩ := advance_ready env h.ready emit
  refine ⟨w', hrun, hready, ?_⟩
  rw [hcore, D.runFrame_view, D.view_probed hprobe, h.view]

/-- `present` steps the core unless the runtime is paused. -/
theorem Live.present (h : Live env D w s) (wantPixels : Bool) :
    ∃ r w', (present env wantPixels).run w = (r, w') ∧
      Live env D w' (if w.rt.paused then s else D.step s (w.rt.input0, w.rt.input1)) ∧
      w'.rt.paused = w.rt.paused := by
  cases hpaused : w.rt.paused with
  | false =>
    obtain ⟨r, w', k, hrun, hready, hpaused', hprobe, hcore⟩ :=
      present_ready env h.ready hpaused wantPixels
    refine ⟨r, w', hrun, ⟨hready, ?_⟩, hpaused'⟩
    rw [hcore, D.runFrame_view, D.view_probed hprobe, h.view]
    rfl
  | true =>
    obtain ⟨r, w', hrun, hrt, hcore⟩ := render_ready env h.ready wantPixels
    refine ⟨r, w', ?_, ⟨hrt ▸ h.ready, hcore ▸ h.view⟩, by rw [hrt, hpaused]⟩
    unfold Runtime.present
    rw [get_bind_run, if_neg (by simp [hpaused]), hrun]

end Live

end Runtime

end RetroPark
