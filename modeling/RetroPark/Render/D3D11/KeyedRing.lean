import RetroPark.Runtime.Runtime
import RetroPark.Support.Machine
import Mathlib.Logic.Function.Basic
import Mathlib.Tactic.SplitIfs

/-!
# The keyed-mutex ring of the D3D11 backend

The core and the host take turns on a slot through its keyed mutex: `RefCore::loop` acquires it with
key 0 and releases it with key 1, `composite_and_present` acquires it with key 1 and releases it
with key 0. An acquire that does not find its key times out. `machine` interleaves the two threads
between two reallocations of the surfaces; a core that stalls is a core that takes no step.

* `Inv` relates the mutexes to where the two threads are and to how often each slot has been
  released by the core and composited by the host;
* `renderRing_present` connects the look-up of a present with `Runtime`;
* `presents_shown_iff` says which runs show the frame of every present.
-/

namespace RetroPark.D3D11

/-- An `IDXGIKeyedMutex`. -/
inductive KeyedMutex
  /-- Nobody holds it, and it was released with `key`. -/
  | unheld (key : Fin 2)
  | held
  deriving DecidableEq, Repr

namespace KeyedMutex

/-- `AcquireSync`, or `none` when it times out. -/
def acquireSync (m : KeyedMutex) (key : Fin 2) : Option KeyedMutex :=
  if m = .unheld key then some .held else none

/-- `ReleaseSync`. -/
def releaseSync (key : Fin 2) : KeyedMutex := .unheld key

end KeyedMutex

variable {N : ℕ}

/-- Where `RefCore::loop` is. -/
inductive Loop (N : ℕ)
  | top
  /-- The mutex of the slot has been acquired. -/
  | drawing (slot : Fin N)
  /-- The mutex of the slot has been released, and the frame has not been submitted. -/
  | submitting (slot : Fin N)
  deriving DecidableEq, Repr

/-- Where the host's thread is. -/
inductive Host (N : ℕ)
  | idle
  /-- `composite_and_present` has been called with a frame in the slot. -/
  | acquiring (slot : Fin N)
  /-- The mutex of the slot has been acquired. -/
  | compositing (slot : Fin N)
  deriving DecidableEq, Repr

/-- A present that has returned. -/
structure Present where
  /-- The slot that `latest_ready` or the paused cache named. -/
  target : Option ℕ
  composited : Option ℕ
  result : RpResult
  deriving DecidableEq, Repr

/-- The state shared by the core and the host. -/
structure KeyedRing (N : ℕ) where
  ring : SurfaceRing
  keyed : Fin N → KeyedMutex := fun _ => .unheld 0
  cursor : Fin N
  loop : Loop N := .top
  host : Host N := .idle
  paused : Bool := false
  /-- The slot and sync value the runtime keeps for presents while paused. -/
  lastReady : Option (ℕ × ℕ) := none
  /-- The number of frames the core has released in each slot. -/
  released : Fin N → ℕ := fun _ => 0
  /-- The number of presents that have composited each slot. -/
  composited : Fin N → ℕ := fun _ => 0
  /-- The presents that have returned, the last one first. -/
  presents : List Present := []

/-- A step of the core's thread or of the host's. -/
inductive Action
  /-- The acquire of `loop`, whether it succeeds or times out. -/
  | acquire
  | release
  | submit
  /-- `render` looks up the frame and calls `composite_and_present`. -/
  | present
  /-- The acquire of `composite_and_present`, whether it succeeds or times out. -/
  | lock
  /-- The composite, the release and the return. -/
  | unlock
  | pause
  | resume
  deriving DecidableEq, Repr

namespace KeyedRing

/-- The slot and sync value a present composites. -/
def target (s : KeyedRing N) : Option (ℕ × ℕ) :=
  if s.paused then s.lastReady else s.ring.latestReady

/-- The slot after the cursor. -/
def nextCursor (cursor : Fin N) : Fin N :=
  ⟨(cursor.val + 1) % N, Nat.mod_lt _ (Nat.lt_of_le_of_lt (Nat.zero_le _) cursor.isLt)⟩

/-- One acquire of `loop`: a slot whose mutex is not to be had is skipped. -/
def stepAcquire (s : KeyedRing N) : KeyedRing N :=
  match (s.keyed s.cursor).acquireSync 0 with
  | some m =>
      { s with
        cursor := nextCursor s.cursor
        keyed := Function.update s.keyed s.cursor m
        loop := .drawing s.cursor }
  | none => { s with cursor := nextCursor s.cursor }

/-- The frame in the slot is complete. -/
def stepRelease (s : KeyedRing N) (slot : Fin N) : KeyedRing N :=
  { s with
    keyed := Function.update s.keyed slot (.releaseSync 1)
    released := Function.update s.released slot (s.released slot + 1)
    loop := .submitting slot }

/-- `submit_frame`, with the generation the slot was opened with. -/
def stepSubmit (s : KeyedRing N) (slot : Fin N) : KeyedRing N :=
  { s with ring := (s.ring.acceptSubmit slot s.ring.generation 0).2, loop := .top }

/-- `render` up to the acquire. With no frame, or with no such surface, nothing is acquired. -/
def stepPresent (s : KeyedRing N) : KeyedRing N :=
  match s.target with
  | none => { s with presents := ⟨none, none, .ok⟩ :: s.presents }
  | some t =>
      if h : t.1 < N then { s with lastReady := some t, host := .acquiring ⟨t.1, h⟩ }
      else { s with lastReady := some t, presents := ⟨some t.1, none, .ok⟩ :: s.presents }

/-- The acquire of `composite_and_present`. -/
def stepLock (s : KeyedRing N) (slot : Fin N) : KeyedRing N :=
  match (s.keyed slot).acquireSync 1 with
  | some m => { s with keyed := Function.update s.keyed slot m, host := .compositing slot }
  | none => { s with host := .idle, presents := ⟨some slot, none, .timeout⟩ :: s.presents }

/-- The composite has been drawn, and the slot is the core's again. -/
def stepUnlock (s : KeyedRing N) (slot : Fin N) : KeyedRing N :=
  { s with
    keyed := Function.update s.keyed slot (.releaseSync 0)
    composited := Function.update s.composited slot (s.composited slot + 1)
    host := .idle
    presents := ⟨some slot, some slot, .ok⟩ :: s.presents }

/-- The transition function. -/
def step (s : KeyedRing N) : Action → Option (KeyedRing N)
  | .acquire => if s.loop = .top then some s.stepAcquire else none
  | .release =>
      match s.loop with
      | .drawing slot => some (s.stepRelease slot)
      | _ => none
  | .submit =>
      match s.loop with
      | .submitting slot => some (s.stepSubmit slot)
      | _ => none
  | .present => if s.host = .idle then some s.stepPresent else none
  | .lock =>
      match s.host with
      | .acquiring slot => some (s.stepLock slot)
      | _ => none
  | .unlock =>
      match s.host with
      | .compositing slot => some (s.stepUnlock slot)
      | _ => none
  | .pause => if s.host = .idle then some { s with paused := true } else none
  | .resume => if s.host = .idle then some { s with paused := false } else none

/-- The machine of the two threads. -/
def machine (N : ℕ) : Machine (KeyedRing N) Action := ⟨step⟩

/-- The surfaces have been handed to the core, and nothing has been drawn. -/
def init (hN : 0 < N) (width height : UInt32) (generation : ℕ) : KeyedRing N :=
  { ring := { slotCount := N, width, height, generation }, cursor := ⟨0, hN⟩ }

/-- Who has the slot, and how often it has been released and composited. -/
inductive Owned (s : KeyedRing N) (i : Fin N) : Prop
  | empty (hkeyed : s.keyed i = .unheld 0) (hloop : s.loop ≠ .drawing i)
      (hhost : s.host ≠ .compositing i) (hcount : s.released i = s.composited i)
  | drawing (hkeyed : s.keyed i = .held) (hloop : s.loop = .drawing i)
      (hhost : s.host ≠ .compositing i) (hcount : s.released i = s.composited i)
  | full (hkeyed : s.keyed i = .unheld 1) (hloop : s.loop ≠ .drawing i)
      (hhost : s.host ≠ .compositing i) (hcount : s.released i = s.composited i + 1)
  | compositing (hkeyed : s.keyed i = .held) (hloop : s.loop ≠ .drawing i)
      (hhost : s.host = .compositing i) (hcount : s.released i = s.composited i + 1)

/-- What holds between any two steps. -/
structure Inv (s : KeyedRing N) : Prop where
  slotCount : s.ring.slotCount = N
  latest_lt : ∀ t, s.ring.latestReady = some t → t.1 < N
  lastReady_lt : ∀ t, s.lastReady = some t → t.1 < N
  owned : ∀ i, s.Owned i

variable {s s' : KeyedRing N} {i slot : Fin N}

/-- What the core's loop does when it acquires a slot, or gives up. -/
theorem step_acquire (h : s.step .acquire = some s') : s.loop = .top ∧ s' = s.stepAcquire := by
  simp only [step] at h
  split_ifs at h with hloop
  exact ⟨hloop, (Option.some.inj h).symm⟩

/-- What the core's loop does when it has drawn its frame. -/
theorem step_release (h : s.step .release = some s') :
    ∃ slot, s.loop = .drawing slot ∧ s' = s.stepRelease slot := by
  simp only [step] at h
  split at h
  · exact ⟨_, ‹_›, (Option.some.inj h).symm⟩
  · cases h

/-- What the core's loop does when it reports its frame. -/
theorem step_submit (h : s.step .submit = some s') :
    ∃ slot, s.loop = .submitting slot ∧ s' = s.stepSubmit slot := by
  simp only [step] at h
  split at h
  · exact ⟨_, ‹_›, (Option.some.inj h).symm⟩
  · cases h

/-- What the host does when it looks up the frame to present. -/
theorem step_present (h : s.step .present = some s') : s.host = .idle ∧ s' = s.stepPresent := by
  simp only [step] at h
  split_ifs at h with hhost
  exact ⟨hhost, (Option.some.inj h).symm⟩

/-- What the host does when it acquires the slot, or times out. -/
theorem step_lock (h : s.step .lock = some s') :
    ∃ slot, s.host = .acquiring slot ∧ s' = s.stepLock slot := by
  simp only [step] at h
  split at h
  · exact ⟨_, ‹_›, (Option.some.inj h).symm⟩
  · cases h

/-- What the host does when it has composited the slot. -/
theorem step_unlock (h : s.step .unlock = some s') :
    ∃ slot, s.host = .compositing slot ∧ s' = s.stepUnlock slot := by
  simp only [step] at h
  split at h
  · exact ⟨_, ‹_›, (Option.some.inj h).symm⟩
  · cases h

/-- The host pauses between two presents. -/
theorem step_pause (h : s.step .pause = some s') :
    s.host = .idle ∧ s' = { s with paused := true } := by
  simp only [step] at h
  split_ifs at h with hhost
  exact ⟨hhost, (Option.some.inj h).symm⟩

/-- The host resumes between two presents. -/
theorem step_resume (h : s.step .resume = some s') :
    s.host = .idle ∧ s' = { s with paused := false } := by
  simp only [step] at h
  split_ifs at h with hhost
  exact ⟨hhost, (Option.some.inj h).symm⟩

/-- The core acquires a slot with key 0. -/
theorem stepAcquire_of_empty (h : s.keyed s.cursor = .unheld 0) :
    s.stepAcquire = { s with
      cursor := nextCursor s.cursor
      keyed := Function.update s.keyed s.cursor .held
      loop := .drawing s.cursor } := by
  simp [stepAcquire, h, KeyedMutex.acquireSync]

/-- The core skips a slot with another key, or one that is held. -/
theorem stepAcquire_of_ne (h : s.keyed s.cursor ≠ .unheld 0) :
    s.stepAcquire = { s with cursor := nextCursor s.cursor } := by
  simp [stepAcquire, h, KeyedMutex.acquireSync]

/-- The host acquires a slot with key 1. -/
theorem stepLock_of_full (h : s.keyed slot = .unheld 1) :
    s.stepLock slot =
      { s with keyed := Function.update s.keyed slot .held, host := .compositing slot } := by
  simp [stepLock, h, KeyedMutex.acquireSync]

/-- The host times out at a slot with another key, or one that is held. -/
theorem stepLock_of_ne (h : s.keyed slot ≠ .unheld 1) :
    s.stepLock slot =
      { s with host := .idle, presents := ⟨some slot, none, .timeout⟩ :: s.presents } := by
  simp [stepLock, h, KeyedMutex.acquireSync]

namespace Owned

/-- A step that does not touch the slot leaves it with its owner. -/
theorem congr (h : s.Owned i) (hkeyed : s'.keyed i = s.keyed i)
    (hloop : s'.loop = .drawing i ↔ s.loop = .drawing i)
    (hhost : s'.host = .compositing i ↔ s.host = .compositing i)
    (hreleased : s'.released i = s.released i) (hcomposited : s'.composited i = s.composited i) :
    s'.Owned i := by
  cases h with
  | empty hk hl hh hc =>
    exact .empty (hkeyed.trans hk) (mt hloop.mp hl) (mt hhost.mp hh) (by omega)
  | drawing hk hl hh hc =>
    exact .drawing (hkeyed.trans hk) (hloop.mpr hl) (mt hhost.mp hh) (by omega)
  | full hk hl hh hc =>
    exact .full (hkeyed.trans hk) (mt hloop.mp hl) (mt hhost.mp hh) (by omega)
  | compositing hk hl hh hc =>
    exact .compositing (hkeyed.trans hk) (mt hloop.mp hl) (hhost.mpr hh) (by omega)

/-- A slot the core draws in is held by it and owes no composite. -/
theorem of_drawing (h : s.Owned i) (hloop : s.loop = .drawing i) :
    s.keyed i = .held ∧ s.host ≠ .compositing i ∧ s.released i = s.composited i := by
  cases h with
  | drawing hk _ hh hc => exact ⟨hk, hh, hc⟩
  | empty _ hl _ _ => exact absurd hloop hl
  | full _ hl _ _ => exact absurd hloop hl
  | compositing _ hl _ _ => exact absurd hloop hl

/-- A slot the host composites is held by it and owes one composite. -/
theorem of_compositing (h : s.Owned i) (hhost : s.host = .compositing i) :
    s.keyed i = .held ∧ s.loop ≠ .drawing i ∧ s.released i = s.composited i + 1 := by
  cases h with
  | compositing hk hl _ hc => exact ⟨hk, hl, hc⟩
  | empty _ _ hh _ => exact absurd hhost hh
  | drawing _ _ hh _ => exact absurd hhost hh
  | full _ _ hh _ => exact absurd hhost hh

/-- A slot with key 0 is held by nobody and owes no composite. -/
theorem of_empty (h : s.Owned i) (hkeyed : s.keyed i = .unheld 0) :
    s.loop ≠ .drawing i ∧ s.host ≠ .compositing i ∧ s.released i = s.composited i := by
  cases h with
  | empty _ hl hh hc => exact ⟨hl, hh, hc⟩
  | drawing hk _ _ _ => cases hkeyed.symm.trans hk
  | full hk _ _ _ => exact absurd (hkeyed.symm.trans hk) (by decide)
  | compositing hk _ _ _ => cases hkeyed.symm.trans hk

/-- A slot with key 1 is held by nobody and owes one composite. -/
theorem of_full (h : s.Owned i) (hkeyed : s.keyed i = .unheld 1) :
    s.loop ≠ .drawing i ∧ s.host ≠ .compositing i ∧ s.released i = s.composited i + 1 := by
  cases h with
  | full _ hl hh hc => exact ⟨hl, hh, hc⟩
  | drawing hk _ _ _ => cases hkeyed.symm.trans hk
  | empty hk _ _ _ => exact absurd (hkeyed.symm.trans hk) (by decide)
  | compositing hk _ _ _ => cases hkeyed.symm.trans hk

end Owned

namespace Inv

/-- The invariant holds when the surfaces have just been allocated. -/
theorem init (hN : 0 < N) (width height : UInt32) (generation : ℕ) :
    Inv (init hN width height generation) where
  slotCount := rfl
  latest_lt := fun _ h => nomatch h
  lastReady_lt := fun _ h => nomatch h
  owned := fun _ => .empty rfl nofun nofun rfl

/-- The core's acquire keeps the invariant. -/
theorem stepAcquire (hi : Inv s) (hloop : s.loop = .top) : Inv s.stepAcquire := by
  by_cases hkeyed : s.keyed s.cursor = .unheld 0
  · rw [stepAcquire_of_empty hkeyed]
    refine { hi with owned := fun i => ?_ }
    obtain ⟨-, hhost, hcount⟩ := (hi.owned s.cursor).of_empty hkeyed
    rcases eq_or_ne i s.cursor with rfl | hne
    · exact .drawing (Function.update_self ..) rfl hhost hcount
    · refine (hi.owned i).congr (Function.update_of_ne hne ..) ?_ Iff.rfl rfl rfl
      exact ⟨fun h => absurd (Loop.drawing.inj h).symm hne, fun h => nomatch hloop.symm.trans h⟩
  · rw [stepAcquire_of_ne hkeyed]
    exact { hi with owned := fun i => (hi.owned i).congr rfl Iff.rfl Iff.rfl rfl rfl }

/-- The core's release keeps the invariant. -/
theorem stepRelease (hi : Inv s) (hloop : s.loop = .drawing slot) : Inv (s.stepRelease slot) := by
  refine { hi with owned := fun i => ?_ }
  obtain ⟨-, hhost, hcount⟩ := (hi.owned slot).of_drawing hloop
  rcases eq_or_ne i slot with rfl | hne
  · exact .full (Function.update_self ..) nofun hhost
      ((Function.update_self ..).trans (congrArg (· + 1) hcount))
  · refine (hi.owned i).congr (Function.update_of_ne hne ..) ?_ Iff.rfl
      (Function.update_of_ne hne ..) rfl
    exact ⟨nofun, fun h => absurd (Loop.drawing.inj (hloop.symm.trans h)).symm hne⟩

/-- The frame submitted last is the latest one. -/
theorem latestReady_stepSubmit (hi : Inv s) :
    (s.stepSubmit slot).ring.latestReady = some (slot.val, 0) := by
  apply SurfaceRing.latestReady_acceptSubmit
  rw [hi.slotCount]
  exact slot.isLt

/-- The report of a frame keeps the invariant. -/
theorem stepSubmit (hi : Inv s) (hloop : s.loop = .submitting slot) : Inv (s.stepSubmit slot) where
  slotCount := (SurfaceRing.acceptSubmit_slotCount ..).trans hi.slotCount
  latest_lt := fun t ht => by
    obtain rfl := Option.some.inj (hi.latestReady_stepSubmit.symm.trans ht)
    exact slot.isLt
  lastReady_lt := hi.lastReady_lt
  owned := fun i => (hi.owned i).congr rfl ⟨nofun, fun h => nomatch hloop.symm.trans h⟩
    Iff.rfl rfl rfl

/-- The slot to present is one of the slots. -/
theorem target_lt (hi : Inv s) {t : ℕ × ℕ} (h : s.target = some t) : t.1 < N := by
  unfold target at h
  split_ifs at h
  · exact hi.lastReady_lt t h
  · exact hi.latest_lt t h

/-- A present with a frame goes on to acquire its slot. -/
theorem stepPresent_of_some (hi : Inv s) {t : ℕ × ℕ} (h : s.target = some t) :
    s.stepPresent =
      { s with lastReady := some t, host := .acquiring ⟨t.1, hi.target_lt h⟩ } := by
  simp [KeyedRing.stepPresent, h, hi.target_lt h]

/-- The look-up of a frame keeps the invariant. -/
theorem stepPresent (hi : Inv s) (hhost : s.host = .idle) : Inv s.stepPresent := by
  cases htarget : s.target with
  | none =>
    rw [KeyedRing.stepPresent, htarget]
    exact { hi with owned := fun i => (hi.owned i).congr rfl Iff.rfl Iff.rfl rfl rfl }
  | some t =>
    rw [hi.stepPresent_of_some htarget]
    refine { hi with lastReady_lt := ?_, owned := fun i => ?_ }
    · rintro _ ⟨⟩
      exact hi.target_lt htarget
    · exact (hi.owned i).congr rfl Iff.rfl ⟨nofun, fun h => nomatch hhost.symm.trans h⟩
        rfl rfl

/-- The host's acquire keeps the invariant. -/
theorem stepLock (hi : Inv s) (hhost : s.host = .acquiring slot) : Inv (s.stepLock slot) := by
  by_cases hkeyed : s.keyed slot = .unheld 1
  · rw [stepLock_of_full hkeyed]
    refine { hi with owned := fun i => ?_ }
    obtain ⟨hloop, -, hcount⟩ := (hi.owned slot).of_full hkeyed
    rcases eq_or_ne i slot with rfl | hne
    · exact .compositing (Function.update_self ..) hloop rfl hcount
    · refine (hi.owned i).congr (Function.update_of_ne hne ..) Iff.rfl ?_ rfl rfl
      exact ⟨fun h => absurd (Host.compositing.inj h).symm hne, fun h => nomatch hhost.symm.trans h⟩
  · rw [stepLock_of_ne hkeyed]
    refine { hi with owned := fun i => (hi.owned i).congr rfl Iff.rfl ?_ rfl rfl }
    exact ⟨nofun, fun h => nomatch hhost.symm.trans h⟩

/-- The host's release keeps the invariant. -/
theorem stepUnlock (hi : Inv s) (hhost : s.host = .compositing slot) : Inv (s.stepUnlock slot) := by
  refine { hi with owned := fun i => ?_ }
  obtain ⟨-, hloop, hcount⟩ := (hi.owned slot).of_compositing hhost
  rcases eq_or_ne i slot with rfl | hne
  · exact .empty (Function.update_self ..) hloop nofun
      (hcount.trans (Function.update_self (f := s.composited) i _).symm)
  · refine (hi.owned i).congr (Function.update_of_ne hne ..) Iff.rfl ?_ rfl
      (Function.update_of_ne hne ..)
    exact ⟨nofun,
      fun h => absurd (Host.compositing.inj (hhost.symm.trans h)).symm hne⟩

/-- Every step keeps the invariant. -/
theorem step (hi : Inv s) {a : Action} (h : s.step a = some s') : Inv s' := by
  cases a with
  | acquire => obtain ⟨hloop, rfl⟩ := step_acquire h; exact hi.stepAcquire hloop
  | release => obtain ⟨slot, hloop, rfl⟩ := step_release h; exact hi.stepRelease hloop
  | submit => obtain ⟨slot, hloop, rfl⟩ := step_submit h; exact hi.stepSubmit hloop
  | present => obtain ⟨hhost, rfl⟩ := step_present h; exact hi.stepPresent hhost
  | lock => obtain ⟨slot, hhost, rfl⟩ := step_lock h; exact hi.stepLock hhost
  | unlock => obtain ⟨slot, hhost, rfl⟩ := step_unlock h; exact hi.stepUnlock hhost
  | pause =>
    obtain ⟨-, rfl⟩ := step_pause h
    exact { hi with owned := fun i => (hi.owned i).congr rfl Iff.rfl Iff.rfl rfl rfl }
  | resume =>
    obtain ⟨-, rfl⟩ := step_resume h
    exact { hi with owned := fun i => (hi.owned i).congr rfl Iff.rfl Iff.rfl rfl rfl }

end Inv

/-- The invariant holds in every state of a run. -/
theorem run_inv {hN : 0 < N} {width height : UInt32} {generation : ℕ}
    {guard : KeyedRing N → Action → Prop} {as : List Action}
    (h : Machine.Run (machine N) guard (init hN width height generation) as s) : Inv s :=
  h.invariant (Inv.init hN width height generation) fun _ _ _ hi _ hstep => hi.step hstep

/-! ### The look-up of a present -/

/-- The runtime is in the state the host's thread is in. -/
structure Describes (s : KeyedRing N) (rt : Runtime) : Prop where
  paused : rt.paused = s.paused
  ring : rt.ring = s.ring
  lastReady :
    s.lastReady = if rt.haveLastReady then some (rt.lastReadyIdx, rt.lastReadySv) else none

/-- The slot the host would present is the one `render` would composite. -/
theorem Describes.target {rt : Runtime} (h : Describes s rt) :
    s.target =
      if rt.renderTarget.2.2 then some (rt.renderTarget.1, rt.renderTarget.2.1) else none := by
  rw [KeyedRing.target, ← h.paused, ← h.ring, h.lastReady]
  exact rt.renderTarget_eq

/-- `render` asks for the frame that `present` looks up, and keeps it for presents while paused. -/
theorem renderRing_present {κ β : Type} (env : Env κ β) (wantPixels : Bool) {w : World κ β}
    (hi : Inv s) (h : Describes s w.rt) {t : ℕ × ℕ} (htarget : s.target = some t) :
    Describes s.stepPresent ((Runtime.renderRing env wantPixels).run w).2.rt ∧
      ((Runtime.renderRing env wantPixels).run w).2.log = .composite t.1 t.2 true :: w.log := by
  have hrender : w.rt.renderTarget = (t.1, t.2, true) := by
    have heq := h.target.symm.trans htarget
    split_ifs at heq with hhave
    rw [← Option.some.inj heq, ← hhave]
  obtain ⟨hrt, hlog⟩ := Runtime.renderRing_run env wantPixels w hrender
  refine ⟨?_, hlog⟩
  rw [hrt, hi.stepPresent_of_some htarget]
  split_ifs with hpaused
  · -- While paused the frame is the one already kept.
    refine ⟨h.paused, h.ring, ?_⟩
    rw [← h.lastReady]
    rw [KeyedRing.target, if_pos (h.paused.symm.trans hpaused)] at htarget
    exact htarget.symm
  · exact ⟨h.paused, h.ring, rfl⟩

/-! ### Which presents show their frame -/

/-- Every present has composited the frame that was looked up. -/
def Shown (s : KeyedRing N) : Prop := ∀ p ∈ s.presents, p.result = .ok ∧ p.composited = p.target

instance (s : KeyedRing N) : Decidable s.Shown :=
  inferInstanceAs (Decidable (∀ p ∈ s.presents, p.result = .ok ∧ p.composited = p.target))

/-- A present acquires a slot only while it holds a frame that none has composited. -/
def Unseen (s : KeyedRing N) (a : Action) : Prop :=
  a = .lock → ∀ slot, s.host = .acquiring slot → s.composited slot < s.released slot

instance (s : KeyedRing N) (a : Action) : Decidable (Unseen s a) :=
  inferInstanceAs (Decidable (_ = _ → ∀ _ : Fin N, _ = _ → _ < _))

/-- A host that waits for a slot finds it full exactly when its frame has not been composited. -/
theorem Inv.full_iff (hi : Inv s) (hhost : s.host = .acquiring slot) :
    s.keyed slot = .unheld 1 ↔ s.composited slot < s.released slot := by
  cases hi.owned slot with
  | empty hk _ _ hc => simp [hk, hc]
  | drawing hk _ _ hc => simp [hk, hc]
  | full hk _ _ hc => simp [hk, hc]
  | compositing _ _ hh _ => exact nomatch hhost.symm.trans hh

/-- The presents that have returned stay as they are. -/
theorem step_presents {a : Action} (h : s.step a = some s') : s.presents ⊆ s'.presents := by
  intro p hp
  cases a with
  -- The producer's steps add no present, and the host's steps add at most one.
  | acquire =>
    obtain ⟨-, rfl⟩ := step_acquire h
    rw [stepAcquire]
    split <;> exact hp
  | release => obtain ⟨slot, -, rfl⟩ := step_release h; exact hp
  | submit => obtain ⟨slot, -, rfl⟩ := step_submit h; exact hp
  | present =>
    obtain ⟨-, rfl⟩ := step_present h
    rw [stepPresent]
    split
    · exact List.mem_cons_of_mem _ hp
    · split
      · exact hp
      · exact List.mem_cons_of_mem _ hp
  | lock =>
    obtain ⟨slot, -, rfl⟩ := step_lock h
    rw [stepLock]
    split
    · exact hp
    · exact List.mem_cons_of_mem _ hp
  | unlock =>
    obtain ⟨slot, -, rfl⟩ := step_unlock h
    exact List.mem_cons_of_mem _ hp
  | pause => obtain ⟨-, rfl⟩ := step_pause h; exact hp
  | resume => obtain ⟨-, rfl⟩ := step_resume h; exact hp

/-- Another present that shows its target keeps it so that all have. -/
theorem Shown.cons {p : Present} (h : s.Shown) (hpresents : s'.presents = p :: s.presents)
    (hp : p.result = .ok ∧ p.composited = p.target) : s'.Shown := by
  intro q hq
  rw [hpresents] at hq
  rcases List.mem_cons.mp hq with rfl | hq
  · exact hp
  · exact h q hq

/-- A step that meets the guard keeps it so that every present shows its target. -/
theorem Shown.step (hs : s.Shown) (hi : Inv s) {a : Action} (hguard : Unseen s a)
    (h : s.step a = some s') : s'.Shown := by
  cases a with
  | acquire =>
    obtain ⟨-, rfl⟩ := step_acquire h
    rw [stepAcquire]
    split <;> exact hs
  | release => obtain ⟨slot, -, rfl⟩ := step_release h; exact hs
  | submit => obtain ⟨slot, -, rfl⟩ := step_submit h; exact hs
  | present =>
    obtain ⟨-, rfl⟩ := step_present h
    cases htarget : s.target with
    | none =>
      rw [stepPresent, htarget]
      exact hs.cons rfl ⟨rfl, rfl⟩
    | some t =>
      rw [hi.stepPresent_of_some htarget]
      exact hs
  | lock =>
    obtain ⟨slot, hhost, rfl⟩ := step_lock h
    -- A slot that has not been shown yet is still full, so the lock succeeds.
    rw [stepLock_of_full ((hi.full_iff hhost).mpr (hguard rfl slot hhost))]
    exact hs
  | unlock =>
    obtain ⟨slot, -, rfl⟩ := step_unlock h
    exact hs.cons rfl ⟨rfl, rfl⟩
  | pause => obtain ⟨-, rfl⟩ := step_pause h; exact hs
  | resume => obtain ⟨-, rfl⟩ := step_resume h; exact hs

/-- A present of a frame that has been composited before times out. -/
theorem Shown.unseen (hi : Inv s) {a : Action} (h : s.step a = some s') (hs : s'.Shown) :
    Unseen s a := by
  rintro rfl slot hhost
  rw [← hi.full_iff hhost]
  by_contra hkeyed
  obtain ⟨_, hhost', rfl⟩ := step_lock h
  obtain rfl := Host.acquiring.inj (hhost.symm.trans hhost')
  rw [stepLock_of_ne hkeyed] at hs
  exact nomatch (hs _ (List.mem_cons_self ..)).1

variable {hN : 0 < N} {width height : UInt32} {generation : ℕ} {as : List Action}

/-- The presents of a run all show their frames exactly when each of them comes to a frame that has
not been composited yet. -/
theorem presents_shown_iff
    (h : Machine.Run (machine N) Machine.always (init hN width height generation) as s) :
    s.Shown ↔ Machine.Run (machine N) Unseen (init hN width height generation) as s := by
  constructor
  · intro hs
    exact (h.strengthen_of_end (I := Inv) (J := Shown) (Inv.init hN width height generation)
      (fun _ _ _ hi _ hstep => hi.step hstep)
      (fun _ _ _ hi _ hstep hs => ⟨fun p hp => hs p (step_presents hstep hp), hs.unseen hi hstep⟩)
      hs).2
  · intro h
    exact (h.invariant (I := fun s => Inv s ∧ s.Shown)
      ⟨Inv.init hN width height generation, fun _ hp => nomatch hp⟩
      fun _ _ _ hs hguard hstep => ⟨hs.1.step hstep, hs.2.step hs.1 hguard hstep⟩).2

/-! ### Runs with three slots -/

/-- One round of `loop` that finds its slot empty. -/
def drawFrame : List Action := [.acquire, .release, .submit]

/-- One present with a frame. -/
def presentFrame : List Action := [.present, .lock, .unlock]

/-- Two frames, each presented once. -/
def presentEachOnce : List Action := drawFrame ++ presentFrame ++ drawFrame ++ presentFrame

/-- Two frames are presented once each, and both are shown. -/
theorem presents_shown_iff_presentEachOnce :
    ∃ s, Machine.Run (machine 3) Unseen (init (by decide) 64 64 1) presentEachOnce s ∧
      s.presents = [⟨some 1, some 1, .ok⟩, ⟨some 0, some 0, .ok⟩] ∧
      s.Shown := by
  have hend :
      ∃ s, Machine.Run (machine 3) Unseen (init (by decide) 64 64 1) presentEachOnce s ∧
        s.presents = [⟨some 1, some 1, .ok⟩, ⟨some 0, some 0, .ok⟩] :=
    Machine.exists_run (by decide +kernel)
  obtain ⟨s, hrun, hpresents⟩ := hend
  exact ⟨s, hrun, hpresents, (presents_shown_iff (hrun.weaken fun _ _ _ => trivial)).mpr hrun⟩

/-- The second present of a frame times out. -/
theorem repeat_times_out :
    ∃ s, Machine.Run (machine 3) Machine.always (init (by decide) 64 64 1)
        (drawFrame ++ presentFrame ++ [.present, .lock]) s ∧
      s.presents = [⟨some 0, none, .timeout⟩, ⟨some 0, some 0, .ok⟩] ∧ ¬s.Shown :=
  Machine.exists_run (by decide +kernel)

end KeyedRing

end RetroPark.D3D11
