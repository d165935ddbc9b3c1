import RetroPark.Render.SurfaceRing
import RetroPark.Support.Machine
import Mathlib.Tactic.Set
import Mathlib.Tactic.SplitIfs

/-!
# The surface ring between two threads

`accept_submit` runs on the core's thread and `latest_ready` on the host's. The four members they
share are separate atomics, so a store of the one can come between two loads of the other. `machine`
is the interleaving of their stores and loads, one at a time, with the reallocations of the ring.

* `Coherent` says of a call that has returned a pair that it is the pair of one submission, and of
  none older than the last one completed when the call began;
* `coherent_of_untorn` proves it of the runs in which neither thread is overtaken between the index
  and the sync value;
* `submit_eq_acceptSubmit` and `call_eq_latestReady` say that a thread that is left alone does what
  the method of `SurfaceRing` does in one step.
-/

namespace RetroPark

namespace RingThreads

/-- The arguments of a call of `accept_submit`. -/
structure Submission where
  index : ℕ
  generation : ℕ
  syncValue : ℕ
  deriving DecidableEq, Repr

/-- The member `accept_submit` stores next. -/
inductive Store
  | index
  | generation
  | sync
  | flag
  deriving DecidableEq, Repr

/-- The submitting thread. -/
inductive Submitter
  | idle
  | storing (x : Submission) (next : Store)
  deriving DecidableEq, Repr

/-- The reading thread: the member `latest_ready` loads next, or what it has returned. -/
inductive Reader
  | idle
  | flag
  | generation
  | index
  | sync (index : ℕ)
  | returned (index syncValue : ℕ)
  deriving DecidableEq, Repr

/-- The ring, the two threads, and the history of the current generation. -/
structure Threads where
  ring : SurfaceRing
  submitter : Submitter := .idle
  reader : Reader := .idle
  /-- The submissions accepted in this generation, oldest first. -/
  accepted : List Submission := []
  /-- The number of submissions completed when the reader's call began. -/
  since : ℕ := 0
  /-- Whether the reader's index was loaded after the index store and before the sync store of the
  submission in progress. -/
  loadedBetween : Bool := false
  /-- Whether the index of the submission in progress was stored after the reader's index load and
  before its sync load. -/
  storedBetween : Bool := false
  deriving DecidableEq

/-- A step of one of the threads. -/
inductive Action
  /-- A call of `accept_submit`, with its two checks. -/
  | submit (x : Submission)
  | store
  /-- A call of `latest_ready`. -/
  | call
  | load
  | reallocate (width height : UInt32)
  deriving DecidableEq

namespace Submitter

/-- Whether the submission in progress, if any, has stored its index. -/
def indexStored : Submitter → Bool
  | .storing _ .index => false
  | _ => true

/-- Whether the submission in progress, if any, has stored its sync value. -/
def syncStored : Submitter → Bool
  | .storing _ .index | .storing _ .generation | .storing _ .sync => false
  | _ => true

/-- Whether the next member to be stored is the sync value. -/
def nextIsSync : Submitter → Bool
  | .storing _ .sync => true
  | _ => false

/-- Whether no submission is in progress. -/
def isIdle : Submitter → Bool
  | .idle => true
  | .storing _ _ => false

end Submitter

namespace Reader

/-- Whether no call is in progress. -/
def isDone : Reader → Bool
  | .idle | .returned _ _ => true
  | _ => false

/-- Whether the index has been loaded and the sync value has not. -/
def isBetween : Reader → Bool
  | .sync _ => true
  | _ => false

/-- What the last call has returned. -/
def result : Reader → Option (ℕ × ℕ)
  | .returned i syncValue => some (i, syncValue)
  | _ => none

end Reader

namespace Threads

/-- The number of submissions that have returned. -/
def completed (s : Threads) : ℕ := s.accepted.length - if s.submitter.isIdle then 0 else 1

/-- The number of submissions that have stored their index. -/
def indexStores (s : Threads) : ℕ := s.accepted.length - if s.submitter.indexStored then 0 else 1

/-- The number of submissions that have stored their sync value. -/
def syncStores (s : Threads) : ℕ := s.accepted.length - if s.submitter.syncStored then 0 else 1

/-- One store of `accept_submit`. -/
def stepStore (s : Threads) (x : Submission) : Store → Threads
  | .index =>
      { s with
        ring := { s.ring with readyIndex := x.index }
        submitter := .storing x .generation
        storedBetween := s.reader.isBetween }
  | .generation =>
      { s with
        ring := { s.ring with readyGeneration := x.generation }
        submitter := .storing x .sync }
  | .sync =>
      { s with
        ring := { s.ring with readySync := x.syncValue }
        submitter := .storing x .flag
        loadedBetween := false }
  | .flag => { s with ring := { s.ring with hasReady := true }, submitter := .idle }

/-- One load of `latest_ready`. A call that returns false leaves the reader idle. -/
def stepLoad (s : Threads) : Option Threads :=
  match s.reader with
  | .flag => some { s with reader := if s.ring.hasReady then .generation else .idle }
  | .generation =>
      some { s with
        reader := if s.ring.readyGeneration ≠ s.ring.generation then .idle else .index }
  | .index =>
      some { s with
        reader := .sync s.ring.readyIndex
        loadedBetween := s.submitter.indexStored && !s.submitter.syncStored }
  | .sync index =>
      some { s with reader := .returned index s.ring.readySync, storedBetween := false }
  | .idle | .returned _ _ => none

/-- The transition function. A submission does not overlap a reallocation. -/
def step (s : Threads) : Action → Option Threads
  | .submit x =>
      if s.submitter ≠ .idle then none
      else if x.generation ≠ s.ring.generation then some s
      else if s.ring.slotCount ≤ x.index then some s
      else some { s with submitter := .storing x .index, accepted := s.accepted ++ [x] }
  | .store =>
      match s.submitter with
      | .idle => none
      | .storing x next => some (s.stepStore x next)
  | .call =>
      if s.reader.isDone then some { s with reader := .flag, since := s.completed } else none
  | .load => s.stepLoad
  | .reallocate width height =>
      if s.submitter ≠ .idle then none
      else
        some { s with
          ring := s.ring.reallocate width height
          accepted := []
          since := 0
          reader := if s.reader.isDone then .idle else s.reader }

/-- The machine of the two threads. -/
def machine : Machine Threads Action := ⟨step⟩

/-- A ring nobody has used yet. -/
def init (slotCount : ℕ) : Threads := { ring := .new slotCount }

/-- What a call has returned is the pair of one submission accepted in the current generation, and
of none before the last one completed when the call began. -/
def Coherent (s : Threads) : Prop :=
  ∀ index syncValue, s.reader = .returned index syncValue →
    index < s.ring.slotCount ∧ ∃ k x, s.accepted[k]? = some x ∧ x.generation = s.ring.generation ∧
      x.index = index ∧ x.syncValue = syncValue ∧ s.since ≤ k + 1

/-- Neither thread is overtaken between the index and the sync value: no call loads both of them
between the two stores of one submission, and no submission stores both of them between the two
loads of one call. Nor does a reallocation follow on the generation check of a call in progress. -/
def Untorn (s : Threads) : Action → Prop
  | .load => s.reader.isBetween = true → s.loadedBetween = false
  | .store => s.submitter.nextIsSync = true → s.reader.isBetween = true → s.storedBetween = false
  | .reallocate _ _ => s.reader ≠ .index ∧ s.reader.isBetween = false
  | _ => True

instance (s : Threads) : DecidablePred s.Untorn
  | .load => inferInstanceAs (Decidable (_ = true → _ = false))
  | .store => inferInstanceAs (Decidable (_ = true → _ = true → _ = false))
  | .reallocate _ _ => inferInstanceAs (Decidable (_ ∧ _))
  | .submit _ => inferInstanceAs (Decidable True)
  | .call => inferInstanceAs (Decidable True)

/-- What is known of the ring and the threads between any two steps. -/
structure Inv (s : Threads) : Prop where
  storing : ∀ x next, s.submitter = .storing x next → s.accepted.getLast? = some x
  valid : ∀ x ∈ s.accepted, x.generation = s.ring.generation ∧ x.index < s.ring.slotCount
  readyIndex : ∀ k, k + 1 = s.indexStores → ∃ x, s.accepted[k]? = some x ∧
    x.index = s.ring.readyIndex
  readySync : ∀ k, k + 1 = s.syncStores →
    ∃ x, s.accepted[k]? = some x ∧ x.syncValue = s.ring.readySync
  readyGeneration : s.ring.readyGeneration ≤ s.ring.generation
  hasReady : s.ring.hasReady = true → 0 < s.completed
  since : s.since ≤ s.completed
  /-- A call that has seen the flag finds no other generation than this one with an index. -/
  flagged : s.reader = .generation → s.ring.readyGeneration = s.ring.generation → 0 < s.indexStores
  checked : s.reader = .index → 0 < s.indexStores
  /-- The index a call has loaded is that of the submission whose sync value was stored last, or of
  the one in progress, which has its sync value still to store. -/
  loaded : ∀ index, s.reader = .sync index → ∃ k x, s.accepted[k]? = some x ∧ x.index = index ∧
    s.since ≤ k + 1 ∧ k + 1 = if s.loadedBetween then s.syncStores + 1 else s.syncStores
  /-- A submission with its sync value still to store has been overtaken, or has overtaken the
  call. -/
  between : s.reader.isBetween = true → s.submitter.indexStored = true →
    s.submitter.syncStored = false → s.loadedBetween = true ∨ s.storedBetween = true
  coherent : s.Coherent

variable {s s' : Threads} {x : Submission} {width height : UInt32}

/-- A submission is refused, or begins its stores. -/
theorem step_submit (h : s.step (.submit x) = some s') :
    s' = s ∨ s.submitter = .idle ∧ x.generation = s.ring.generation ∧ x.index < s.ring.slotCount ∧
      s' = { s with submitter := .storing x .index, accepted := s.accepted ++ [x] } := by
  simp only [step] at h
  split_ifs at h with hidle hgen hslot
  · exact .inl (Option.some.inj h).symm
  · exact .inl (Option.some.inj h).symm
  · exact .inr ⟨Decidable.not_not.mp hidle, Decidable.not_not.mp hgen, Nat.not_le.mp hslot,
      (Option.some.inj h).symm⟩

/-- What a store does. -/
theorem step_store (h : s.step .store = some s') :
    ∃ x next, s.submitter = .storing x next ∧ s' = s.stepStore x next := by
  simp only [step] at h
  split at h
  · cases h
  · exact ⟨_, _, ‹_›, (Option.some.inj h).symm⟩

/-- What the beginning of a look-up does. -/
theorem step_call (h : s.step .call = some s') :
    s.reader.isDone = true ∧ s' = { s with reader := .flag, since := s.completed } := by
  simp only [step] at h
  split_ifs at h with hdone
  exact ⟨hdone, (Option.some.inj h).symm⟩

/-- The ring is reallocated between two submissions. -/
theorem step_reallocate (h : s.step (.reallocate width height) = some s') :
    s.submitter = .idle ∧
      s' = { s with
        ring := s.ring.reallocate width height
        accepted := []
        since := 0
        reader := if s.reader.isDone then .idle else s.reader } := by
  simp only [step] at h
  split at h
  case isTrue => cases h
  case isFalse hidle => exact ⟨Decidable.not_not.mp hidle, (Option.some.inj h).symm⟩

/-- No submission is completed before its index is stored. -/
theorem completed_le_indexStores (s : Threads) : s.completed ≤ s.indexStores := by
  unfold completed indexStores
  cases s.submitter with
  | idle => exact Nat.le_refl _
  | storing x next => cases next <;> simp [Submitter.isIdle, Submitter.indexStored]

namespace Inv

/-- The submission in progress has been accepted last. -/
theorem getElem?_length (hi : Inv s) {next : Store} (hsub : s.submitter = .storing x next) :
    ∃ k, s.accepted.length = k + 1 ∧ s.accepted[k]? = some x := by
  have hlast := hi.storing x next hsub
  rw [List.getLast?_eq_getElem?] at hlast
  obtain ⟨hlt, -⟩ := List.getElem?_eq_some_iff.mp hlast
  exact ⟨s.accepted.length - 1, by omega, hlast⟩

/-- The index is one store ahead of the sync value while a submission is between the two. -/
theorem indexStores_eq (hi : Inv s) :
    s.indexStores = if s.submitter.indexStored && !s.submitter.syncStored then s.syncStores + 1
      else s.syncStores := by
  unfold indexStores syncStores
  cases hsub : s.submitter with
  | idle => rfl
  | storing x next =>
    obtain ⟨k, hlength, -⟩ := hi.getElem?_length hsub
    cases next <;> simp [hlength, Submitter.indexStored, Submitter.syncStored]

/-- The invariant holds for a new ring. -/
theorem init (slotCount : ℕ) : Inv (init slotCount) where
  storing := fun _ _ h => nomatch h
  valid := fun _ h => nomatch h
  readyIndex := fun _ h => nomatch h
  readySync := fun _ h => nomatch h
  readyGeneration := Nat.le_refl 0
  hasReady := fun h => nomatch h
  since := Nat.le_refl 0
  flagged := fun h => nomatch h
  checked := fun h => nomatch h
  loaded := fun _ h => nomatch h
  between := fun h => nomatch h
  coherent := fun _ _ h => nomatch h

/-- A submission that begins changes none of the counts. -/
theorem submit (hi : Inv s) (h : s.step (.submit x) = some s') : Inv s' := by
  obtain rfl | ⟨hidle, hgen, hindex, rfl⟩ := step_submit h
  · exact hi
  set t : Threads := { s with submitter := .storing x .index, accepted := s.accepted ++ [x] }
  have hcompleted : t.completed = s.completed := by simp [t, completed, hidle, Submitter.isIdle]
  have hindexStores : t.indexStores = s.indexStores := by
    simp [t, indexStores, hidle, Submitter.indexStored]
  have hsyncStores : t.syncStores = s.syncStores := by
    simp [t, syncStores, hidle, Submitter.syncStored]
  -- The new submission comes last, so the earlier ones keep their number.
  have hkeeps : ∀ {k : ℕ} {y}, s.accepted[k]? = some y → t.accepted[k]? = some y := by
    intro k y hk
    obtain ⟨hlt, -⟩ := List.getElem?_eq_some_iff.mp hk
    exact (List.getElem?_append_left hlt).trans hk
  refine
    { storing := ?_, valid := ?_, readyIndex := ?_, readySync := ?_
      readyGeneration := hi.readyGeneration
      hasReady := fun hready => hcompleted ▸ hi.hasReady hready
      since := hcompleted ▸ hi.since
      flagged := fun hreader hg => hindexStores ▸ hi.flagged hreader hg
      checked := fun hreader => hindexStores ▸ hi.checked hreader
      loaded := ?_
      between := fun _ hstored => nomatch hstored
      coherent := ?_ }
  · rintro y next ⟨rfl, rfl⟩
    exact List.getLast?_concat
  · intro y hy
    rcases List.mem_append.mp hy with hy | hy
    · exact hi.valid y hy
    · obtain rfl := List.mem_singleton.mp hy
      exact ⟨hgen, hindex⟩
  · intro k hk
    obtain ⟨y, hy, heq⟩ := hi.readyIndex k (hindexStores ▸ hk)
    exact ⟨y, hkeeps hy, heq⟩
  · intro k hk
    obtain ⟨y, hy, heq⟩ := hi.readySync k (hsyncStores ▸ hk)
    exact ⟨y, hkeeps hy, heq⟩
  · intro index hreader
    obtain ⟨k, y, hy, heq, hsince, hk⟩ := hi.loaded index hreader
    exact ⟨k, y, hkeeps hy, heq, hsince, hsyncStores ▸ hk⟩
  · intro index syncValue hreader
    obtain ⟨hlt, k, y, hy, hrest⟩ := hi.coherent index syncValue hreader
    exact ⟨hlt, k, y, hkeeps hy, hrest⟩

/-- The store of the index keeps the invariant. -/
theorem storeIndex (hi : Inv s) (hsub : s.submitter = .storing x .index) :
    Inv (s.stepStore x .index) := by
  obtain ⟨k, hlength, hk⟩ := hi.getElem?_length hsub
  have hcompleted : (s.stepStore x .index).completed = s.completed := by
    simp [completed, stepStore, hsub, Submitter.isIdle]
  have hindexStores : (s.stepStore x .index).indexStores = k + 1 := by
    simp [indexStores, stepStore, hlength, Submitter.indexStored]
  have hsyncStores : (s.stepStore x .index).syncStores = s.syncStores := by
    simp [syncStores, stepStore, hsub, Submitter.syncStored]
  -- The index stored last is the one of this submission; the timeline value is still that of the
  -- one before.
  refine
    { storing := ?_, valid := hi.valid, readyIndex := ?_
      readySync := fun j hj => hi.readySync j (hsyncStores ▸ hj)
      readyGeneration := hi.readyGeneration
      hasReady := fun hready => hcompleted ▸ hi.hasReady hready
      since := hcompleted ▸ hi.since
      flagged := fun _ _ => hindexStores ▸ Nat.succ_pos k
      checked := fun _ => hindexStores ▸ Nat.succ_pos k
      loaded := fun index hreader => ?_, between := fun hbetween _ _ => .inr hbetween
      coherent := hi.coherent }
  · rintro y next ⟨rfl, rfl⟩
    exact hi.storing x .index hsub
  · intro j hj
    obtain rfl : j = k := by omega
    exact ⟨x, hk, rfl⟩
  · obtain ⟨j, y, hy, heq, hsince, hj⟩ := hi.loaded index hreader
    exact ⟨j, y, hy, heq, hsince, hsyncStores ▸ hj⟩

/-- The store of the generation keeps the invariant. -/
theorem storeGeneration (hi : Inv s) (hsub : s.submitter = .storing x .generation) :
    Inv (s.stepStore x .generation) := by
  obtain ⟨k, hlength, hk⟩ := hi.getElem?_length hsub
  have hcompleted : (s.stepStore x .generation).completed = s.completed := by
    simp [completed, stepStore, hsub, Submitter.isIdle]
  have hindexStores : (s.stepStore x .generation).indexStores = s.indexStores := by
    simp [indexStores, stepStore, hsub, Submitter.indexStored]
  have hsyncStores : (s.stepStore x .generation).syncStores = s.syncStores := by
    simp [syncStores, stepStore, hsub, Submitter.syncStored]
  have hpos : 0 < s.indexStores := by
    simp [indexStores, hsub, hlength, Submitter.indexStored]
  -- The generation stored is the current one: no reallocation comes between two stores.
  refine
    { storing := ?_, valid := hi.valid
      readyIndex := fun j hj => hi.readyIndex j (hindexStores ▸ hj)
      readySync := fun j hj => hi.readySync j (hsyncStores ▸ hj)
      readyGeneration := Nat.le_of_eq (hi.valid x (List.mem_of_getElem? hk)).1
      hasReady := fun hready => hcompleted ▸ hi.hasReady hready
      since := hcompleted ▸ hi.since
      flagged := fun _ _ => hindexStores ▸ hpos
      checked := fun _ => hindexStores ▸ hpos
      loaded := fun index hreader => ?_
      between := fun hbetween _ _ => hi.between hbetween (by rw [hsub]; rfl) (by rw [hsub]; rfl)
      coherent := hi.coherent }
  · rintro y next ⟨rfl, rfl⟩
    exact hi.storing x .generation hsub
  · obtain ⟨j, y, hy, heq, hsince, hj⟩ := hi.loaded index hreader
    exact ⟨j, y, hy, heq, hsince, hsyncStores ▸ hj⟩

/-- The store of the sync value keeps the invariant, unless it makes a look-up torn. -/
theorem storeSync (hi : Inv s) (hsub : s.submitter = .storing x .sync)
    (hguard : s.reader.isBetween = true → s.storedBetween = false) :
    Inv (s.stepStore x .sync) := by
  obtain ⟨k, hlength, hk⟩ := hi.getElem?_length hsub
  have hcompleted : (s.stepStore x .sync).completed = s.completed := by
    simp [completed, stepStore, hsub, Submitter.isIdle]
  have hindexStores : (s.stepStore x .sync).indexStores = s.indexStores := by
    simp [indexStores, stepStore, hsub, Submitter.indexStored]
  have hsyncStores : (s.stepStore x .sync).syncStores = s.syncStores + 1 := by
    simp [syncStores, stepStore, hsub, hlength, Submitter.syncStored]
  have hk' : (s.stepStore x .sync).syncStores = k + 1 := by
    simp [syncStores, stepStore, hlength, Submitter.syncStored]
  refine
    { storing := ?_, valid := hi.valid
      readyIndex := fun j hj => hi.readyIndex j (hindexStores ▸ hj)
      readySync := fun j hj => ⟨x, ?_, rfl⟩
      readyGeneration := hi.readyGeneration
      hasReady := fun hready => hcompleted ▸ hi.hasReady hready
      since := hcompleted ▸ hi.since
      flagged := fun hreader hg => hindexStores ▸ hi.flagged hreader hg
      checked := fun hreader => hindexStores ▸ hi.checked hreader
      loaded := fun index hreader => ?_
      between := fun _ _ hstored => nomatch hstored
      coherent := hi.coherent }
  · rintro y next ⟨rfl, rfl⟩
    exact hi.storing x .sync hsub
  · -- The submission under way is the last one, so its number is `k`.
    obtain rfl : j = k := by omega
    exact hk
  · -- A call between its two loads has loaded the index of this submission.
    have hbetween :
      s.reader.isBetween = true := by rw [show s.reader = .sync index from hreader]; rfl
    have hloaded : s.loadedBetween = true := by
      rcases hi.between hbetween (by rw [hsub]; rfl) (by rw [hsub]; rfl) with h | h
      · exact h
      · exact absurd ((hguard hbetween).symm.trans h) Bool.false_ne_true
    obtain ⟨j, y, hy, heq, hsince, hj⟩ := hi.loaded index hreader
    rw [if_pos hloaded] at hj
    exact ⟨j, y, hy, heq, hsince, hj.trans hsyncStores.symm⟩

/-- The store of the flag keeps the invariant. -/
theorem storeFlag (hi : Inv s) (hsub : s.submitter = .storing x .flag) :
    Inv (s.stepStore x .flag) := by
  obtain ⟨k, hlength, -⟩ := hi.getElem?_length hsub
  have hcompleted : (s.stepStore x .flag).completed = s.completed + 1 := by
    simp [completed, stepStore, hsub, hlength, Submitter.isIdle]
  have hindexStores : (s.stepStore x .flag).indexStores = s.indexStores := by
    simp [indexStores, stepStore, hsub, Submitter.indexStored]
  have hsyncStores : (s.stepStore x .flag).syncStores = s.syncStores := by
    simp [syncStores, stepStore, hsub, Submitter.syncStored]
  -- With the flag the submission is complete.
  refine
    { storing := fun _ _ h => nomatch h
      valid := hi.valid
      readyIndex := fun j hj => hi.readyIndex j (hindexStores ▸ hj)
      readySync := fun j hj => hi.readySync j (hsyncStores ▸ hj)
      readyGeneration := hi.readyGeneration
      hasReady := fun _ => hcompleted ▸ Nat.succ_pos _
      since := hcompleted ▸ Nat.le_succ_of_le hi.since
      flagged := fun hreader hg => hindexStores ▸ hi.flagged hreader hg
      checked := fun hreader => hindexStores ▸ hi.checked hreader
      loaded := fun index hreader => ?_
      between := fun _ _ hstored => nomatch hstored
      coherent := hi.coherent }
  obtain ⟨j, y, hy, heq, hsince, hj⟩ := hi.loaded index hreader
  exact ⟨j, y, hy, heq, hsince, hsyncStores ▸ hj⟩

/-- The beginning of a look-up keeps the invariant. -/
theorem call (hi : Inv s) (h : s.step .call = some s') : Inv s' := by
  obtain ⟨-, rfl⟩ := step_call h
  exact
    { hi with
      since := Nat.le_refl _
      flagged := fun h => nomatch h
      checked := fun h => nomatch h
      loaded := fun _ h => nomatch h
      between := fun h => nomatch h
      coherent := fun _ _ h => nomatch h }

/-- A call that returns false leaves no index or pair behind. -/
theorem fail (hi : Inv s) : Inv { s with reader := .idle } :=
  { hi with
    flagged := fun h => nomatch h
    checked := fun h => nomatch h
    loaded := fun _ h => nomatch h
    between := fun h => nomatch h
    coherent := fun _ _ h => nomatch h }

/-- The load of the flag keeps the invariant. -/
theorem loadFlag (hi : Inv s) (hready : s.ring.hasReady = true) :
    Inv { s with reader := .generation } :=
  { hi with
    flagged := fun _ _ => Nat.lt_of_lt_of_le (hi.hasReady hready) s.completed_le_indexStores
    checked := fun h => nomatch h
    loaded := fun _ h => nomatch h
    between := fun h => nomatch h
    coherent := fun _ _ h => nomatch h }

/-- The load of the generation keeps the invariant. -/
theorem loadGeneration (hi : Inv s) (hreader : s.reader = .generation)
    (hgen : s.ring.readyGeneration = s.ring.generation) : Inv { s with reader := .index } :=
  { hi with
    flagged := fun h => nomatch h
    checked := fun _ => hi.flagged hreader hgen
    loaded := fun _ h => nomatch h
    between := fun h => nomatch h
    coherent := fun _ _ h => nomatch h }

/-- The load of the index keeps the invariant. -/
theorem loadIndex (hi : Inv s) (hreader : s.reader = .index) :
    Inv { s with
      reader := .sync s.ring.readyIndex
      loadedBetween := s.submitter.indexStored && !s.submitter.syncStored } := by
  obtain ⟨k, hk⟩ := Nat.exists_eq_add_of_lt (hi.checked hreader)
  rw [Nat.zero_add] at hk
  -- The index loaded is of the submission whose index was stored last.
  obtain ⟨x, hx, heq⟩ := hi.readyIndex k hk.symm
  have hsince : s.since ≤ k + 1 := by
    have := hi.since
    have := s.completed_le_indexStores
    omega
  refine
    { hi with
      flagged := fun h => nomatch h
      checked := fun h => nomatch h
      loaded := ?_
      between := fun _ hindex hsync => .inl (by simp [hindex, hsync])
      coherent := fun _ _ h => nomatch h }
  rintro index ⟨⟩
  exact ⟨k, x, hx, heq, hsince, hk.symm.trans hi.indexStores_eq⟩

/-- The load of the sync value keeps the invariant, unless the look-up is torn. -/
theorem loadSync (hi : Inv s) {index : ℕ} (hreader : s.reader = .sync index)
    (hguard : s.loadedBetween = false) :
    Inv { s with reader := .returned index s.ring.readySync, storedBetween := false } := by
  refine
    { hi with
      flagged := fun h => nomatch h
      checked := fun h => nomatch h
      loaded := fun _ h => nomatch h
      between := fun h => nomatch h
      coherent := ?_ }
  rintro _ _ ⟨⟩
  obtain ⟨k, x, hx, heq, hsince, hk⟩ := hi.loaded index hreader
  rw [hguard] at hk
  obtain ⟨y, hy, hsync⟩ := hi.readySync k hk
  -- The index was not loaded between the two stores, so both are of one submission.
  obtain rfl : y = x := Option.some.inj (hy.symm.trans hx)
  obtain ⟨hgen, hslot⟩ := hi.valid y (List.mem_of_getElem? hx)
  exact ⟨heq ▸ hslot, k, y, hx, hgen, heq, hsync, hsince⟩

/-- Every load keeps the invariant, unless the look-up is torn. -/
theorem load (hi : Inv s) (hguard : s.Untorn .load) (h : s.step .load = some s') : Inv s' := by
  simp only [step, stepLoad] at h
  cases hreader : s.reader with
  | idle => simp [hreader] at h
  | returned index syncValue => simp [hreader] at h
  | flag =>
    simp only [hreader, Option.some.injEq] at h
    subst h
    split_ifs with hready
    · exact hi.loadFlag hready
    · exact hi.fail
  | generation =>
    simp only [hreader, Option.some.injEq] at h
    subst h
    split_ifs with hgen
    · exact hi.fail
    · exact hi.loadGeneration hreader (Decidable.not_not.mp hgen)
  | index =>
    simp only [hreader, Option.some.injEq] at h
    subst h
    exact hi.loadIndex hreader
  | sync index =>
    -- Only the last load ends a look-up, and only it can be torn.
    simp only [hreader, Option.some.injEq] at h
    subst h
    exact hi.loadSync hreader (hguard (by rw [hreader]; rfl))

/-- A reallocation forgets every submission and every call that has passed the generation check. -/
theorem reallocate (hi : Inv s) (hguard : s.Untorn (.reallocate width height))
    (h : s.step (.reallocate width height) = some s') : Inv s' := by
  obtain ⟨hidle, rfl⟩ := step_reallocate h
  obtain ⟨hindex, hbetween⟩ := hguard
  -- The guard excludes a call that has passed the generation check.
  have hreader : ∀ r, (if s.reader.isDone then .idle else s.reader) = r →
      r = .idle ∨ r = .flag ∨ r = .generation := by
    rintro r rfl
    cases hr : s.reader with
    | index => exact absurd hr hindex
    | sync index => simp [hr, Reader.isBetween] at hbetween
    | _ => simp [Reader.isDone]
  generalize (if s.reader.isDone then Reader.idle else s.reader) = r at hreader
  have hnew : s.ring.readyGeneration ≠ s.ring.generation + 1 :=
    Nat.ne_of_lt (Nat.lt_succ_of_le hi.readyGeneration)
  rcases hreader r rfl with rfl | rfl | rfl
  all_goals
    exact
      { storing := fun _ _ h => nomatch hidle.symm.trans h
        valid := fun _ h => nomatch h
        readyIndex := fun _ h => by simp [indexStores] at h
        readySync := fun _ h => by simp [syncStores] at h
        readyGeneration := Nat.le_succ_of_le hi.readyGeneration
        hasReady := fun h => nomatch h
        since := Nat.zero_le _
        flagged := fun _ hgen => absurd hgen hnew
        checked := fun h => nomatch h
        loaded := fun _ h => nomatch h
        between := fun h => nomatch h
        coherent := fun _ _ h => nomatch h }

/-- Every step keeps the invariant, unless it makes a look-up torn. -/
theorem step (hi : Inv s) {a : Action} (hguard : s.Untorn a) (h : s.step a = some s') : Inv s' := by
  cases a with
  | submit x => exact hi.submit h
  | store =>
    obtain ⟨x, next, hsub, rfl⟩ := step_store h
    cases next with
    | index => exact hi.storeIndex hsub
    | generation => exact hi.storeGeneration hsub
    | sync => exact hi.storeSync hsub (hguard (by rw [hsub]; rfl))
    | flag => exact hi.storeFlag hsub
  | call => exact hi.call h
  | load => exact hi.load hguard h
  | reallocate width height => exact hi.reallocate hguard h

end Inv

/-- A call returns the pair of one submission when neither thread is overtaken half way. -/
theorem coherent_of_untorn {slotCount : ℕ} {as : List Action}
    (h : Machine.Run machine Untorn (init slotCount) as s) : s.Coherent :=
  (h.invariant (I := Inv) (Inv.init slotCount) fun _ _ _ hi hguard hstep =>
    hi.step hguard hstep).coherent

/-! ### A thread that is left alone -/

/-- The four stores of a submission together are `acceptSubmit`. -/
theorem submit_eq_acceptSubmit (hidle : s.submitter = .idle)
    (haccept : (s.ring.acceptSubmit x.index x.generation x.syncValue).1 = true) :
    ∃ s', Machine.Run machine Machine.always s [.submit x, .store, .store, .store, .store] s' ∧
      s'.submitter = .idle ∧
      s'.ring = (s.ring.acceptSubmit x.index x.generation x.syncValue).2 := by
  unfold SurfaceRing.acceptSubmit at haccept ⊢
  split_ifs at haccept ⊢ with hgen hslot
  have hsubmit : s.step (.submit x) =
      some { s with submitter := .storing x .index, accepted := s.accepted ++ [x] } := by
    simp [step, hidle, hgen, hslot]
  exact ⟨_, .cons trivial hsubmit (.cons trivial rfl (.cons trivial rfl (.cons trivial rfl
    (.cons trivial rfl (.nil _))))), rfl, rfl⟩

/-- The loads of a call together are `latestReady`. -/
theorem call_eq_latestReady (hdone : s.reader.isDone = true) :
    ∃ loads s', Machine.Run machine Machine.always s (.call :: List.replicate loads .load) s' ∧
      s'.reader.isDone = true ∧ s'.reader.result = s.ring.latestReady := by
  have hcall : s.step .call = some { s with reader := .flag, since := s.completed } := by
    simp [step, hdone]
  cases hready : s.ring.hasReady with
  | false =>
    have hflag : step { s with reader := .flag, since := s.completed } .load =
        some { s with reader := .idle, since := s.completed } := by
      simp [step, stepLoad, hready]
    refine ⟨1, _, .cons trivial hcall (.cons trivial hflag (.nil _)), rfl, ?_⟩
    simp [Reader.result, SurfaceRing.latestReady, hready]
  | true =>
    have hflag : step { s with reader := .flag, since := s.completed } .load =
        some { s with reader := .generation, since := s.completed } := by
      simp [step, stepLoad, hready]
    -- A flag that is up is followed by the generation check.
    by_cases hgen : s.ring.readyGeneration = s.ring.generation
    · have hgeneration : step { s with reader := .generation, since := s.completed } .load =
          some { s with reader := .index, since := s.completed } := by
        simp [step, stepLoad, hgen]
      refine ⟨4, _, .cons trivial hcall (.cons trivial hflag (.cons trivial hgeneration
        (.cons trivial rfl (.cons trivial rfl (.nil _))))), rfl, ?_⟩
      simp [Reader.result, SurfaceRing.latestReady, hready, hgen]
    · have hgeneration : step { s with reader := .generation, since := s.completed } .load =
          some { s with reader := .idle, since := s.completed } := by
        simp [step, stepLoad, hgen]
      refine ⟨2, _, .cons trivial hcall (.cons trivial hflag (.cons trivial hgeneration
        (.nil _))), rfl, ?_⟩
      simp [Reader.result, SurfaceRing.latestReady, hready, hgen]

/-! ### Runs with two submissions of one generation -/

/-- The surfaces are allocated and the frame in slot 0 is submitted. -/
def submitSlot0 : List Action :=
  [.reallocate 64 64, .submit ⟨0, 1, 10⟩, .store, .store, .store, .store]

/-- The frame in slot 1 is submitted while a call waits between its generation check and its index
load, and a third submission begins before the call loads the sync value. -/
def overtakenCall : List Action :=
  submitSlot0 ++ [.call, .load, .load, .submit ⟨1, 1, 20⟩, .store, .store, .store, .store, .load,
    .submit ⟨2, 1, 30⟩, .store, .load]

/-- A whole call comes between the index store and the sync store of the second submission. -/
def callBetweenStores : List Action :=
  submitSlot0 ++ [.submit ⟨1, 1, 20⟩, .store, .call, .load, .load, .load, .load]

/-- A look-up is overtaken by a submission and returns the older frame. -/
theorem coherent_of_untorn_overtakenCall :
    ∃ s, Machine.Run machine Untorn (init 3) overtakenCall s ∧ s.reader = .returned 1 20 ∧
      s.Coherent := by
  have hend : ∃ s, Machine.Run machine Untorn (init 3) overtakenCall s ∧
      s.reader = .returned 1 20 :=
    Machine.exists_run (by decide +kernel)
  obtain ⟨s, hrun, hreader⟩ := hend
  exact ⟨s, hrun, hreader, coherent_of_untorn hrun⟩

/-- The call returns the new index with the old sync value. -/
theorem mixed_pair :
    ∃ s, Machine.Run machine Machine.always (init 3) callBetweenStores s ∧
      s.reader = .returned 1 10 ∧ s.accepted = [⟨0, 1, 10⟩, ⟨1, 1, 20⟩] ∧ ¬s.Coherent := by
  have hend :
      ∃ s, Machine.Run machine Machine.always (init 3) callBetweenStores s ∧
        s.reader = .returned 1 10 ∧ s.accepted = [⟨0, 1, 10⟩, ⟨1, 1, 20⟩] :=
    Machine.exists_run (by decide +kernel)
  obtain ⟨s, hrun, hreader, haccepted⟩ := hend
  refine ⟨s, hrun, hreader, haccepted, fun hcoherent => ?_⟩
  obtain ⟨-, k, x, hx, -, hindex, hsync, -⟩ := hcoherent 1 10 hreader
  have hmem := List.mem_of_getElem? hx
  rw [haccepted] at hmem
  -- Neither submission has slot 1 and value 10.
  rcases List.mem_cons.mp hmem with rfl | hmem
  · exact absurd hindex (by decide)
  · obtain rfl := List.mem_singleton.mp hmem
    exact absurd hsync (by decide)

end Threads

end RingThreads

end RetroPark
