import RetroPark.Support.Machine
import Mathlib.Algebra.BigOperators.Group.Finset.Basic
import Mathlib.Algebra.Ring.Nat
import Mathlib.Data.List.Perm.Basic
import Mathlib.Logic.Function.Basic

/-!
# The audio output

`XAudio2Output` keeps a pool of `kPoolSize` sample buffers and counts the frames that are queued on
the source voice. The producer calls `want_frames` and `submit`; the voice calls `on_buffer_end` on
a thread of its own. The flags of the pool are behind a mutex and the counter is a lone atomic, so
the two calls interleave between their locked blocks and their loads, additions and exchanges.

* the definitions on `XAudio2Output` are the blocks a thread runs without being overtaken;
* `Producer` and `Playing` say how far the two calls have come;
* `Session.machine` interleaves them from an open output on.
-/

namespace RetroPark.Audio

/-- `kPoolSize` -/
def kPoolSize : ℕ := 16

/-- `audio_pick_free_slot`: the first of the `n` slots that is not in use. -/
def audioPickFreeSlot (inUse : ℕ → Bool) (n : ℕ) : Option ℕ := (List.range n).find? (!inUse ·)

theorem audioPickFreeSlot_spec {inUse : ℕ → Bool} {n slot : ℕ}
    (h : audioPickFreeSlot inUse n = some slot) : slot < n ∧ inUse slot = false := by
  refine ⟨?_, ?_⟩
  · exact List.mem_range.mp (List.mem_of_find?_eq_some h)
  · simpa using List.find?_some h

/-- The fields of `XAudio2Output` that its calls share, and its telemetry. -/
structure XAudio2Output where
  channels : UInt32 := 2
  bufs : ℕ → List Int16 := fun _ => []
  inUse : ℕ → Bool := fun _ => false
  targetFrames : UInt32 := 1920
  queuedFrames : UInt32 := 0
  minQueued : UInt32 := 0xFFFFFFFF
  starvations : UInt32 := 0
  started : Bool := false

namespace XAudio2Output

/-- `open`, when the calls of the audio engine succeed. The flags of the pool stay as they are. -/
def opened (o : XAudio2Output) (sampleRate channels : UInt32) : XAudio2Output :=
  { o with
    channels := channels
    targetFrames := if sampleRate ≠ 0 then sampleRate * 40 / 1000 else 1920
    queuedFrames := 0
    minQueued := 0xFFFFFFFF
    starvations := 0
    started := false
    bufs := fun _ => [] }

/-- The rest of `want_frames`, which has loaded `q`: the telemetry, and the number it returns. -/
def wantFrames (o : XAudio2Output) (q : UInt32) : UInt32 × XAudio2Output :=
  (if o.targetFrames ≤ q then 0 else o.targetFrames - q,
    if o.started then
      { o with
        minQueued := if q < o.minQueued then q else o.minQueued
        starvations := if q = 0 then o.starvations + 1 else o.starvations }
    else o)

/-- The slot `submit` takes under the lock. -/
def take (o : XAudio2Output) (slot : ℕ) : XAudio2Output :=
  { o with inUse := Function.update o.inUse slot true }

/-- `in_use_[slot] = false` -/
def release (o : XAudio2Output) (slot : ℕ) : XAudio2Output :=
  { o with inUse := Function.update o.inUse slot false }

/-- `bufs_[slot].assign(frames, frames + samples)` -/
def assign (o : XAudio2Output) (slot : ℕ) (frames : ℕ → Int16) (numFrames : ℕ) : XAudio2Output :=
  { o with
    bufs := Function.update o.bufs slot
      ((List.range (numFrames * o.channels.toNat)).map frames) }

/-- `queued_frames_.fetch_add((uint32_t)num_frames)` -/
def fetchAdd (o : XAudio2Output) (numFrames : ℕ) : XAudio2Output :=
  { o with queuedFrames := o.queuedFrames + UInt32.ofNat numFrames }

/-- The value a successful exchange stores: `q > n ? q - n : 0`. -/
def saturatingSub (q : UInt32) (n : ℕ) : UInt32 := if n < q.toNat then q - UInt32.ofNat n else 0

/-- `queued_frames_.compare_exchange_weak`, which fails when the counter is not `q`, and may fail
when `spurious` holds; a failure returns the counter. -/
def exchange (o : XAudio2Output) (spurious : Bool) (q : UInt32) (n : ℕ) :
    Except UInt32 XAudio2Output :=
  if o.queuedFrames = q ∧ spurious = false then .ok { o with queuedFrames := saturatingSub q n }
  else .error o.queuedFrames

/-- The block of `on_buffer_end` under the lock: the frames that are done, and the output with the
slot free. -/
def bufferEnd (o : XAudio2Output) (slot : ℕ) : UInt32 × XAudio2Output :=
  if slot < kPoolSize then
    (if o.channels ≠ 0 then UInt32.ofNat ((o.bufs slot).length / o.channels.toNat) else 0,
      o.release slot)
  else (0, o)

/-- The frames in the slots in use. -/
def inUseFrames (o : XAudio2Output) : ℕ :=
  ∑ slot ∈ (Finset.range kPoolSize).filter (o.inUse · = true),
    (o.bufs slot).length / o.channels.toNat

end XAudio2Output

/-- A submission that was given a slot. -/
structure Submitted where
  slot : ℕ
  numFrames : ℕ
  deriving DecidableEq, Repr

/-- How far the producer has come in its call. -/
inductive Producer
  | idle
  /-- `want_frames` has loaded the counter. -/
  | wanting (q : UInt32)
  /-- `submit` has a slot. -/
  | picked (frames : ℕ → Int16) (b : Submitted)
  | filled (b : Submitted)
  | added (b : Submitted)
  /-- `SubmitSourceBuffer` has succeeded. -/
  | submitted
  /-- `SubmitSourceBuffer` has failed. -/
  | rejected (b : Submitted)
  /-- The slot of the failed submission is free again. -/
  | released (b : Submitted)
  /-- The counter has been loaded as `q`. -/
  | subtracting (b : Submitted) (q : UInt32)

/-- Whether the producer is between two calls. -/
def Producer.isIdle : Producer → Bool
  | .idle => true
  | _ => false

/-- How far the voice and its `on_buffer_end` have come with a buffer. -/
inductive Stage
  /-- The buffer is on the voice. -/
  | live
  /-- `on_buffer_end` has freed the slot. -/
  | freed (doneFrames : UInt32)
  /-- The counter has been loaded as `q`. -/
  | subtracting (doneFrames q : UInt32)
  deriving DecidableEq, Repr

/-- A buffer the voice has accepted and `on_buffer_end` is not yet through with. -/
structure Playing where
  buffer : Submitted
  stage : Stage := .live
  deriving DecidableEq, Repr

/-- An open output with its threads. -/
structure Session where
  output : XAudio2Output
  producer : Producer := .idle
  /-- What the last `want_frames` has returned, less what has been submitted since. -/
  budget : ℕ := 0
  playing : List Playing := []

namespace Session

/-- A step of one of the threads. -/
inductive Action
  /-- `want_frames` is called and loads the counter. -/
  | wantFrames
  /-- `submit` is called, and takes a slot unless it returns at once. -/
  | submit (frames : Option (ℕ → Int16)) (numFrames : ℕ)
  /-- The next step of the producer's call; `fails` says whether the voice refuses the buffer, or
  the exchange fails spuriously. -/
  | produce (fails : Bool)
  /-- The next step of `on_buffer_end` for one of the buffers. -/
  | finish (i : ℕ) (spurious : Bool)

/-- An output opened after any earlier use of it. -/
def start (o : XAudio2Output) (sampleRate channels : UInt32) : Session where
  output := o.opened sampleRate channels

/-- The first step of `submit`. -/
def submit (frames : Option (ℕ → Int16)) (numFrames : ℕ) (s : Session) : Session :=
  match frames with
  | none => s
  | some frames =>
    if numFrames = 0 then s
    else
      match audioPickFreeSlot s.output.inUse kPoolSize with
      | none => s
      | some slot =>
        { s with
          output := s.output.take slot
          producer := .picked frames ⟨slot, numFrames⟩ }

/-- The next step of the producer's call. -/
def produce (fails : Bool) (s : Session) : Session :=
  match s.producer with
  | .idle => s
  | .wanting q =>
    { s with
      output := (s.output.wantFrames q).2
      producer := .idle
      budget := (s.output.wantFrames q).1.toNat }
  | .picked frames b =>
    { s with
      output := s.output.assign b.slot frames b.numFrames
      producer := .filled b }
  | .filled b => { s with output := s.output.fetchAdd b.numFrames, producer := .added b }
  | .added b =>
    if fails then { s with producer := .rejected b }
    else { s with producer := .submitted, playing := ⟨b, .live⟩ :: s.playing }
  | .submitted => { s with output.started := true, producer := .idle }
  | .rejected b => { s with output := s.output.release b.slot, producer := .released b }
  | .released b => { s with producer := .subtracting b s.output.queuedFrames }
  | .subtracting b q =>
    match s.output.exchange fails q b.numFrames with
    | .ok o => { s with output := o, producer := .idle }
    | .error q' => { s with producer := .subtracting b q' }

/-- The next step of `on_buffer_end` for the `i`-th buffer, which is `p`. -/
def finish (i : ℕ) (p : Playing) (spurious : Bool) (s : Session) : Session :=
  match p.stage with
  | .live =>
    let (done, o) := s.output.bufferEnd p.buffer.slot
    { s with output := o, playing := s.playing.set i { p with stage := .freed done } }
  | .freed done =>
    if done = 0 then { s with playing := s.playing.eraseIdx i }
    else
      { s with
        playing := s.playing.set i { p with stage := .subtracting done s.output.queuedFrames } }
  | .subtracting done q =>
    match s.output.exchange spurious q done.toNat with
    | .ok o => { s with output := o, playing := s.playing.eraseIdx i }
    | .error q' => { s with playing := s.playing.set i { p with stage := .subtracting done q' } }

/-- The interleaving of a producer that submits no more than `want_frames` has told it to with the
callbacks of the voice. -/
def machine : Machine Session Action where
  step s
    | .wantFrames =>
      if s.producer.isIdle then
        some { s with producer := .wanting s.output.queuedFrames }
      else none
    | .submit frames numFrames =>
      if s.producer.isIdle ∧ numFrames ≤ s.budget then
        some { s.submit frames numFrames with budget := s.budget - numFrames }
      else none
    | .produce fails => some (s.produce fails)
    | .finish i spurious => (s.playing[i]?).map fun p => s.finish i p spurious

end Session

end RetroPark.Audio
