import RetroPark.Audio.XAudio2Output
import Mathlib.Algebra.Order.BigOperators.Group.List
import Mathlib.Algebra.Order.Group.Nat
import Mathlib.Tactic.Set
import Mathlib.Tactic.SplitIfs

/-!
# The backlog of the audio output

The frames that `queued_frames_` counts, over every interleaving of the producer and the callbacks.

* `unfinished` are the slots given out and not yet freed, and `outstanding` the buffers added to the
  counter and not yet subtracted from it;
* `Inv` is the invariant: the slots are distinct, the counter is the sum of what is outstanding, and
  what the producer may still add fits below the target;
* `accounting_exact` draws from it what holds in every state of a run.
-/

namespace RetroPark.Audio

/-! ### Machine words -/

/-- A number below `2 ^ 32` fits the counter. -/
theorem ofNat_toNat {n : ℕ} (h : n < 2 ^ 32) : (UInt32.ofNat n).toNat = n := by
  rw [UInt32.toNat_ofNat', Nat.mod_eq_of_lt h]

/-- The subtraction does not clamp when the counter holds what is subtracted. -/
theorem toNat_saturatingSub {q : UInt32} {n : ℕ} (h : n ≤ q.toNat) :
    (XAudio2Output.saturatingSub q n).toNat = q.toNat - n := by
  have hq := q.toNat_lt
  unfold XAudio2Output.saturatingSub
  by_cases hlt : n < q.toNat
  · have hn : (UInt32.ofNat n).toNat = n := ofNat_toNat (by omega)
    rw [if_pos hlt, UInt32.toNat_sub_of_le, hn]
    rw [UInt32.le_iff_toNat_le, hn]
    exact h
  · rw [if_neg hlt]
    change 0 = q.toNat - n
    omega

/-- `want_frames` returns what is missing of the target. -/
theorem toNat_wantFrames (o : XAudio2Output) (q : UInt32) :
    (o.wantFrames q).1.toNat = o.targetFrames.toNat - q.toNat := by
  unfold XAudio2Output.wantFrames
  by_cases hfull : o.targetFrames ≤ q
  · rw [if_pos hfull]
    rw [UInt32.le_iff_toNat_le] at hfull
    change 0 = o.targetFrames.toNat - q.toNat
    omega
  · rw [if_neg hfull]
    rw [UInt32.le_iff_toNat_le] at hfull
    apply UInt32.toNat_sub_of_le
    rw [UInt32.le_iff_toNat_le]
    omega

/-- The telemetry of `want_frames` is all it writes. -/
theorem wantFrames_eq (o : XAudio2Output) (q : UInt32) : ∃ minQueued starvations,
    (o.wantFrames q).2 = { o with minQueued := minQueued, starvations := starvations } := by
  unfold XAudio2Output.wantFrames
  by_cases hstarted : o.started = true
  · exact ⟨_, _, if_pos hstarted⟩
  · exact ⟨o.minQueued, o.starvations, if_neg hstarted⟩

/-- An addition that does not wrap around adds. -/
theorem toNat_fetchAdd {o : XAudio2Output} {n : ℕ} (h : o.queuedFrames.toNat + n < 2 ^ 32) :
    (o.fetchAdd n).queuedFrames.toNat = o.queuedFrames.toNat + n := by
  unfold XAudio2Output.fetchAdd
  rw [UInt32.toNat_add, ofNat_toNat (by omega), Nat.mod_eq_of_lt h]

/-! ### What a thread holds -/

namespace Producer

/-- The submission in progress that has a slot. -/
def holds : Producer → List Submitted
  | .picked _ b | .filled b | .added b | .rejected b => [b]
  | _ => []

/-- The submission in progress whose samples are in its slot. -/
def filledBuffer : Producer → List Submitted
  | .filled b | .added b | .rejected b => [b]
  | _ => []

/-- The submission in progress that the counter includes. -/
def owes : Producer → List Submitted
  | .added b | .rejected b | .released b | .subtracting b _ => [b]
  | _ => []

/-- The frames of the submission in progress that the counter does not yet include. -/
def reserved : Producer → ℕ
  | .picked _ b | .filled b => b.numFrames
  | _ => 0

/-- The frames a failed submission is about to take off the counter. -/
def subtrahend : Producer → List ℕ
  | .released b | .subtracting b _ => [b.numFrames]
  | _ => []

/-- Whether no `submit` is in progress. -/
def isQuiet : Producer → Bool
  | .idle | .wanting _ => true
  | _ => false

end Producer

namespace Stage

/-- What `on_buffer_end` is about to take off the counter. -/
def subtrahend : Stage → List ℕ
  | .live => []
  | .freed n | .subtracting n _ => [n.toNat]

end Stage

/-- The buffers that are still on the voice. -/
def onVoice (playing : List Playing) : List Submitted :=
  (playing.filter (·.stage = .live)).map Playing.buffer

/-- The order of the playing buffers does not matter for what is on the voice. -/
theorem onVoice_perm {l l' : List Playing} (h : l.Perm l') : (onVoice l).Perm (onVoice l') :=
  (h.filter _).map _

/-! ### The pool -/

/-- What the pool is while the buffers `held` have a slot and those of `filled` have their samples
in it. -/
structure Pool (o : XAudio2Output) (held filled : List Submitted) : Prop where
  exclusive : (held.map Submitted.slot).Nodup
  inUse : ∀ b ∈ held, b.slot < kPoolSize ∧ o.inUse b.slot = true
  /-- A slot in use that no buffer holds is one an earlier session has left behind. -/
  leftover : ∀ slot, o.inUse slot = true → slot ∉ held.map Submitted.slot → o.bufs slot = []
  filled : ∀ b ∈ filled, (o.bufs b.slot).length = b.numFrames * o.channels.toNat

namespace Pool

variable {o : XAudio2Output} {held held' filled filled' : List Submitted} {b : Submitted}

/-- The order of the buffers does not matter for the pool. -/
theorem perm (h : Pool o held filled) (hheld : held.Perm held') (hfilled : filled.Perm filled') :
    Pool o held' filled' where
  exclusive := (hheld.map _).nodup_iff.mp h.exclusive
  inUse := fun b hb => h.inUse b (hheld.mem_iff.mpr hb)
  leftover := fun slot huse hslot =>
    h.leftover slot huse fun hmem => hslot ((hheld.map _).mem_iff.mp hmem)
  filled := fun b hb => h.filled b (hfilled.mem_iff.mpr hb)

/-- Only the pool itself and the number of channels matter. -/
theorem congr {o' : XAudio2Output} (h : Pool o held filled) (hbufs : o'.bufs = o.bufs)
    (huse : o'.inUse = o.inUse) (hchannels : o'.channels = o.channels) : Pool o' held filled where
  exclusive := h.exclusive
  inUse := huse ▸ h.inUse
  leftover := by
    rw [huse, hbufs]
    exact h.leftover
  filled := by
    rw [hchannels, hbufs]
    exact h.filled

/-- An output that has just been opened has a free pool. -/
theorem opened (o : XAudio2Output) (sampleRate channels : UInt32) :
    Pool (o.opened sampleRate channels) [] [] where
  exclusive := List.nodup_nil
  inUse := nofun
  leftover := fun _ _ _ => rfl
  filled := nofun

/-- A slot that is not in use is held by no buffer. -/
theorem take (h : Pool o held filled) (hlt : b.slot < kPoolSize)
    (hfree : o.inUse b.slot = false) : Pool (o.take b.slot) (b :: held) filled where
  exclusive := by
    rw [List.map_cons, List.nodup_cons]
    refine ⟨fun hmem => ?_, h.exclusive⟩
    obtain ⟨b', hb', heq⟩ := List.mem_map.mp hmem
    -- A buffer in the slot would have marked it in use.
    have huse := (h.inUse b' hb').2
    rw [heq, hfree] at huse
    exact nomatch huse
  inUse := by
    intro b' hb'
    rcases List.mem_cons.mp hb' with rfl | hb'
    · exact ⟨hlt, Function.update_self ..⟩
    · obtain ⟨hlt', huse⟩ := h.inUse b' hb'
      refine ⟨hlt', ?_⟩
      unfold XAudio2Output.take
      dsimp only
      rw [Function.update_apply]
      split_ifs
      · rfl
      · exact huse
  leftover := by
    intro slot huse hslot
    rw [List.map_cons, List.mem_cons, not_or] at hslot
    have huse' : o.inUse slot = true := by
      simpa [XAudio2Output.take, Function.update_of_ne hslot.1] using huse
    exact h.leftover slot huse' hslot.2
  filled := h.filled

/-- No other buffer is in the slot of a held one. -/
theorem ne_slot (h : Pool o (b :: held) filled) {b' : Submitted} (hb' : b' ∈ held) :
    b'.slot ≠ b.slot := by
  have hnodup := h.exclusive
  rw [List.map_cons, List.nodup_cons] at hnodup
  intro heq
  apply hnodup.1
  exact heq ▸ List.mem_map_of_mem hb'

/-- Filling a held slot. -/
theorem assign (h : Pool o (b :: held) filled) (hsub : filled ⊆ held) (frames : ℕ → Int16) :
    Pool (o.assign b.slot frames b.numFrames) (b :: held) (b :: filled) where
  exclusive := h.exclusive
  inUse := h.inUse
  leftover := by
    intro slot huse hslot
    have hne : slot ≠ b.slot := by
      intro heq
      apply hslot
      simp [heq]
    unfold XAudio2Output.assign
    dsimp only
    rw [Function.update_of_ne hne]
    exact h.leftover slot huse hslot
  filled := by
    intro b' hb'
    unfold XAudio2Output.assign
    dsimp only
    rcases List.mem_cons.mp hb' with rfl | hb'
    · simp
    · rw [Function.update_of_ne (h.ne_slot (hsub hb'))]
      exact h.filled b' hb'

/-- Freeing the slot of a buffer that has left. -/
theorem release (h : Pool o (b :: held) filled) (hsub : filled' ⊆ filled) :
    Pool (o.release b.slot) held filled' where
  exclusive := by
    have hnodup := h.exclusive
    rw [List.map_cons, List.nodup_cons] at hnodup
    exact hnodup.2
  inUse := by
    intro b' hb'
    obtain ⟨hlt, huse⟩ := h.inUse b' (List.mem_cons_of_mem _ hb')
    refine ⟨hlt, ?_⟩
    unfold XAudio2Output.release
    dsimp only
    rw [Function.update_of_ne (h.ne_slot hb')]
    exact huse
  leftover := by
    intro slot huse hslot
    unfold XAudio2Output.release at huse
    dsimp only at huse
    rw [Function.update_apply] at huse
    -- A slot in use is not the one just freed.
    split_ifs at huse with hne
    refine h.leftover slot huse fun hmem => ?_
    rw [List.map_cons, List.mem_cons] at hmem
    exact hmem.elim hne hslot
  filled := fun b' hb' => h.filled b' (hsub hb')

/-- What `on_buffer_end` reads in a filled slot. -/
theorem bufferEnd (h : Pool o held filled) (hheld : b ∈ held) (hfilled : b ∈ filled)
    (hchannels : 0 < o.channels.toNat) :
    o.bufferEnd b.slot = (UInt32.ofNat b.numFrames, o.release b.slot) := by
  have hne : o.channels ≠ 0 := by
    intro heq
    rw [heq] at hchannels
    exact Nat.lt_irrefl 0 hchannels
  unfold XAudio2Output.bufferEnd
  rw [if_pos (h.inUse b hheld).1, if_pos hne, h.filled b hfilled, Nat.mul_div_cancel _ hchannels]

/-- The slots in use hold the frames of the buffers, and nothing else. -/
theorem inUseFrames (h : Pool o held held) (hchannels : 0 < o.channels.toNat) :
    o.inUseFrames = (held.map Submitted.numFrames).sum := by
  have hframes : ∀ b ∈ held, (o.bufs b.slot).length / o.channels.toNat = b.numFrames := by
    intro b hb
    rw [h.filled b hb, Nat.mul_div_cancel _ hchannels]
  have hsub : (held.map Submitted.slot).toFinset ⊆
      (Finset.range kPoolSize).filter (o.inUse · = true) := by
    intro slot hslot
    obtain ⟨b, hb, rfl⟩ := List.mem_map.mp (List.mem_toFinset.mp hslot)
    exact Finset.mem_filter.mpr ⟨Finset.mem_range.mpr (h.inUse b hb).1, (h.inUse b hb).2⟩
  calc o.inUseFrames
      = ∑ slot ∈ (held.map Submitted.slot).toFinset,
          (o.bufs slot).length / o.channels.toNat := by
        -- A slot in use that no buffer holds has no samples.
        refine (Finset.sum_subset hsub fun slot huse hslot => ?_).symm
        rw [List.mem_toFinset] at hslot
        rw [h.leftover slot (Finset.mem_filter.mp huse).2 hslot]
        exact Nat.zero_div _
    _ = ((held.map Submitted.slot).map fun slot =>
          (o.bufs slot).length / o.channels.toNat).sum := List.sum_toFinset _ h.exclusive
    _ = (held.map Submitted.numFrames).sum := by
        rw [List.map_map]
        exact congrArg List.sum (List.map_congr_left hframes)

end Pool

namespace Session

variable {s s' : Session}

/-- The buffers with a slot of their own. -/
def unfinished (s : Session) : List Submitted := s.producer.holds ++ onVoice s.playing

/-- The buffers that have been added to the counter and not yet been subtracted from it. -/
def outstanding (s : Session) : List Submitted :=
  s.producer.owes ++ s.playing.map Playing.buffer

/-- What the subtractions in progress take off the counter. -/
def subtrahends (s : Session) : List ℕ :=
  s.producer.subtrahend ++ s.playing.flatMap (·.stage.subtrahend)

/-- No `submit` and no `on_buffer_end` is in progress. -/
def Quiet (s : Session) : Prop := s.producer.isQuiet ∧ ∀ p ∈ s.playing, p.stage = .live

/-- The backlog is accounted for exactly. -/
structure Exact (s : Session) : Prop where
  /-- No slot is given to two unfinished buffers. -/
  exclusive : (s.unfinished.map Submitted.slot).Nodup
  counter : s.output.queuedFrames.toNat = (s.outstanding.map Submitted.numFrames).sum
  /-- No subtraction clamps. -/
  unclamped : ∀ n ∈ s.subtrahends, n ≤ s.output.queuedFrames.toNat
  within : s.output.queuedFrames ≤ s.output.targetFrames
  settled : s.Quiet → s.output.queuedFrames.toNat = s.output.inUseFrames

/-- The invariant of the interleaving. -/
structure Inv (s : Session) : Prop where
  channels : 0 < s.output.channels.toNat
  pool : Pool s.output s.unfinished (s.producer.filledBuffer ++ onVoice s.playing)
  done : ∀ p ∈ s.playing, ∀ n ∈ p.stage.subtrahend, n = p.buffer.numFrames
  counter : s.output.queuedFrames.toNat = (s.outstanding.map Submitted.numFrames).sum
  wanted : ∀ q, s.producer = .wanting q → s.output.queuedFrames.toNat ≤ q.toNat
  room : s.output.queuedFrames.toNat + s.producer.reserved + s.budget ≤
    s.output.targetFrames.toNat

/-- The invariant holds when the output has just been opened. -/
theorem Inv.start (o : XAudio2Output) (sampleRate : UInt32) {channels : UInt32}
    (hchannels : 0 < channels.toNat) : Inv (start o sampleRate channels) where
  channels := hchannels
  pool := Pool.opened o sampleRate channels
  done := nofun
  counter := rfl
  wanted := nofun
  room := Nat.zero_le _

namespace Inv

/-- An outstanding buffer is counted. -/
theorem frames_le (h : Inv s) {b : Submitted} (hb : b ∈ s.outstanding) :
    b.numFrames ≤ s.output.queuedFrames.toNat := by
  rw [h.counter]
  exact List.single_le_sum (fun _ _ => Nat.zero_le _) _ (List.mem_map_of_mem hb)

/-- What is to be subtracted is counted. -/
theorem unclamped (h : Inv s) : ∀ n ∈ s.subtrahends, n ≤ s.output.queuedFrames.toNat := by
  intro n hn
  rcases List.mem_append.mp hn with hn | hn
  · -- only a failed submission takes frames off the counter
    cases hp : s.producer with
    | released b | subtracting b q =>
      rw [hp] at hn
      obtain rfl := List.mem_singleton.mp hn
      apply h.frames_le
      simp [outstanding, hp, Producer.owes]
    | _ =>
      rw [hp] at hn
      exact nomatch hn
  · obtain ⟨p, hp, hn⟩ := List.mem_flatMap.mp hn
    rw [h.done p hp n hn]
    apply h.frames_le
    exact List.mem_append_right _ (List.mem_map_of_mem hp)

/-- The counter does not exceed the target. -/
theorem within (h : Inv s) : s.output.queuedFrames ≤ s.output.targetFrames := by
  rw [UInt32.le_iff_toNat_le]
  have hroom := h.room
  omega

/-- When nothing is under way the counter is the number of frames in use. -/
theorem settled (h : Inv s) (hquiet : s.Quiet) :
    s.output.queuedFrames.toNat = s.output.inUseFrames := by
  have hlive : onVoice s.playing = s.playing.map Playing.buffer := by
    unfold onVoice
    rw [List.filter_eq_self.mpr fun p hp => decide_eq_true (hquiet.2 p hp)]
  have hpool := h.pool
  have hcounter := h.counter
  unfold unfinished at hpool
  unfold outstanding at hcounter
  have hproducer := hquiet.1
  cases hp : s.producer with
  | idle | wanting q =>
    rw [hp, hlive] at hpool
    rw [hp] at hcounter
    rw [hcounter, hpool.inUseFrames h.channels]
    rfl
  | _ =>
    rw [hp] at hproducer
    exact nomatch hproducer

/-- In every reachable state the accounting is exact. -/
theorem exact (h : Inv s) : Exact s where
  exclusive := h.pool.exclusive
  counter := h.counter
  unclamped := h.unclamped
  within := h.within
  settled := h.settled

/-- The order in which the buffers are listed does not matter. -/
theorem perm (h : Inv s) {playing : List Playing} (hperm : s.playing.Perm playing) :
    Inv { s with playing := playing } where
  channels := h.channels
  pool := h.pool.perm ((onVoice_perm hperm).append_left _) ((onVoice_perm hperm).append_left _)
  done := fun p hp => h.done p (hperm.mem_iff.mpr hp)
  counter := h.counter.trans (((hperm.map _).append_left _).map _).sum_eq
  wanted := h.wanted
  room := h.room

/-! ### The producer -/

variable {o : XAudio2Output} {b : Submitted} {budget : ℕ} {playing : List Playing} {q : UInt32}

/-- `want_frames` keeps the invariant. -/
theorem wantFrames (h : Inv ⟨o, .idle, budget, playing⟩) :
    Inv ⟨o, .wanting o.queuedFrames, budget, playing⟩ where
  channels := h.channels
  pool := h.pool
  done := h.done
  counter := h.counter
  wanted := fun _ hq => (Producer.wanting.inj hq) ▸ le_rfl
  room := h.room

/-- The counter has only gone down since it was loaded, so what is returned still fits. -/
theorem wantReturn (h : Inv ⟨o, .wanting q, budget, playing⟩) :
    Inv ⟨(o.wantFrames q).2, .idle, (o.wantFrames q).1.toNat, playing⟩ := by
  have hroom := h.room
  have hwanted : o.queuedFrames.toNat ≤ q.toNat := h.wanted q rfl
  obtain ⟨minQueued, starvations, heq⟩ := wantFrames_eq o q
  rw [heq, toNat_wantFrames]
  refine ⟨h.channels, h.pool.congr rfl rfl rfl, h.done, h.counter, nofun, ?_⟩
  dsimp only [Producer.reserved] at hroom ⊢
  omega

/-- The beginning of a `submit` within the budget keeps the invariant. -/
theorem submit (h : Inv ⟨o, .idle, budget, playing⟩) {numFrames : ℕ} (hle : numFrames ≤ budget)
    (frames : Option (ℕ → Int16)) :
    Inv { submit frames numFrames
      ⟨o, .idle, budget, playing⟩ with budget := budget - numFrames } := by
  have hroom := h.room
  -- Frames that are not queued leave the budget all the same.
  have hless : Inv ⟨o, .idle, budget - numFrames, playing⟩ := by
    refine ⟨h.channels, h.pool, h.done, h.counter, nofun, ?_⟩
    dsimp only [Producer.reserved] at hroom ⊢
    omega
  unfold Session.submit
  cases frames with
  | none => exact hless
  | some frames =>
    dsimp only
    split_ifs
    · exact hless
    · cases hslot : audioPickFreeSlot o.inUse kPoolSize with
      | none => exact hless
      | some slot =>
        obtain ⟨hlt, hfree⟩ := audioPickFreeSlot_spec hslot
        -- The slot picked is free, so the buffer has it for itself.
        have hpool := h.pool.take (b := ⟨slot, numFrames⟩) hlt hfree
        refine ⟨h.channels, hpool, h.done, h.counter, nofun, ?_⟩
        dsimp only [Producer.reserved, XAudio2Output.take] at hroom ⊢
        omega

/-- Filling the slot keeps the invariant. -/
theorem fill {frames : ℕ → Int16} (h : Inv ⟨o, .picked frames b, budget, playing⟩) :
    Inv ⟨o.assign b.slot frames b.numFrames, .filled b, budget, playing⟩ where
  channels := h.channels
  pool := h.pool.assign (List.Subset.refl _) frames
  done := h.done
  counter := h.counter
  wanted := nofun
  room := h.room

/-- Counting the frames keeps the invariant. -/
theorem add (h : Inv ⟨o, .filled b, budget, playing⟩) :
    Inv ⟨o.fetchAdd b.numFrames, .added b, budget, playing⟩ := by
  have hroom := h.room
  have htarget := o.targetFrames.toNat_lt
  have hcounter := h.counter
  dsimp only [Producer.reserved] at hroom
  have hadd : (o.fetchAdd b.numFrames).queuedFrames.toNat = o.queuedFrames.toNat + b.numFrames :=
    toNat_fetchAdd (by omega)
  refine ⟨h.channels, h.pool.congr rfl rfl rfl, h.done, ?_, nofun, ?_⟩
  · dsimp only at hcounter ⊢
    rw [hadd, hcounter, Nat.add_comm]
    rfl
  · dsimp only [Producer.reserved]
    rw [hadd]
    exact hroom

/-- A buffer that the voice accepts keeps the invariant. -/
theorem accept (h : Inv ⟨o, .added b, budget, playing⟩) :
    Inv ⟨o, .submitted, budget, ⟨b, .live⟩ :: playing⟩ where
  channels := h.channels
  pool := h.pool
  done := by
    intro p hp n hn
    rcases List.mem_cons.mp hp with rfl | hp
    · exact nomatch hn
    · exact h.done p hp n hn
  counter := h.counter
  wanted := nofun
  room := h.room

/-- A buffer that the voice rejects keeps the invariant. -/
theorem reject (h : Inv ⟨o, .added b, budget, playing⟩) :
    Inv ⟨o, .rejected b, budget, playing⟩ where
  channels := h.channels
  pool := h.pool
  done := h.done
  counter := h.counter
  wanted := nofun
  room := h.room

/-- Marking the voice as started keeps the invariant. -/
theorem store (h : Inv ⟨o, .submitted, budget, playing⟩) :
    Inv ⟨{ o with started := true }, .idle, budget, playing⟩ where
  channels := h.channels
  pool := h.pool.congr rfl rfl rfl
  done := h.done
  counter := h.counter
  wanted := nofun
  room := h.room

/-- Freeing the slot of a rejected buffer keeps the invariant. -/
theorem releaseSlot (h : Inv ⟨o, .rejected b, budget, playing⟩) :
    Inv ⟨o.release b.slot, .released b, budget, playing⟩ where
  channels := h.channels
  pool := h.pool.release (List.subset_cons_self _ _)
  done := h.done
  counter := h.counter
  wanted := nofun
  room := h.room

/-- Loading the counter keeps the invariant. -/
theorem load (h : Inv ⟨o, .released b, budget, playing⟩) (q : UInt32) :
    Inv ⟨o, .subtracting b q, budget, playing⟩ where
  channels := h.channels
  pool := h.pool
  done := h.done
  counter := h.counter
  wanted := nofun
  room := h.room

/-- Loading the counter again keeps the invariant. -/
theorem reload (h : Inv ⟨o, .subtracting b q, budget, playing⟩) (q' : UInt32) :
    Inv ⟨o, .subtracting b q', budget, playing⟩ where
  channels := h.channels
  pool := h.pool
  done := h.done
  counter := h.counter
  wanted := nofun
  room := h.room

/-- Subtracting a rejected buffer keeps the invariant. -/
theorem rollBack (h : Inv ⟨o, .subtracting b o.queuedFrames, budget, playing⟩) :
    Inv ⟨{ o with queuedFrames := XAudio2Output.saturatingSub o.queuedFrames b.numFrames },
      .idle, budget, playing⟩ := by
  have hle : b.numFrames ≤ o.queuedFrames.toNat :=
    h.unclamped b.numFrames (List.mem_append_left _ (List.mem_singleton_self _))
  have hcounter := h.counter
  have hroom := h.room
  have hsub := toNat_saturatingSub hle
  refine ⟨h.channels, h.pool.congr rfl rfl rfl, h.done, ?_,
    nofun, ?_⟩
  · simp only [outstanding, Producer.owes, List.cons_append, List.nil_append, List.map_cons,
      List.sum_cons] at hcounter ⊢
    omega
  · dsimp only [Producer.reserved] at hroom ⊢
    omega

/-- Every step of the producer keeps the invariant. -/
theorem produce (h : Inv s) (fails : Bool) : Inv (s.produce fails) := by
  obtain ⟨o, producer, budget, playing⟩ := s
  cases producer with
  | idle => exact h
  | wanting q => exact h.wantReturn
  | picked frames b => exact h.fill
  | filled b => exact h.add
  | added b =>
    cases fails with
    | true => exact h.reject
    | false => exact h.accept
  | submitted => exact h.store
  | rejected b => exact h.releaseSlot
  | released b => exact h.load _
  | subtracting b q =>
    unfold Session.produce XAudio2Output.exchange
    dsimp only
    -- The exchange takes effect only on the value it was computed from.
    by_cases hsame : o.queuedFrames = q ∧ fails = false
    · rw [if_pos hsame]
      obtain ⟨rfl, -⟩ := hsame
      exact h.rollBack
    · rw [if_neg hsame]
      exact h.reload _

/-! ### The callbacks -/

variable {producer : Producer} {n : UInt32}

/-- A buffer whose samples are being played has them in its slot. -/
theorem endBuffer (h : Inv ⟨o, producer, budget, ⟨b, .live⟩ :: playing⟩) :
    Inv ⟨(o.bufferEnd b.slot).2, producer, budget,
      ⟨b, .freed (o.bufferEnd b.slot).1⟩ :: playing⟩ := by
  have hpool := h.pool
  have hframes : b.numFrames < 2 ^ 32 := by
    have hle := h.frames_le (b := b) (List.mem_append_right _ List.mem_cons_self)
    exact hle.trans_lt o.queuedFrames.toNat_lt
  have hmem : ∀ l : List Submitted, b ∈ l ++ b :: onVoice playing := fun l =>
    List.mem_append_right _ List.mem_cons_self
  rw [hpool.bufferEnd (hmem _) (hmem _) h.channels]
  -- the slot of `b` is the one that is freed, wherever `b` stands among the unfinished
  have hpool' := hpool.perm List.perm_middle List.perm_middle
  refine ⟨h.channels, hpool'.release (List.subset_cons_self _ _), ?_, h.counter, h.wanted, h.room⟩
  intro p hp n hn
  rcases List.mem_cons.mp hp with rfl | hp
  · obtain rfl := List.mem_singleton.mp hn
    exact ofNat_toNat hframes
  · exact h.done p (List.mem_cons_of_mem _ hp) n hn

/-- The stage of the first buffer may change as long as it subtracts the same. -/
theorem done_restaged {o : XAudio2Output} {stage stage' : Stage}
    (h : Inv ⟨o, producer, budget, ⟨b, stage⟩ :: playing⟩)
    (hsame : stage'.subtrahend = stage.subtrahend) :
    ∀ p ∈ (⟨b, stage'⟩ :: playing : List Playing), ∀ m ∈ p.stage.subtrahend,
      m = p.buffer.numFrames := by
  intro p hp m hm
  rcases List.mem_cons.mp hp with rfl | hp
  · exact h.done _ List.mem_cons_self m (hsame ▸ hm)
  · exact h.done p (List.mem_cons_of_mem _ hp) m hm

/-- A buffer that has ended may load the counter. -/
theorem restage (h : Inv ⟨o, producer, budget, ⟨b, .freed n⟩ :: playing⟩) (q : UInt32) :
    Inv ⟨o, producer, budget, ⟨b, .subtracting n q⟩ :: playing⟩ where
  channels := h.channels
  pool := h.pool
  done := h.done_restaged rfl
  counter := h.counter
  wanted := h.wanted
  room := h.room

/-- What it has loaded does not matter for the invariant. -/
theorem unstage (h : Inv ⟨o, producer, budget, ⟨b, .subtracting n q⟩ :: playing⟩) :
    Inv ⟨o, producer, budget, ⟨b, .freed n⟩ :: playing⟩ where
  channels := h.channels
  pool := h.pool
  done := h.done_restaged rfl
  counter := h.counter
  wanted := h.wanted
  room := h.room

/-- Subtracting a buffer that has ended keeps the invariant. -/
theorem subtract (h : Inv ⟨o, producer, budget, ⟨b, .freed n⟩ :: playing⟩) :
    Inv ⟨{ o with queuedFrames := XAudio2Output.saturatingSub o.queuedFrames n.toNat }, producer,
      budget, playing⟩ := by
  have hdone : n.toNat = b.numFrames :=
    h.done _ List.mem_cons_self _ (List.mem_singleton_self _)
  -- The counter covers the buffer, so nothing is clamped.
  have hle : n.toNat ≤ o.queuedFrames.toNat := by
    rw [hdone]
    exact h.frames_le (List.mem_append_right _ List.mem_cons_self)
  have hsub := toNat_saturatingSub hle
  have hcounter := h.counter
  have hroom := h.room
  refine ⟨h.channels, h.pool.congr rfl rfl rfl, fun p hp => h.done p (List.mem_cons_of_mem _ hp),
    ?_, ?_, ?_⟩
  · simp only [outstanding, List.map_append, List.map_cons, List.sum_append, List.sum_cons]
      at hcounter ⊢
    omega
  · intro q hq
    have hwanted := h.wanted q hq
    dsimp only at hwanted ⊢
    omega
  · dsimp only at hroom ⊢
    omega

/-- A buffer of no frames is gone without a subtraction. -/
theorem forget (h : Inv ⟨o, producer, budget, ⟨b, .freed 0⟩ :: playing⟩) :
    Inv ⟨o, producer, budget, playing⟩ := by
  have hdone : 0 = b.numFrames := h.done _ List.mem_cons_self _ (List.mem_singleton_self _)
  have hcounter := h.counter
  refine ⟨h.channels, h.pool, fun p hp => h.done p (List.mem_cons_of_mem _ hp), ?_, h.wanted,
    h.room⟩
  simp only [outstanding, List.map_append, List.map_cons, List.sum_append, List.sum_cons]
    at hcounter ⊢
  omega

/-- Every step of the voice's thread keeps the invariant. -/
theorem finish (h : Inv s) {i : ℕ} {p : Playing} (hp : s.playing[i]? = some p) (spurious : Bool) :
    Inv (s.finish i p spurious) := by
  obtain ⟨o, producer, budget, playing⟩ := s
  obtain ⟨hi, rfl⟩ := List.getElem?_eq_some_iff.mp hp
  -- the buffer may as well be the first of the list
  have hfirst := h.perm (List.getElem_cons_eraseIdx_perm hi).symm
  have hback : ∀ {o' : XAudio2Output} {p' : Playing},
      Inv ⟨o', producer, budget, p' :: playing.eraseIdx i⟩ →
        Inv ⟨o', producer, budget, playing.set i p'⟩ := fun h' =>
    h'.perm (List.set_perm_cons_eraseIdx hi _).symm
  generalize playing[i] = p at *
  obtain ⟨b, stage⟩ := p
  cases stage with
  | live => exact hback hfirst.endBuffer
  | freed n =>
    unfold Session.finish
    dsimp only
    by_cases hzero : n = 0
    · rw [if_pos hzero]
      subst hzero
      exact hfirst.forget
    · rw [if_neg hzero]
      exact hback (hfirst.restage _)
  | subtracting n q =>
    unfold Session.finish XAudio2Output.exchange
    dsimp only
    by_cases hsame : o.queuedFrames = q ∧ spurious = false
    · rw [if_pos hsame]
      obtain ⟨rfl, -⟩ := hsame
      exact hfirst.unstage.subtract
    · rw [if_neg hsame]
      exact hback (hfirst.unstage.restage _)

/-- Every step keeps the invariant. -/
theorem step (h : Inv s) {a : Action} (hstep : machine.step s a = some s') : Inv s' := by
  obtain ⟨o, producer, budget, playing⟩ := s
  cases a with
  | wantFrames =>
    cases producer with
    | idle =>
      obtain rfl := Option.some.inj hstep
      exact h.wantFrames
    | _ => exact nomatch hstep
  | submit frames numFrames =>
    cases producer with
    | idle =>
      unfold machine at hstep
      dsimp only at hstep
      split_ifs at hstep with hle
      obtain rfl := Option.some.inj hstep
      exact h.submit hle.2 frames
    | _ => exact nomatch hstep
  | produce fails =>
    obtain rfl := Option.some.inj hstep
    exact h.produce fails
  | finish i spurious =>
    obtain ⟨p, hp, rfl⟩ := Option.map_eq_some_iff.mp hstep
    exact h.finish hp spurious

end Inv

/-- The backlog is accounted for in every state of every interleaving, whatever earlier session the
output was opened after. -/
theorem accounting_exact (o : XAudio2Output) (sampleRate channels : UInt32)
    (hchannels : channels ≠ 0) {as : List Action} {s : Session}
    (hrun : Machine.Run machine Machine.always (start o sampleRate channels) as s) : s.Exact := by
  have hpos : 0 < channels.toNat := by
    rw [Nat.pos_iff_ne_zero]
    exact fun hzero => hchannels (UInt32.toNat_inj.mp hzero)
  exact (hrun.invariant (Inv.start o sampleRate hpos) fun _ _ _ h _ hstep => h.step hstep).exact

/-- A buffer ends while the next one, which the voice refuses, is being submitted into its slot: the
counter is loaded by the one call before the other has exchanged it. -/
def overlap : List Action :=
  [.wantFrames, .produce false,
    .submit (some fun _ => 0) 3, .produce false, .produce false, .produce false, .produce false,
    .finish 0 false,
    .submit (some fun _ => 7) 2, .produce false, .produce false, .produce true, .produce false,
    .finish 0 false, .produce false, .finish 0 false, .produce false, .produce false]

/-- Two buffers end while a third is submitted, and the counter ends at zero. -/
theorem accounting_exact_overlap :
    ∃ s, Machine.Run machine Machine.always (start {} 48000 2) overlap s ∧
      s.output.queuedFrames = 0 ∧ s.playing = [] ∧ s.Exact := by
  have hend : ∃ s, Machine.Run machine Machine.always (start {} 48000 2) overlap s ∧
      s.output.queuedFrames = 0 ∧ s.playing = [] :=
    Machine.exists_run (by decide +kernel)
  obtain ⟨s, hrun, hqueued, hplaying⟩ := hend
  exact ⟨s, hrun, hqueued, hplaying, accounting_exact {} 48000 2 (by decide) hrun⟩

end Session

end RetroPark.Audio
