import RetroPark.Render.D3D11.KeyedRing

/-!
# Slots that the core never gets back

The host releases only the slot it presents, which is the one submitted last. A slot that holds a
frame when another is submitted is therefore out of the core's reach for good, unless a present has
already come for it.

* `Lost` is the state of such a slot, and `recoverable_iff` says that every other slot can be
  written again;
* `slots_recoverable_iff` says in which runs no slot is lost.
-/

namespace RetroPark.D3D11.KeyedRing

variable {N : ℕ} {s s' : KeyedRing N} {i slot : Fin N}

/-- The runtime is never paused. -/
def Unpaused (_ : KeyedRing N) (a : Action) : Prop := a ≠ .pause

instance (s : KeyedRing N) (a : Action) : Decidable (Unpaused s a) :=
  inferInstanceAs (Decidable (a ≠ .pause))

/-- The core is about to write the slot. -/
def Writes (s : KeyedRing N) (i : Fin N) : Prop :=
  ∃ s', s.step .acquire = some s' ∧ s'.loop = .drawing i

/-- The slot submitted last. -/
def latestSlot (s : KeyedRing N) : Option ℕ := s.ring.latestReady.map Prod.fst

/-- In some continuation the core writes the slot again. -/
def Recoverable (s : KeyedRing N) (i : Fin N) : Prop :=
  Machine.CanReach (machine N) Unpaused s fun s' => s'.Writes i

/-- The slot holds a frame that is neither the latest nor about to be, and no present has come for
it. -/
structure Lost (s : KeyedRing N) (i : Fin N) : Prop where
  full : s.keyed i = .unheld 1
  loop : s.loop ≠ .submitting i
  host : s.host ≠ .acquiring i
  latest : s.latestSlot ≠ some i.val

/-- A frame in another slot is submitted only once a present has come for the one submitted
before. -/
def Taken (s : KeyedRing N) (a : Action) : Prop :=
  Unpaused s a ∧ (a = .submit → ∀ i : Fin N, s.latestSlot = some i.val → s.loop ≠ .submitting i →
    s.composited i < s.released i → s.host = .acquiring i ∨ s.host = .compositing i)

instance (s : KeyedRing N) (a : Action) : Decidable (Taken s a) :=
  inferInstanceAs (Decidable (_ ∧ (_ = _ → ∀ _ : Fin N, _ = _ → _ ≠ _ → _ < _ → _ ∨ _)))

theorem Inv.latestSlot_stepSubmit (hi : Inv s) :
    (s.stepSubmit slot).latestSlot = some slot.val := by
  rw [latestSlot, hi.latestReady_stepSubmit, Option.map_some]

/-! ### A lost slot stays lost -/

/-- The core acquires only a slot that is empty. -/
theorem not_writes (h : s.keyed i ≠ .unheld 0) : ¬s.Writes i := by
  rintro ⟨s', hstep, hloop⟩
  obtain ⟨htop, rfl⟩ := step_acquire hstep
  by_cases hempty : s.keyed s.cursor = .unheld 0
  · rw [stepAcquire_of_empty hempty] at hloop
    obtain rfl := Loop.drawing.inj hloop
    exact h hempty
  · rw [stepAcquire_of_ne hempty] at hloop
    cases htop.symm.trans hloop

theorem Lost.step (hlost : s.Lost i) (hi : Inv s) (hpaused : s.paused = false) {a : Action}
    (h : s.step a = some s') : s'.Lost i := by
  -- A full slot is neither being drawn in nor being composited.
  obtain ⟨hdrawing, hcompositing, -⟩ := (hi.owned i).of_full hlost.full
  cases a with
  | acquire =>
    obtain ⟨-, rfl⟩ := step_acquire h
    by_cases hempty : s.keyed s.cursor = .unheld 0
    · rw [stepAcquire_of_empty hempty]
      have hne : i ≠ s.cursor := by
        rintro rfl
        exact absurd (hempty.symm.trans hlost.full) (by decide)
      exact { hlost with
        full := (Function.update_of_ne hne ..).trans hlost.full
        loop := by rintro ⟨⟩ }
    · rw [stepAcquire_of_ne hempty]
      exact { hlost with }
  | release =>
    obtain ⟨slot, hloop, rfl⟩ := step_release h
    have hne : i ≠ slot := fun heq => hdrawing (heq ▸ hloop)
    exact
      { hlost with
        full := (Function.update_of_ne hne ..).trans hlost.full
        loop := fun heq => hne (Loop.submitting.inj heq).symm }
  | submit =>
    obtain ⟨slot, hloop, rfl⟩ := step_submit h
    refine { full := hlost.full, loop := by rintro ⟨⟩, host := hlost.host, latest := fun heq => ?_ }
    -- The new latest slot is the one submitted, and that is another.
    rw [hi.latestSlot_stepSubmit] at heq
    exact hlost.loop (Fin.ext (Option.some.inj heq) ▸ hloop)
  | present =>
    obtain ⟨-, rfl⟩ := step_present h
    cases htarget : s.target with
    | none =>
      rw [stepPresent, htarget]
      exact { hlost with }
    | some t =>
      rw [hi.stepPresent_of_some htarget]
      refine { hlost with host := fun heq => ?_ }
      -- A present that is not a repeat comes for the latest slot.
      rw [target, if_neg (by simp [hpaused])] at htarget
      refine hlost.latest ?_
      rw [latestSlot, htarget, ← Host.acquiring.inj heq, Option.map_some]
  | lock =>
    obtain ⟨slot, hhost, rfl⟩ := step_lock h
    by_cases hfull : s.keyed slot = .unheld 1
    · rw [stepLock_of_full hfull]
      have hne : i ≠ slot := fun heq => hlost.host (heq ▸ hhost)
      exact { hlost with
        full := (Function.update_of_ne hne ..).trans hlost.full
        host := by rintro ⟨⟩ }
    · rw [stepLock_of_ne hfull]
      exact { hlost with host := by rintro ⟨⟩ }
  | unlock =>
    obtain ⟨slot, hhost, rfl⟩ := step_unlock h
    have hne : i ≠ slot := fun heq => hcompositing (heq ▸ hhost)
    exact { hlost with
      full := (Function.update_of_ne hne ..).trans hlost.full
      host := by rintro ⟨⟩ }
  | pause => obtain ⟨-, rfl⟩ := step_pause h; exact { hlost with }
  | resume => obtain ⟨-, rfl⟩ := step_resume h; exact { hlost with }

/-- A runtime that has not been paused looks up the frame submitted last. -/
theorem paused_step {a : Action} (hpaused : s.paused = false) (hguard : Unpaused s a)
    (h : s.step a = some s') : s'.paused = false := by
  cases a with
  | acquire =>
    obtain ⟨-, rfl⟩ := step_acquire h
    rw [stepAcquire]
    split <;> exact hpaused
  | release => obtain ⟨slot, -, rfl⟩ := step_release h; exact hpaused
  | submit => obtain ⟨slot, -, rfl⟩ := step_submit h; exact hpaused
  | present =>
    obtain ⟨-, rfl⟩ := step_present h
    rw [stepPresent]
    split
    · exact hpaused
    · split <;> exact hpaused
  | lock =>
    obtain ⟨slot, -, rfl⟩ := step_lock h
    rw [stepLock]
    split <;> exact hpaused
  | unlock => obtain ⟨slot, -, rfl⟩ := step_unlock h; exact hpaused
  | pause => exact absurd rfl hguard
  | resume => obtain ⟨-, rfl⟩ := step_resume h; rfl

/-- The invariant of a run in which the runtime is never paused. -/
structure Live (s : KeyedRing N) : Prop where
  inv : Inv s
  unpaused : s.paused = false

theorem Live.step (hl : Live s) {a : Action} (h : s.step a = some s') (hguard : Unpaused s a) :
    Live s' :=
  ⟨hl.inv.step h, paused_step hl.unpaused hguard h⟩

theorem Live.init (hN : 0 < N) (width height : UInt32) (generation : ℕ) :
    Live (init hN width height generation) :=
  ⟨Inv.init hN width height generation, rfl⟩

/-- What a state reaches after a step that is not the pause, it reaches. -/
theorem Live.canReach_step {P : KeyedRing N → Prop} (hl : Live s) {a : Action} (ha : a ≠ .pause)
    (hstep : s.step a = some s') (h : Live s' → Machine.CanReach (machine N) Unpaused s' P) :
    Machine.CanReach (machine N) Unpaused s P :=
  Machine.CanReach.step ha hstep (h (hl.step hstep ha))

/-- Whatever the two threads do, the core does not write a lost slot. -/
theorem Lost.not_recoverable (hlost : s.Lost i) (hl : Live s) : ¬s.Recoverable i := by
  rintro ⟨as, s', hrun, hwrites⟩
  have hend := hrun.invariant (I := fun t => Live t ∧ t.Lost i) ⟨hl, hlost⟩
    fun _ _ _ ht hguard hstep =>
      ⟨ht.1.step hstep hguard, ht.2.step ht.1.inv ht.1.unpaused hstep⟩
  refine not_writes ?_ hwrites
  rw [hend.2.full]
  decide

/-! ### Every other slot can be written again -/

theorem nextCursor_val (cursor : Fin N) : (nextCursor cursor).val = (cursor.val + 1) % N := rfl

/-- The core can have the slot as soon as its cursor comes round. -/
structure Ready (s : KeyedRing N) (i : Fin N) : Prop where
  live : Live s
  empty : s.keyed i = .unheld 0

/-- The core can finish the round it is in, and the slot stays empty. -/
theorem Ready.canReach_top (hr : s.Ready i) :
    Machine.CanReach (machine N) Unpaused s
      fun t => t.Ready i ∧ t.loop = .top ∧ t.cursor = s.cursor := by
  have hsubmit : ∀ {t : KeyedRing N} {slot}, t.Ready i → t.loop = .submitting slot →
      Machine.CanReach (machine N) Unpaused t
        fun u => u.Ready i ∧ u.loop = .top ∧ u.cursor = t.cursor := by
    intro t slot ht hloop
    have hstep : t.step .submit = some (t.stepSubmit slot) := by simp [step, hloop]
    exact ht.live.canReach_step (by rintro ⟨⟩) hstep fun hlive =>
      .here ⟨⟨hlive, ht.empty⟩, rfl, rfl⟩
  cases hloop : s.loop with
  | top => exact .here ⟨hr, hloop, rfl⟩
  | submitting slot => exact hsubmit hr hloop
  | drawing slot =>
    have hstep : s.step .release = some (s.stepRelease slot) := by simp [step, hloop]
    -- The slot it draws in is held by the core, so it is another.
    have hne : i ≠ slot := by
      rintro rfl
      exact ((hr.live.inv.owned i).of_empty hr.empty).1 hloop
    exact hr.live.canReach_step (by rintro ⟨⟩) hstep fun hlive =>
      hsubmit ⟨hlive, (Function.update_of_ne hne ..).trans hr.empty⟩ rfl

/-- The core comes round to an empty slot. -/
theorem Ready.recoverable (hr : s.Ready i) : s.Recoverable i := by
  -- Induction on how far the cursor is from the slot.
  obtain ⟨d, hd⟩ : ∃ d, (s.cursor.val + d) % N = i.val :=
    ⟨N - s.cursor.val + i.val, by
      rw [← Nat.add_assoc, Nat.add_sub_cancel' (Nat.le_of_lt s.cursor.isLt), Nat.add_mod_left,
        Nat.mod_eq_of_lt i.isLt]⟩
  induction d generalizing s with
  | zero =>
    refine hr.canReach_top.trans fun t ⟨ht, htop, hcursor⟩ => .here ?_
    rw [Nat.add_zero, Nat.mod_eq_of_lt s.cursor.isLt, ← hcursor] at hd
    obtain rfl : t.cursor = i := Fin.ext hd
    exact ⟨_, if_pos htop, by rw [stepAcquire_of_empty ht.empty]⟩
  | succ d ih =>
    refine hr.canReach_top.trans fun t ⟨ht, htop, hcursor⟩ => ?_
    rcases eq_or_ne t.cursor i with rfl | hne
    · exact .here ⟨_, if_pos htop, by rw [stepAcquire_of_empty ht.empty]⟩
    · have hstep : t.step .acquire = some t.stepAcquire := if_pos htop
      have hnext : t.stepAcquire.cursor = nextCursor t.cursor ∧
        t.stepAcquire.keyed i = .unheld 0 := by
        by_cases hempty : t.keyed t.cursor = .unheld 0
        · rw [stepAcquire_of_empty hempty]
          exact ⟨rfl, (Function.update_of_ne hne.symm ..).trans ht.empty⟩
        · rw [stepAcquire_of_ne hempty]
          exact ⟨rfl, ht.empty⟩
      refine ht.live.canReach_step (by rintro ⟨⟩) hstep fun hlive => ih ⟨hlive, hnext.2⟩ ?_
      rw [hnext.1, nextCursor_val, hcursor, Nat.mod_add_mod, Nat.add_assoc, Nat.add_comm 1 d]
      exact hd

/-- The host can finish a composite; the slot it was of is then empty. -/
theorem Live.ready_of_compositing (hl : Live s) (hhost : s.host = .compositing i) :
    Machine.CanReach (machine N) Unpaused s fun t => t.Ready i := by
  have hstep : s.step .unlock = some (s.stepUnlock i) := by simp [KeyedRing.step, hhost]
  exact hl.canReach_step (by rintro ⟨⟩) hstep fun hlive => .here ⟨hlive, Function.update_self ..⟩

/-- A present that has come for a full slot empties it. -/
theorem Live.ready_of_acquiring (hl : Live s) (hhost : s.host = .acquiring i)
    (hfull : s.keyed i = .unheld 1) :
    Machine.CanReach (machine N) Unpaused s fun t => t.Ready i := by
  have hstep : s.step .lock = some (s.stepLock i) := by simp [KeyedRing.step, hhost]
  have hlock := stepLock_of_full hfull
  exact hl.canReach_step (by rintro ⟨⟩) hstep fun hlive =>
    hlive.ready_of_compositing (by rw [hlock])

/-- An idle host can present the slot submitted last. -/
theorem Live.ready_of_latest (hl : Live s) (hhost : s.host = .idle)
    (hlatest : s.latestSlot = some i.val) (hfull : s.keyed i = .unheld 1) :
    Machine.CanReach (machine N) Unpaused s fun t => t.Ready i := by
  obtain ⟨t, ht, hti⟩ := Option.map_eq_some_iff.mp hlatest
  have htarget : s.target = some t := by rw [target, if_neg (by simp [hl.unpaused]), ht]
  have hstep : s.step .present = some s.stepPresent := if_pos hhost
  have hpresent := hl.inv.stepPresent_of_some htarget
  have hslot : (⟨t.1, hl.inv.target_lt htarget⟩ : Fin N) = i := Fin.ext hti
  rw [hslot] at hpresent
  exact hl.canReach_step (by rintro ⟨⟩) hstep fun hlive =>
    hlive.ready_of_acquiring (by rw [hpresent]) (by rw [hpresent]; exact hfull)

/-- A host that is busy with another slot can finish, and the slot stays full. -/
theorem Live.canReach_idle (hl : Live s) (hfull : s.keyed i = .unheld 1)
    (hhost : s.host ≠ .acquiring i) :
    Machine.CanReach (machine N) Unpaused s fun t =>
      Live t ∧ t.host = .idle ∧ t.keyed i = .unheld 1 ∧ t.latestSlot = s.latestSlot := by
  have hunlock : ∀ {t : KeyedRing N} {slot}, Live t → t.keyed i = .unheld 1 →
      t.host = .compositing slot → Machine.CanReach (machine N) Unpaused t fun u =>
        Live u ∧ u.host = .idle ∧ u.keyed i = .unheld 1 ∧ u.latestSlot = t.latestSlot := by
    intro t slot ht hfull hhost
    have hstep : t.step .unlock = some (t.stepUnlock slot) := by simp [KeyedRing.step, hhost]
    have hne : i ≠ slot := fun heq => ((ht.inv.owned i).of_full hfull).2.1 (heq ▸ hhost)
    exact ht.canReach_step (by rintro ⟨⟩) hstep fun hlive =>
      .here ⟨hlive, rfl, (Function.update_of_ne hne ..).trans hfull, rfl⟩
  cases hs : s.host with
  | idle => exact .here ⟨hl, hs, hfull, rfl⟩
  | compositing slot => exact hunlock hl hfull hs
  | acquiring slot =>
    have hne : i ≠ slot := fun heq => hhost (heq ▸ hs)
    have hstep : s.step .lock = some (s.stepLock slot) := by simp [KeyedRing.step, hs]
    refine hl.canReach_step (by rintro ⟨⟩) hstep fun hl' => ?_
    by_cases hslot : s.keyed slot = .unheld 1
    · rw [stepLock_of_full hslot] at hl' ⊢
      exact hunlock hl' ((Function.update_of_ne hne ..).trans hfull) rfl
    · rw [stepLock_of_ne hslot] at hl' ⊢
      exact .here ⟨hl', rfl, hfull, rfl⟩

/-- A slot that the core is not busy with becomes empty, unless it is lost. -/
theorem Live.canReach_ready (hl : Live s) (hdrawing : s.loop ≠ .drawing i)
    (hsubmitting : s.loop ≠ .submitting i) (hlost : ¬s.Lost i) :
    Machine.CanReach (machine N) Unpaused s fun t => t.Ready i := by
  cases hl.inv.owned i with
  | empty hkeyed _ _ _ => exact .here ⟨hl, hkeyed⟩
  | drawing _ hloop _ _ => exact absurd hloop hdrawing
  | compositing _ _ hhost _ => exact hl.ready_of_compositing hhost
  | full hfull _ _ _ =>
    by_cases hhost : s.host = .acquiring i
    · exact hl.ready_of_acquiring hhost hfull
    · have hlatest : s.latestSlot = some i.val := by
        by_contra hne
        exact hlost ⟨hfull, hsubmitting, hhost, hne⟩
      refine (hl.canReach_idle hfull hhost).trans ?_
      rintro t ⟨ht, hidle, hfull, hsame⟩
      exact ht.ready_of_latest hidle (hsame.trans hlatest) hfull

/-- A frame that has been submitted can be presented, and its slot written again. -/
theorem Live.recoverable_of_submitting (hl : Live s) (hloop : s.loop = .submitting i) :
    s.Recoverable i := by
  have hstep : s.step .submit = some (s.stepSubmit i) := by simp [KeyedRing.step, hloop]
  have hready : Machine.CanReach (machine N) Unpaused s fun t => t.Ready i :=
    hl.canReach_step (by rintro ⟨⟩) hstep fun hlive =>
      hlive.canReach_ready (by rintro ⟨⟩) (by rintro ⟨⟩) fun hlost =>
        hlost.latest hl.inv.latestSlot_stepSubmit
  exact hready.trans fun _ ht => ht.recoverable

/-- The slots that can be written again are those that are not lost. -/
theorem Live.recoverable_iff (hl : Live s) : s.Recoverable i ↔ ¬s.Lost i := by
  refine ⟨fun hrec hlost => hlost.not_recoverable hl hrec, fun hlost => ?_⟩
  by_cases hsubmitting : s.loop = .submitting i
  · exact hl.recoverable_of_submitting hsubmitting
  · by_cases hdrawing : s.loop = .drawing i
    · have hstep : s.step .release = some (s.stepRelease i) := by
        simp [KeyedRing.step, hdrawing]
      exact hl.canReach_step (by rintro ⟨⟩) hstep fun hlive => hlive.recoverable_of_submitting rfl
    · exact (hl.canReach_ready hdrawing hsubmitting hlost).trans fun _ ht => ht.recoverable

/-! ### The runs that lose no slot -/

/-- A step loses a slot only by submitting another while nobody has come for it. -/
theorem Lost.of_step (hl : Live s) {a : Action} (hguard : Taken s a) (h : s.step a = some s')
    (hlost : s'.Lost i) : s.Lost i := by
  cases a with
  | acquire =>
    obtain ⟨htop, rfl⟩ := step_acquire h
    by_cases hempty : s.keyed s.cursor = .unheld 0
    · rw [stepAcquire_of_empty hempty] at hlost
      have hne : i ≠ s.cursor := by
        rintro rfl
        cases hlost.full.symm.trans (Function.update_self ..)
      exact
        { hlost with
          full := (Function.update_of_ne hne ..).symm.trans hlost.full
          loop := fun hloop => by cases htop.symm.trans hloop }
    · rw [stepAcquire_of_ne hempty] at hlost
      exact { hlost with }
  | release =>
    obtain ⟨slot, hloop, rfl⟩ := step_release h
    have hne : i ≠ slot := fun heq => hlost.loop (congrArg Loop.submitting heq.symm)
    exact
      { hlost with
        full := (Function.update_of_ne hne ..).symm.trans hlost.full
        loop := fun h => by cases hloop.symm.trans h }
  | submit =>
    obtain ⟨slot, hloop, rfl⟩ := step_submit h
    -- The slot just submitted is the latest, so it is not lost.
    have hne : s.loop ≠ .submitting i := by
      intro heq
      obtain rfl := Loop.submitting.inj (hloop.symm.trans heq)
      exact hlost.latest hl.inv.latestSlot_stepSubmit
    refine { full := hlost.full, loop := hne, host := hlost.host, latest := fun hlatest => ?_ }
    obtain ⟨-, hcompositing, hcount⟩ := (hl.inv.owned i).of_full hlost.full
    -- The slot submitted before has been come for by now.
    rcases hguard.2 rfl i hlatest hne (by omega) with hhost | hhost
    · exact hlost.host hhost
    · exact hcompositing hhost
  | present =>
    obtain ⟨hidle, rfl⟩ := step_present h
    have hhost : s.host ≠ .acquiring i := fun h => by cases hidle.symm.trans h
    cases htarget : s.target with
    | none =>
      rw [stepPresent, htarget] at hlost
      exact { hlost with }
    | some t =>
      rw [hl.inv.stepPresent_of_some htarget] at hlost
      exact { hlost with host := hhost }
  | lock =>
    obtain ⟨slot, hhost, rfl⟩ := step_lock h
    have hne : i ≠ slot ∧ s.keyed i = .unheld 1 := by
      by_cases hfull : s.keyed slot = .unheld 1
      · rw [stepLock_of_full hfull] at hlost
        have hne : i ≠ slot := by
          rintro rfl
          cases hlost.full.symm.trans (Function.update_self ..)
        exact ⟨hne, (Function.update_of_ne hne ..).symm.trans hlost.full⟩
      · rw [stepLock_of_ne hfull] at hlost
        exact ⟨fun heq => hfull (heq ▸ hlost.full), hlost.full⟩
    have hsame : (s.stepLock slot).loop = s.loop ∧ (s.stepLock slot).ring = s.ring := by
      rw [stepLock]
      split <;> exact ⟨rfl, rfl⟩
    refine ⟨hne.2, hsame.1 ▸ hlost.loop, ?_, ?_⟩
    · exact fun heq => hne.1 (Host.acquiring.inj (hhost.symm.trans heq)).symm
    · have hlatest := hlost.latest
      rwa [latestSlot, hsame.2] at hlatest
  | unlock =>
    obtain ⟨slot, hhost, rfl⟩ := step_unlock h
    have hne : i ≠ slot := by
      rintro rfl
      exact absurd (hlost.full.symm.trans (Function.update_self ..)) (by decide)
    exact
      { hlost with
        full := (Function.update_of_ne hne ..).symm.trans hlost.full
        host := fun h => by cases hhost.symm.trans h }
  | pause => exact absurd rfl hguard.1
  | resume => obtain ⟨-, rfl⟩ := step_resume h; exact { hlost with }

/-- A submission that is not waited for loses the slot submitted before. -/
theorem Taken.of_not_lost (hl : Live s) {a : Action} (hguard : Unpaused s a)
    (h : s.step a = some s') (hnone : ∀ i, ¬s'.Lost i) : Taken s a := by
  refine ⟨hguard, ?_⟩
  rintro rfl i hlatest hne hcount
  obtain ⟨slot, hloop, rfl⟩ := step_submit h
  by_contra hhost
  obtain ⟨hacquiring, hcompositing⟩ := not_or.mp hhost
  have hfull : s.keyed i = .unheld 1 := by
    cases hl.inv.owned i with
    | full hkeyed _ _ _ => exact hkeyed
    | compositing _ _ hhost _ => exact absurd hhost hcompositing
    | empty _ _ _ hc => omega
    | drawing _ _ _ hc => omega
  refine hnone i ⟨hfull, (by rintro ⟨⟩), hacquiring, fun heq => hne ?_⟩
  rw [hl.inv.latestSlot_stepSubmit] at heq
  rw [hloop, Fin.ext (Option.some.inj heq)]

variable {hN : 0 < N} {width height : UInt32} {generation : ℕ} {as : List Action}

/-- A run loses no slot exactly when a present has come for every frame by the time another is
submitted in another slot. -/
theorem slots_recoverable_iff
    (h : Machine.Run (machine N) Unpaused (init hN width height generation) as s) :
    (∀ i, s.Recoverable i) ↔
      Machine.Run (machine N) Taken (init hN width height generation) as s := by
  have hl : Live s := h.invariant (Live.init hN width height generation)
    fun _ _ _ hl hguard hstep => hl.step hstep hguard
  have hrecoverable : (∀ i, s.Recoverable i) ↔ ∀ i, ¬s.Lost i :=
    forall_congr' fun i => hl.recoverable_iff
  rw [hrecoverable]
  constructor
  · intro hnone
    exact (h.strengthen_of_end (I := Live) (J := fun t => ∀ i, ¬t.Lost i)
      (Live.init hN width height generation) (fun _ _ _ hl hguard hstep => hl.step hstep hguard)
      (fun _ _ _ hl hguard hstep hnone =>
        ⟨fun i hlost => hnone i (hlost.step hl.inv hl.unpaused hstep),
          Taken.of_not_lost hl hguard hstep hnone⟩) hnone).2
  · intro hrun
    exact (hrun.invariant (I := fun t => Live t ∧ ∀ i, ¬t.Lost i)
      ⟨Live.init hN width height generation, fun i hlost => by cases hlost.full⟩
      fun _ _ _ ht hguard hstep => ⟨ht.1.step hstep hguard.1,
        fun i hlost => ht.2 i (hlost.of_step ht.1 hguard hstep)⟩).2

theorem slots_recoverable_iff_presentEachOnce :
    ∃ s, Machine.Run (machine 3) Taken (init (by decide) 64 64 1) presentEachOnce s ∧
      ∀ i, s.Recoverable i := by
  have hrun : Machine.Run (machine 3) Taken (init (by decide) 64 64 1) presentEachOnce _ :=
    Machine.run_get (by decide +kernel)
  exact ⟨_, hrun, (slots_recoverable_iff (hrun.weaken fun _ _ hguard => hguard.1)).mpr hrun⟩

/-- The core fills two slots before the first present, and never gets the first one back. -/
theorem slot_lost :
    ∃ s, Machine.Run (machine 3) Unpaused (init (by decide) 64 64 1) (drawFrame ++ drawFrame) s ∧
      ¬s.Recoverable 0 := by
  have hrun :
    Machine.Run (machine 3) Unpaused (init (by decide) 64 64 1) (drawFrame ++ drawFrame) _ :=
    Machine.run_get (by decide +kernel)
  have hl := hrun.invariant (Live.init _ _ _ _) fun _ _ _ hl hguard hstep => hl.step hstep hguard
  exact ⟨_, hrun, Lost.not_recoverable (by constructor <;> decide +kernel) hl⟩

end RetroPark.D3D11.KeyedRing
