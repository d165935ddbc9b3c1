import RetroPark.Cores.RefCoreRollback
import RetroPark.Runtime.Triples
import RetroPark.Support.Machine

/-!
# Rewinds that fail

`Runtime::rewind` answers an error in three cases: rewinding is off, the ring holds less than two
snapshots, or the core refuses the snapshot. The first two return before anything is written. The
third one is known only after the newest snapshot has been dropped, and sets the replay flag like a
rewind that succeeded.

* `machine` makes the calls of a host, and keeps beside the world what each rewind answered and did
  to the rewind fields;
* `failed_rewinds_harmless_iff`: the failed rewinds of a run are harmless when no rewind of it is
  refused by the core, and only then; the run then ends as it would without them.

A core that refuses a snapshot and keeps its own state costs the host a snapshot and a capture
(`refused_rewind_spends_snapshot`).
-/

namespace RetroPark

namespace Runtime

/-- The snapshot that a rewind hands to the core. -/
def rewindTarget (rt : Runtime) : Blob := rt.rewindRing.dropLast.getLastD []

/-- The snapshot ring and the replay flag. -/
def rewindFields (rt : Runtime) : List Blob × Bool := (rt.rewindRing, rt.rewindReplay)

variable {κ β : Type} (env : Env κ β)

/-- Whether the core behind the loader accepts the snapshot of the next rewind. -/
def Restorable (w : World κ β) : Prop :=
  w.rt.loader.hasInstance = true ∧ w.rt.loader.table.unserialize = true ∧
    (env.core.unserialize w.core w.rt.loader.core w.rt.rewindTarget).value = .ok

instance (w : World κ β) : Decidable (Restorable env w) :=
  inferInstanceAs (Decidable (_ ∧ _ ∧ _))

variable {w : World κ β}

/-- When the core takes a savestate back. -/
theorem unserialize_value_iff (core : CoreEnv κ) (l : CoreLoader) (k : κ) (data : Blob) :
    (l.unserialize core data k).value = .ok ↔
      l.hasInstance = true ∧ l.table.unserialize = true ∧
        (core.unserialize k l.core data).value = .ok := by
  unfold CoreLoader.unserialize
  split_ifs with hinstance hentry
  · simp [CoreLoader.fail, Bool.eq_false_of_not_eq_true' hinstance]
  · simp [CoreLoader.fail, Bool.eq_false_of_not_eq_true' hentry]
  · simp_all

/-- Without rewinding, or without two snapshots, a rewind changes nothing at all. -/
theorem rewind_early (h : ¬(w.rt.rewindEnabled = true ∧ 2 ≤ w.rt.rewindRing.length)) :
    ∃ r, r ≠ .ok ∧ (rewind env).run w = (r, w) := by
  unfold rewind
  rw [get_bind_run]
  by_cases henabled : w.rt.rewindEnabled = true
  · have hshort : w.rt.rewindRing.length < 2 := by
      by_contra hlong
      exact h ⟨henabled, Nat.not_lt.mp hlong⟩
    rw [if_neg (by simp [henabled]), if_pos hshort]
    exact ⟨.notFound, nofun, rfl⟩
  · rw [if_pos (by simp [henabled])]
    exact ⟨.internal, nofun, rfl⟩

/-- Otherwise the newest snapshot is gone and the next frame counts as a replay, whatever the core
says to the snapshot before. -/
theorem rewind_late (henabled : w.rt.rewindEnabled = true) (hlength : 2 ≤ w.rt.rewindRing.length) :
    ∃ r w', (rewind env).run w = (r, w') ∧ (r = .ok ↔ Restorable env w) ∧
      w'.rt.rewindFields = (w.rt.rewindRing.dropLast, true) := by
  obtain ⟨w', hrun, -, hsteady⟩ := callLoader_steady env
    (·.unserialize env.core w.rt.rewindTarget ·)
    { w with rt := { w.rt with rewindRing := w.rt.rewindRing.dropLast } }
    (CoreLoader.unserialize_loader env.core _ _ _)
  have hring : w'.rt.rewindRing = w.rt.rewindRing.dropLast :=
    (congrArg Runtime.rewindRing hsteady :)
  refine ⟨_, { w' with rt := { w'.rt with rewindReplay := true } }, ?_,
    unserialize_value_iff env.core w.rt.loader w.core w.rt.rewindTarget, ?_⟩
  · unfold rewind
    rw [get_bind_run, if_neg (by simp [henabled]), if_neg (by omega), update_bind_run, get_bind_run]
    exact run_bind_of_eq hrun
  · exact congrArg (·, true) hring

end Runtime

namespace FailedRewind

open RetroPark.Runtime (ApiCall Restorable)

/-- A rewind that was called. -/
structure Rewound where
  result : RpResult
  /-- The ring and the replay flag before the call. -/
  before : List Blob × Bool
  after : List Blob × Bool
  deriving DecidableEq

/-- A runtime, and what its host got from its rewinds. -/
structure Host (κ β : Type) where
  world : World κ β
  /-- The rewinds so far, the last one first. -/
  rewinds : List Rewound := []

namespace Host

variable {κ β : Type} (env : Env κ β)

/-- The world after a call. -/
def called (w : World κ β) (a : ApiCall) : World κ β := ((Runtime.call env a).run w).2

/-- The transition function. -/
def step (t : Host κ β) (a : ApiCall) : Host κ β :=
  { world := called env t.world a
    rewinds :=
      match a with
      | .rewind =>
          ⟨((Runtime.rewind env).run t.world).1, t.world.rt.rewindFields,
            (called env t.world a).rt.rewindFields⟩ :: t.rewinds
      | _ => t.rewinds }

/-- The machine of a host. -/
def machine : Machine (Host κ β) ApiCall := ⟨fun t a => some (step env t a)⟩

/-- A host that has not called anything. -/
def start (w : World κ β) : Host κ β := { world := w }

/-- No rewind that failed has touched the ring or the replay flag. -/
def Harmless (t : Host κ β) : Prop := ∀ r ∈ t.rewinds, r.result ≠ .ok → r.after = r.before

/-- A rewind that gets as far as the core is not refused by it. -/
def Granted (t : Host κ β) : ApiCall → Prop
  | .rewind =>
      t.world.rt.rewindEnabled = true → 2 ≤ t.world.rt.rewindRing.length → Restorable env t.world
  | _ => True

instance (t : Host κ β) : DecidablePred (Granted env t)
  | .rewind => inferInstanceAs (Decidable (_ = true → 2 ≤ _ → Restorable env _))
  | .loadCore _ | .loadStaticCore _ | .unloadCore | .loadContent _ | .resize _ _ | .setInput _ _
  | .present _ | .advance _ | .render _ | .serializeSize | .saveState _ _ | .loadState _
  | .setRewind _ _ | .pause | .resume | .reset | .coreThread _ => inferInstanceAs (Decidable True)

/-- Whether a call is a rewind that fails. -/
def fails (w : World κ β) : ApiCall → Bool
  | .rewind => ((Runtime.rewind env).run w).1 ≠ .ok
  | _ => false

/-- The calls without the rewinds that fail. -/
def withoutFailed (w : World κ β) : List ApiCall → List ApiCall
  | [] => []
  | a :: as =>
      let rest := withoutFailed (called env w a) as
      if fails env w a then rest else a :: rest

variable {env} {t t' : Host κ β} {w : World κ β} {as : List ApiCall}

/-- What a rewind does is harmless if it succeeds or does not get as far as the core. -/
theorem rewind_harmless_iff (t : Host κ β) :
    (((Runtime.rewind env).run t.world).1 ≠ .ok →
      (called env t.world .rewind).rt.rewindFields = t.world.rt.rewindFields) ↔
        Granted env t .rewind := by
  by_cases hlate : t.world.rt.rewindEnabled = true ∧ 2 ≤ t.world.rt.rewindRing.length
  · obtain ⟨henabled, hlength⟩ := hlate
    obtain ⟨r, w', hrun, hok, hfields⟩ := Runtime.rewind_late env henabled hlength
    have hworld : called env t.world .rewind = w' := congrArg Prod.snd hrun
    have hmoved : w'.rt.rewindFields ≠ t.world.rt.rewindFields := by
      -- The ring has lost its newest snapshot.
      intro h
      have hring := congrArg (fun f : List Blob × Bool => f.1.length) (hfields.symm.trans h)
      simp only [Runtime.rewindFields, List.length_dropLast] at hring
      omega
    rw [hworld, hrun]
    constructor
    · intro h _ _
      exact hok.mp (by_contra fun hr => hmoved (h hr))
    · intro h hr
      exact absurd (hok.mpr (h henabled hlength)) hr
  · obtain ⟨r, -, hrun⟩ := Runtime.rewind_early env hlate
    have hworld : called env t.world .rewind = t.world := congrArg Prod.snd hrun
    refine ⟨fun _ henabled hlength => absurd ⟨henabled, hlength⟩ hlate, fun _ _ => ?_⟩
    rw [hworld]

theorem Harmless.step_iff (t : Host κ β) (a : ApiCall) :
    (step env t a).Harmless ↔ t.Harmless ∧ Granted env t a := by
  cases a with
  | rewind =>
    rw [← rewind_harmless_iff, and_comm]
    exact List.forall_mem_cons
  | _ => exact (and_iff_left trivial).symm

/-- A rewind that fails without getting as far as the core leaves the whole world as it is. -/
theorem called_of_fails {a : ApiCall} (hgranted : Granted env t a)
    (h : fails env t.world a = true) :
    called env t.world a = t.world := by
  cases a with
  | rewind =>
    have hr : ((Runtime.rewind env).run t.world).1 ≠ .ok := of_decide_eq_true h
    by_cases hlate : t.world.rt.rewindEnabled = true ∧ 2 ≤ t.world.rt.rewindRing.length
    · obtain ⟨r, w', hrun, hok, -⟩ := Runtime.rewind_late env hlate.1 hlate.2
      rw [hrun] at hr
      exact absurd (hok.mpr (hgranted hlate.1 hlate.2)) hr
    · obtain ⟨r, -, hrun⟩ := Runtime.rewind_early env hlate
      exact congrArg Prod.snd hrun
  | _ => exact nomatch h

/-- A run without refused rewinds ends as it does without those that fail. -/
theorem foldl_withoutFailed (h : Machine.Run (machine env) (Granted env) t as t') :
    (withoutFailed env t.world as).foldl (called env) t.world = t'.world := by
  induction h with
  | nil t => rfl
  | @cons t t₁ t' a as hgranted hstep _ ih =>
    obtain rfl := Option.some.inj hstep
    unfold withoutFailed
    split_ifs with hfails
    · have hsame := called_of_fails hgranted hfails
      have ih' : (withoutFailed env (called env t.world a) as).foldl (called env)
          (called env t.world a) = t'.world := ih
      rwa [hsame] at ih' ⊢
    · exact ih

/-- The failed rewinds of a run are harmless if and only if no rewind of the run gets as far as the
core and is refused by it. The world at the end is then the one that the run leads to without its
failed rewinds. -/
theorem failed_rewinds_harmless_iff (h : Machine.Run (machine env) Machine.always (start w) as t) :
    (t.Harmless ↔ Machine.Run (machine env) (Granted env) (start w) as t) ∧
      (Machine.Run (machine env) (Granted env) (start w) as t →
        (withoutFailed env w as).foldl (called env) w = t.world) := by
  refine ⟨⟨fun hharmless => ?_, fun hrun => ?_⟩, foldl_withoutFailed⟩
  · refine (h.strengthen_of_end (I := fun _ => True) (J := Harmless) trivial
      (fun _ _ _ _ _ _ => trivial) ?_ hharmless).2
    rintro t a t' - - ⟨⟩ hharmless
    exact (Harmless.step_iff t a).mp hharmless
  · refine hrun.invariant (I := Harmless) nofun ?_
    rintro t a t' hharmless hgranted ⟨⟩
    exact (Harmless.step_iff t a).mpr ⟨hharmless, hgranted⟩

/-! ### Runs of a core that counts its frames -/

/-- Two rewinds after two frames, the second of which finds one snapshot. -/
def rewindTwice : List ApiCall :=
  [.loadCore "refcore_rollback", .setRewind true 4, .advance true, .advance true, .rewind, .rewind,
    .advance true]

/-- Of two rewinds the second finds too few snapshots and leaves nothing behind. -/
theorem failed_rewinds_harmless_rewindTwice :
    ∃ t, Machine.Run (machine RefCoreRollback.env) (Granted RefCoreRollback.env)
        (start (Runtime.new RefCoreRollback.env 0 0 { acc := 7 } ())) rewindTwice t ∧
      t.rewinds.map Rewound.result = [.notFound, .ok] ∧ t.Harmless := by
  have hend : ∃ t, Machine.Run (machine RefCoreRollback.env)
      (Granted RefCoreRollback.env) (start (Runtime.new RefCoreRollback.env 0 0 { acc := 7 } ()))
        rewindTwice t ∧ t.rewinds.map Rewound.result = [.notFound, .ok] :=
    Machine.exists_run (by decide +kernel)
  obtain ⟨t, hrun, hresults⟩ := hend
  exact ⟨t, hrun, hresults,
    (failed_rewinds_harmless_iff (hrun.weaken fun _ _ _ => trivial)).1.mpr hrun⟩

/-- The core refuses every snapshot and keeps its state. -/
def refusing : Env RefCoreRollback Unit :=
  { RefCoreRollback.env with
    core := { RefCoreRollback.core with unserialize := fun k _ _ =>
      { value := .internal, core := k } } }

/-- A rewind after three frames, another frame, and another rewind. -/
def rewindRefused : List ApiCall :=
  [.loadCore "refcore_rollback", .setRewind true 4, .advance true, .advance true, .advance true,
    .rewind, .advance true, .rewind]

/-- The refused rewind drops a snapshot and suppresses the next capture, so that the frame after it
leaves one snapshot less for the next rewind. -/
theorem refused_rewind_spends_snapshot :
    (∀ k c data, (refusing.core.unserialize k c data).core = k) ∧
      ∃ t, Machine.Run (machine refusing) Machine.always
          (start (Runtime.new refusing 0 0 { acc := 7 } ())) rewindRefused t ∧
        t.rewinds.map (fun r => (r.result, r.before.1.length, r.after.1.length, r.after.2)) =
          [(.internal, 2, 1, true), (.internal, 3, 2, true)] ∧
        ¬t.Harmless := by
  have hend : ∃ t, Machine.Run (machine refusing) Machine.always
      (start (Runtime.new refusing 0 0 { acc := 7 } ())) rewindRefused t ∧
        t.rewinds.map (fun r => (r.result, r.before.1.length, r.after.1.length, r.after.2)) =
          [(.internal, 2, 1, true), (.internal, 3, 2, true)] :=
    Machine.exists_run (by decide +kernel)
  obtain ⟨t, hrun, hrewinds⟩ := hend
  refine ⟨fun _ _ _ => rfl, t, hrun, hrewinds, fun hharmless => ?_⟩
  obtain ⟨r, hr, heq⟩ := List.mem_map.mp (hrewinds ▸ List.mem_cons_self ..)
  obtain ⟨hresult, hbefore, hafter, -⟩ : r.result = .internal ∧ r.before.1.length = 2 ∧
      r.after.1.length = 1 ∧ r.after.2 = true := by simpa using heq
  have hsame := hharmless r hr (by rw [hresult]; exact nofun)
  rw [hsame, hbefore] at hafter
  exact absurd hafter (by decide)

end Host

end FailedRewind

end RetroPark
