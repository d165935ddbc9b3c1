import RetroPark.Cores.SlideShow
import RetroPark.Runtime.Rewind
import RetroPark.Support.Machine

/-!
# The newest snapshot and the last frame

While rewinding is on, the newest entry of the ring is to be the state that the last frame started
from: `Runtime::rewind` drops it to get back before that frame. The frame after a rewind is not
captured, for it starts from the snapshot that was just restored.

* `machine` makes the calls of a host, and keeps beside the world what was last loaded into the core
  and the frames that were run;
* `newest_matches`: what has to hold of a run for every frame to have started from the newest entry.

`load_state` replaces the state of the core but leaves the next frame uncaptured
(`loaded_over_rewind`).
-/

namespace RetroPark.Rewinding

/-- A call of a host that plays, rewinds and saves. -/
inductive Action
  | present (wantPixels : Bool)
  | advance (emitAudio : Bool)
  | rewind
  | loadState (data : Blob)
  | saveState (buf : Bool) (size : ℕ)
  | setRewind (enabled : Bool) (maxSnapshots : ℕ)
  | pause
  | resume
  deriving DecidableEq, Repr

/-- The method it calls. -/
def Action.call : Action → Runtime.ApiCall
  | .present wantPixels => .present wantPixels
  | .advance emit => .advance emit
  | .rewind => .rewind
  | .loadState data => .loadState data
  | .saveState buf size => .saveState buf size
  | .setRewind enabled maxSnapshots => .setRewind enabled maxSnapshots
  | .pause => .pause
  | .resume => .resume

/-- Whether it runs a frame. -/
def Action.plays (rt : Runtime) : Action → Bool
  | .present _ => !rt.paused
  | .advance _ => true
  | _ => false

/-- A frame that was run while rewinding was on. -/
structure Played where
  /-- The newest entry of the ring after the frame. -/
  newest : Option Blob
  /-- The serialized state that the frame started from. -/
  startedFrom : Blob
  deriving DecidableEq

/-- A loaded driven core, and what its host has done. -/
structure Player (κ β : Type) where
  world : World κ β
  /-- What was last loaded into the core, by `rewind` or by `load_state`. -/
  restored : Option Blob := none
  /-- The frames run while rewinding was on, the last one first. -/
  frames : List Played := []

namespace Player

variable {κ β : Type} (env : Env κ β) {c : CorePtr} {σ : Type*} (D : DrivenCore env.core c σ)

/-- The transition function. -/
def step (t : Player κ β) (a : Action) : Player κ β :=
  let w := ((Runtime.call env a.call).run t.world).2
  { world := w
    restored :=
      match a with
      | .rewind =>
          if ((Runtime.rewind env).run t.world).1 = .ok then w.rt.rewindRing.getLast?
          else t.restored
      | .loadState data => if data = [] then t.restored else some data
      | _ => t.restored
    frames :=
      if a.plays t.world.rt && t.world.rt.rewindEnabled then
        ⟨w.rt.rewindRing.getLast?, D.enc (D.view t.world.core)⟩ :: t.frames
      else t.frames }

/-- The machine of a host. -/
def machine : Machine (Player κ β) Action := ⟨fun t a => some (step env D t a)⟩

/-- Every frame has started from the newest entry of the ring. -/
def Matches (t : Player κ β) : Prop := ∀ f ∈ t.frames, f.newest = some f.startedFrom

/-- The frame after a rewind is run while what was last loaded is the newest entry of the ring. -/
def Undisturbed (t : Player κ β) (a : Action) : Prop :=
  a.plays t.world.rt = true → t.world.rt.rewindReplay = true →
    t.restored = t.world.rt.rewindRing.getLast?

instance (t : Player κ β) : DecidablePred (Undisturbed t) := fun _ =>
  inferInstanceAs (Decidable (_ = true → _ = true → _ = _))

variable {env}

/-- What holds between any two calls. -/
structure Inv (t : Player κ β) : Prop where
  ready : DrivenReady c t.world.rt
  limit : t.world.rt.rewindEnabled = true → 1 ≤ t.world.rt.rewindMax
  /-- The ring holds serialized states. -/
  ring : t.world.rt.rewindEnabled = true → ∀ b ∈ t.world.rt.rewindRing, ∃ u, b = D.enc u
  enabled : t.world.rt.rewindReplay = true →
    t.world.rt.rewindEnabled = true ∧ t.world.rt.rewindRing ≠ []
  /-- The core is still in the state that was last loaded. -/
  restored : t.world.rt.rewindReplay = true →
    ∃ b, t.restored = some b ∧ ∀ u, b = D.enc u → D.view t.world.core = u

variable {D} {t : Player κ β}

theorem Inv.live (hi : Inv D t) : Runtime.Live env D t.world (D.view t.world.core) :=
  ⟨hi.ready, rfl⟩

/-- A call that moves neither the rewind fields nor the core keeps the invariant. -/
theorem Inv.keep (hi : Inv D t) {w : World κ β} (hready : DrivenReady c w.rt)
    (hsteady : { w.rt with paused := false }.steady = { t.world.rt with paused := false }.steady)
    (hview : D.view w.core = D.view t.world.core) (frames : List Played) :
    Inv D { world := w, restored := t.restored, frames } := by
  have henabled : w.rt.rewindEnabled = t.world.rt.rewindEnabled :=
    (congrArg Runtime.rewindEnabled hsteady :)
  have hreplay : w.rt.rewindReplay = t.world.rt.rewindReplay :=
    (congrArg Runtime.rewindReplay hsteady :)
  have hmax : w.rt.rewindMax = t.world.rt.rewindMax := (congrArg Runtime.rewindMax hsteady :)
  have hring : w.rt.rewindRing = t.world.rt.rewindRing := (congrArg Runtime.rewindRing hsteady :)
  constructor
  · exact hready
  · show w.rt.rewindEnabled = true → 1 ≤ w.rt.rewindMax
    rw [henabled, hmax]
    exact hi.limit
  · show w.rt.rewindEnabled = true → ∀ b ∈ w.rt.rewindRing, _
    rw [henabled, hring]
    exact hi.ring
  · show w.rt.rewindReplay = true → w.rt.rewindEnabled = true ∧ w.rt.rewindRing ≠ []
    rw [hreplay, henabled, hring]
    exact hi.enabled
  · show w.rt.rewindReplay = true → ∃ b, t.restored = some b ∧ ∀ u, b = D.enc u → D.view w.core = u
    rw [hreplay, hview]
    exact hi.restored

/-- A frame captures the state it starts from, if it is not a replay. -/
theorem Inv.frame (hi : Inv D t) {w : World κ β} (hready : DrivenReady c w.rt)
    (hsteady : w.rt.steady = { t.world.rt.captured (D.enc (D.view t.world.core)) with
      suppressAudio := false }.steady) (frames : List Played) :
    Inv D { world := w, restored := t.restored, frames } := by
  have henabled : w.rt.rewindEnabled = t.world.rt.rewindEnabled :=
    (congrArg Runtime.rewindEnabled hsteady :)
  have hreplay : w.rt.rewindReplay = false := (congrArg Runtime.rewindReplay hsteady :)
  have hmax : w.rt.rewindMax = t.world.rt.rewindMax := (congrArg Runtime.rewindMax hsteady :)
  have hring : w.rt.rewindRing = t.world.rt.capturedRing (D.enc (D.view t.world.core)) :=
    (congrArg Runtime.rewindRing hsteady :)
  refine ⟨hready, ?_, ?_, fun h => ?_, fun h => ?_⟩
  · show w.rt.rewindEnabled = true → 1 ≤ w.rt.rewindMax
    rw [henabled, hmax]
    exact hi.limit
  · intro hon b hb
    have hon' : t.world.rt.rewindEnabled = true := henabled ▸ hon
    have hb' : b ∈ t.world.rt.capturedRing (D.enc (D.view t.world.core)) := hring ▸ hb
    unfold Runtime.capturedRing at hb'
    split_ifs at hb' with hr
    · exact hi.ring hon' b hb'
    · -- An entry is an old one or the state the frame starts from.
      rcases List.mem_append.mp (List.mem_of_mem_drop hb') with hmem | hmem
      · exact hi.ring hon' b hmem
      · exact ⟨_, List.mem_singleton.mp hmem⟩
  · exact nomatch hreplay.symm.trans h
  · exact nomatch hreplay.symm.trans h

theorem rewindRingPush_getLast? {max : ℕ} (hmax : 1 ≤ max) (ring : List Blob) (snap : Blob) :
    (Runtime.rewindRingPush ring snap max).getLast? = some snap := by
  have hroom : (ring ++ [snap]).length - max < (ring ++ [snap]).length := by
    simp only [List.length_append, List.length_singleton]
    omega
  show ((ring ++ [snap]).drop _).getLast? = _
  rw [List.getLast?_drop, if_neg (Nat.not_le.mpr hroom), List.getLast?_concat]

/-- The newest entry after a frame is the state it started from, unless the frame is a replay; then
it is the newest entry before the frame. -/
theorem Inv.newest (hi : Inv D t) (hon : t.world.rt.rewindEnabled = true) :
    (t.world.rt.capturedRing (D.enc (D.view t.world.core))).getLast? =
      if t.world.rt.rewindReplay then t.world.rt.rewindRing.getLast?
      else some (D.enc (D.view t.world.core)) := by
  unfold Runtime.capturedRing
  split_ifs
  · rfl
  · exact rewindRingPush_getLast? (hi.limit hon) _ _

/-- A rewind restores the newest entry that it leaves in the ring, or changes nothing. -/
theorem step_rewind (hi : Inv D t) :
    step env D t .rewind = t ∨
      ∃ w u, step env D t .rewind = { world := w, restored := some (D.enc u), frames := t.frames } ∧
        Runtime.Live env D w u ∧ t.world.rt.rewindEnabled = true ∧
        w.rt.steady = (t.world.rt.withRing t.world.rt.rewindRing.dropLast true).steady ∧
        t.world.rt.rewindRing.dropLast ≠ [] := by
  by_cases hon : t.world.rt.rewindEnabled = true
  · by_cases hlength : t.world.rt.rewindRing.length < 2
    · have hrun : (Runtime.rewind env).run t.world = _ := Runtime.rewind_notFound hon hlength
      have hworld : ((Runtime.call env Action.rewind.call).run t.world).2 = t.world :=
        congrArg Prod.snd hrun
      left
      simp only [step, hworld, hrun]
      rfl
    · have hne : t.world.rt.rewindRing.dropLast ≠ [] := by
        intro h
        have hlen := congrArg List.length h
        simp only [List.length_dropLast, List.length_nil] at hlen
        omega
      -- With two entries or more one is left, and it is the one restored.
      obtain ⟨b, hlast⟩ := Option.ne_none_iff_exists'.mp (mt List.getLast?_eq_none_iff.mp hne)
      obtain ⟨u, rfl⟩ := hi.ring hon b (List.dropLast_subset _ (List.mem_of_getLast? hlast))
      obtain ⟨w, hrun, hlive, hsteady⟩ := hi.live.rewind hon (Nat.not_lt.mp hlength) hlast
      have hring : w.rt.rewindRing = t.world.rt.rewindRing.dropLast :=
        (congrArg Runtime.rewindRing hsteady :)
      have hworld : ((Runtime.call env Action.rewind.call).run t.world).2 = w :=
        congrArg Prod.snd hrun
      refine .inr ⟨w, u, ?_, hlive, hon, hsteady, hne⟩
      simp only [step, hworld, hrun, hring, hlast]
      rfl
  · have hrun : (Runtime.rewind env).run t.world = (.internal, t.world) := by
      unfold Runtime.rewind
      rw [Runtime.get_bind_run, if_pos (by simpa using hon)]
      rfl
    have hworld : ((Runtime.call env Action.rewind.call).run t.world).2 = t.world :=
      congrArg Prod.snd hrun
    left
    simp only [step, hworld, hrun]
    rfl

/-- `rewind` keeps the invariant. -/
theorem Inv.rewind (hi : Inv D t) : Inv D (step env D t .rewind) := by
  rcases step_rewind hi with hstep | ⟨w, u, hstep, hlive, hon, hsteady, hne⟩
  · rwa [hstep]
  · have henabled : w.rt.rewindEnabled = true :=
      (congrArg Runtime.rewindEnabled hsteady :).trans hon
    have hring : w.rt.rewindRing = t.world.rt.rewindRing.dropLast :=
      (congrArg Runtime.rewindRing hsteady :)
    rw [hstep]
    refine ⟨hlive.ready, fun _ => ?_, fun _ d hd => ?_, fun _ => ⟨henabled, ?_⟩, fun _ => ?_⟩
    · exact (congrArg Runtime.rewindMax hsteady :).symm ▸ hi.limit hon
    · exact hi.ring hon d (List.dropLast_subset _ (hring ▸ hd))
    · show w.rt.rewindRing ≠ []
      rwa [hring]
    · exact ⟨_, rfl, fun v hv => hlive.view.trans (D.enc_inj w.core hv)⟩

/-- `load_state` keeps the invariant. -/
theorem Inv.loadState (hi : Inv D t) (data : Blob) : Inv D (step env D t (.loadState data)) := by
  obtain ⟨r, w, hrun, hready, hsteady, hempty, hview⟩ := hi.live.loadBlob data
  have hworld : ((Runtime.call env (Action.loadState data).call).run t.world).2 = w :=
    congrArg Prod.snd hrun
  -- An empty blob is refused before it gets to the core.
  by_cases hdata : data = []
  · have hstep : step env D t (.loadState data) = t := by
      simp only [step, hworld, hempty hdata, if_pos hdata]
      rfl
    rwa [hstep]
  · have hstep : step env D t (.loadState data) =
        { world := w, restored := some data, frames := t.frames } := by
      simp only [step, hworld, if_neg hdata]
      rfl
    have henabled : w.rt.rewindEnabled = t.world.rt.rewindEnabled :=
      (congrArg Runtime.rewindEnabled hsteady :)
    have hring : w.rt.rewindRing = t.world.rt.rewindRing := (congrArg Runtime.rewindRing hsteady :)
    rw [hstep]
    refine ⟨hready, fun hon => ?_, fun hon b hb => ?_, fun hreplay => ?_,
      fun _ => ⟨data, rfl, hview⟩⟩
    · exact (congrArg Runtime.rewindMax hsteady :).symm ▸ hi.limit (henabled ▸ hon)
    · exact hi.ring (henabled ▸ hon) b (hring ▸ hb)
    · have hbefore := hi.enabled ((congrArg Runtime.rewindReplay hsteady :).symm.trans hreplay)
      exact ⟨henabled.trans hbefore.1, show w.rt.rewindRing ≠ [] from hring ▸ hbefore.2⟩

/-- `set_rewind` keeps the invariant. -/
theorem Inv.setRewind (hi : Inv D t) (on : Bool) (maxSnapshots : ℕ) :
    Inv D (step env D t (.setRewind on maxSnapshots)) := by
  obtain ⟨w, hrun, hlive, hsteady⟩ := hi.live.setRewind on maxSnapshots
  have hworld : ((Runtime.call env (Action.setRewind on maxSnapshots).call).run t.world).2 = w :=
    congrArg Prod.snd hrun
  have hreplay : w.rt.rewindReplay = false := (congrArg Runtime.rewindReplay hsteady :)
  have hring : w.rt.rewindRing = [] := (congrArg Runtime.rewindRing hsteady :)
  have hmax : w.rt.rewindMax = if maxSnapshots = 0 then 600 else maxSnapshots :=
    (congrArg Runtime.rewindMax hsteady :)
  have hstep : step env D t (.setRewind on maxSnapshots) =
      { world := w, restored := t.restored, frames := t.frames } := by
    simp only [step, hworld]
    rfl
  rw [hstep]
  refine ⟨hlive.ready, fun _ => ?_, fun _ b hb => ?_, fun h => ?_, fun h => ?_⟩
  · show 1 ≤ w.rt.rewindMax
    rw [hmax]
    split_ifs <;> omega
  · exact absurd (hring ▸ hb) List.not_mem_nil
  · exact nomatch hreplay.symm.trans h
  · exact nomatch hreplay.symm.trans h

/-- Whether the runtime is paused does not matter to its core. -/
theorem ready_paused {rt : Runtime} (h : DrivenReady c rt) (paused : Bool) :
    DrivenReady c { rt with paused } :=
  ⟨h.1, h.2, h.3, h.4, h.5, h.6, h.7, h.8, h.9, h.10⟩

/-- What a frame does to the player. -/
theorem step_plays (hi : Inv D t) {a : Action} (hplays : a.plays t.world.rt = true) :
    ∃ w, step env D t a =
        { world := w
          restored := t.restored
          frames :=
            if t.world.rt.rewindEnabled then
              ⟨(t.world.rt.capturedRing (D.enc (D.view t.world.core))).getLast?,
                D.enc (D.view t.world.core)⟩ :: t.frames
            else t.frames } ∧
      DrivenReady c w.rt ∧ w.rt.steady = { t.world.rt.captured (D.enc (D.view t.world.core)) with
        suppressAudio := false }.steady := by
  -- A present that is not paused runs its frame as `advance` does.
  obtain ⟨w, hworld, hready, hsteady⟩ : ∃ w, ((Runtime.call env a.call).run t.world).2 = w ∧
      DrivenReady c w.rt ∧ w.rt.steady = { t.world.rt.captured (D.enc (D.view t.world.core)) with
        suppressAudio := false }.steady := by
    cases a with
    | present wantPixels =>
      have hpaused : t.world.rt.paused = false := by simpa [Action.plays] using hplays
      obtain ⟨r, w, hrun, hlive, hsteady, -⟩ := hi.live.presentFrame hpaused wantPixels
      exact ⟨w, congrArg Prod.snd hrun, hlive.ready, hsteady⟩
    | advance emit =>
      obtain ⟨w, hrun, hlive, hsteady, -⟩ := hi.live.frame emit
      exact ⟨w, congrArg Prod.snd hrun, hlive.ready, hsteady⟩
    | _ => exact nomatch hplays
  have hring : w.rt.rewindRing = t.world.rt.capturedRing (D.enc (D.view t.world.core)) :=
    (congrArg Runtime.rewindRing hsteady :)
  refine ⟨w, ?_, hready, hsteady⟩
  simp only [Player.step, hworld, hplays, hring, Bool.true_and]
  cases a <;> first | rfl | exact nomatch hplays

/-- Any other call adds no frame. -/
theorem step_frames {a : Action} (hplays : a.plays t.world.rt = false) :
    (step env D t a).frames = t.frames := by
  simp only [step, hplays, Bool.false_and, Bool.false_eq_true, if_false]

/-- Every action keeps the invariant. -/
theorem Inv.step (hi : Inv D t) (a : Action) : Inv D (step env D t a) := by
  cases hplays : a.plays t.world.rt with
  | true =>
    -- A frame captures its state; the other calls are taken one by one.
    obtain ⟨w, hstep, hready, hsteady⟩ := step_plays hi hplays
    rw [hstep]
    exact hi.frame hready hsteady _
  | false =>
    cases a with
    | present wantPixels =>
      have hpaused : t.world.rt.paused = true := by simpa [Action.plays] using hplays
      obtain ⟨r, w, hrun, hlive, hrt⟩ := hi.live.presentPaused hpaused wantPixels
      have hworld : ((Runtime.call env (Action.present wantPixels).call).run t.world).2 = w :=
        congrArg Prod.snd hrun
      have hkeep := hi.keep (w := w) hlive.ready (by rw [hrt]) hlive.view
        (Player.step env D t (.present wantPixels)).frames
      rwa [← hworld] at hkeep
    | advance emit => exact nomatch hplays
    | rewind => exact hi.rewind
    | loadState data => exact hi.loadState data
    | saveState buf size =>
      obtain ⟨r, w, hrun, hlive, hsteady⟩ := hi.live.saveBlob buf size
      have hworld : ((Runtime.call env (Action.saveState buf size).call).run t.world).2 = w :=
        congrArg Prod.snd hrun
      have hkeep := hi.keep (w := w) hlive.ready
        (congrArg (fun rt : Runtime => { rt with paused := false }) hsteady) hlive.view
        (Player.step env D t (.saveState buf size)).frames
      rwa [← hworld] at hkeep
    | setRewind on maxSnapshots => exact hi.setRewind on maxSnapshots
    | pause =>
      have hworld : ((Runtime.call env Action.pause.call).run t.world).2 =
          { t.world with rt := { t.world.rt with paused := true } } := by
        show ({ t.world with rt := if t.world.rt.coreLoaded then _ else _ } : World κ β) = _
        rw [if_pos hi.ready.coreLoaded]
      have hkeep := hi.keep (w := { t.world with rt := { t.world.rt with paused := true } })
        (ready_paused hi.ready true) rfl rfl t.frames
      rwa [← hworld] at hkeep
    | resume =>
      exact hi.keep (w := { t.world with rt := { t.world.rt with paused := false } })
        (ready_paused hi.ready false) rfl rfl t.frames

/-- A frame that is not a disturbed replay starts from the newest entry. -/
theorem Matches.step (hm : t.Matches) (hi : Inv D t) {a : Action} (hguard : Undisturbed t a) :
    (step env D t a).Matches := by
  cases hplays : a.plays t.world.rt with
  | false =>
    intro f hf
    rw [step_frames hplays] at hf
    exact hm f hf
  | true =>
    obtain ⟨w, hstep, -⟩ := step_plays hi hplays
    rw [hstep]
    cases hon : t.world.rt.rewindEnabled with
    | false => exact hm
    | true =>
      intro f hf
      rcases List.mem_cons.mp hf with rfl | hf
      · show (t.world.rt.capturedRing _).getLast? = some (D.enc _)
        rw [hi.newest hon]
        split_ifs with hreplay
        · -- What was last loaded is the newest entry, and the core still has its state.
          obtain ⟨b, hb, hview⟩ := hi.restored hreplay
          have hnewest := (hguard hplays hreplay).symm.trans hb
          obtain ⟨u, rfl⟩ := hi.ring hon b (List.mem_of_getLast? hnewest)
          rw [hnewest, hview u rfl]
        · rfl
      · exact hm f hf

/-- Only serialized states have been loaded. -/
def Faithful (D : DrivenCore env.core c σ) (t : Player κ β) : Prop :=
  ∀ b, t.restored = some b → ∃ u, b = D.enc u

theorem Faithful.step (hf : Faithful D t) (hi : Inv D t) {a : Action}
    (ha : ∀ data, a = .loadState data → ∃ u, data = D.enc u) : Faithful D (step env D t a) := by
  cases a with
  | rewind =>
    rcases step_rewind hi with hstep | ⟨w, u, hstep, -⟩
    · rwa [hstep]
    · rw [hstep]
      rintro b ⟨⟩
      exact ⟨u, rfl⟩
  | loadState data =>
    intro b hb
    have hrestored : (if data = [] then t.restored else some data) = some b := hb
    split_ifs at hrestored
    · exact hf b hrestored
    · obtain rfl := Option.some.inj hrestored
      exact ha data rfl
  | _ => exact hf

/-- A disturbed replay starts from another state than the newest entry. -/
theorem Matches.undisturbed {a : Action} (hm : (Player.step env D t a).Matches) (hi : Inv D t)
    (hfaithful : Faithful D t) : t.Matches ∧ Undisturbed t a := by
  cases hplays : a.plays t.world.rt with
  | false =>
    refine ⟨fun f hf => hm f ?_, fun h => nomatch hplays.symm.trans h⟩
    rwa [step_frames hplays]
  | true =>
    obtain ⟨w, hstep, -⟩ := step_plays hi hplays
    rw [hstep] at hm
    cases hon : t.world.rt.rewindEnabled with
    | false =>
      refine ⟨fun f hf => hm f ?_, fun _ hreplay => ?_⟩
      · simpa [hon] using hf
      · exact nomatch hon.symm.trans (hi.enabled hreplay).1
    | true =>
      refine ⟨fun f hf => hm f ?_, fun _ hreplay => ?_⟩
      · simp only [hon, if_true]
        exact List.mem_cons_of_mem _ hf
      · -- The frame just played matches, and a replay starts from the entry left in the ring.
        have hlast := hm ⟨_, _⟩ (by simp only [hon, if_true]; exact List.mem_cons_self ..)
        obtain ⟨b, hb, hview⟩ := hi.restored hreplay
        obtain ⟨u, rfl⟩ := hfaithful b hb
        rw [hi.newest hon, if_pos hreplay, hview u rfl] at hlast
        exact hb.trans (Eq.symm hlast)

/-- A player on a core that has just been loaded. -/
def start (w : World κ β) : Player κ β := { world := w }

variable {w : World κ β} {as : List Action}

/-- The invariant holds at the start. -/
theorem Inv.start (hready : DrivenReady c w.rt) (hoff : w.rt.rewindEnabled = false)
    (hreplay : w.rt.rewindReplay = false) : Inv D (start w) := by
  refine ⟨hready, fun h => ?_, fun h => ?_, fun h => ?_, fun h => ?_⟩
  · exact nomatch hoff.symm.trans h
  · exact nomatch hoff.symm.trans h
  · exact nomatch hreplay.symm.trans h
  · exact nomatch hreplay.symm.trans h

/-- Every frame starts from the newest entry of the ring if what was last loaded is the newest entry
at each frame after a rewind. If nothing but serialized states is loaded, this is needed as well. -/
theorem newest_matches (hready : DrivenReady c w.rt) (hoff : w.rt.rewindEnabled = false)
    (hreplay : w.rt.rewindReplay = false)
    (h : Machine.Run (machine env D) Machine.always (start w) as t) :
    (Machine.Run (machine env D) Undisturbed (start w) as t → t.Matches) ∧
      ((∀ data, .loadState data ∈ as → ∃ u, data = D.enc u) → t.Matches →
        Machine.Run (machine env D) Undisturbed (start w) as t) := by
  have hstart : Inv D (start w) := Inv.start hready hoff hreplay
  constructor
  · intro hrun
    refine (hrun.invariant (I := fun t => Inv D t ∧ t.Matches) ⟨hstart, nofun⟩ ?_).2
    rintro t a t' ⟨hi, hm⟩ hguard ⟨⟩
    exact ⟨hi.step a, hm.step hi hguard⟩
  · intro hloads hm
    have hfaithful : ∀ a ∈ as, ∀ data, a = .loadState data → ∃ u, data = D.enc u := by
      rintro a ha data rfl
      exact hloads data ha
    -- Each step of a run that ends well was undisturbed.
    refine ((h.restrict hfaithful).strengthen_of_end (I := fun t => Inv D t ∧ Faithful D t)
      (J := Matches) ⟨hstart, nofun⟩ ?_ ?_ hm).2
    · rintro t a t' ⟨hi, hf⟩ ⟨-, ha⟩ ⟨⟩
      exact ⟨hi.step a, hf.step hi ha⟩
    · rintro t a t' ⟨hi, hf⟩ - ⟨⟩ hm
      exact hm.undisturbed hi hf

/-! ### Runs of a core that counts its frames -/

/-- The machine of the core without frames to show. -/
def counter : Machine (Player RefCoreRollback (Gl.GLBackend × Unit)) Action :=
  machine (SlideShow.env []) (SlideShow.driven [] 1)

/-- Two frames, the second of which is rewound and run again. -/
def rewindOnce : List Action :=
  [.setRewind true 4, .advance true, .present true, .rewind, .present true, .advance true]

/-- Frames are presented, one is taken back, and the newest snapshot still matches. -/
theorem newest_matches_rewindOnce :
    ∃ t, Machine.Run counter Undisturbed (start (SlideShow.loaded [])) rewindOnce t ∧
      t.frames.length = 4 ∧ t.Matches := by
  have hend : ∃ t, Machine.Run counter Undisturbed
      (start (SlideShow.loaded [])) rewindOnce t ∧ t.frames.length = 4 :=
    Machine.exists_run (by decide +kernel)
  obtain ⟨t, hrun, hlength⟩ := hend
  exact ⟨t, hrun, hlength, (newest_matches (SlideShow.loaded_live []).ready (by decide) (by decide)
    (hrun.weaken fun _ _ _ => trivial)).1 hrun⟩

/-- A state is loaded between the rewind and the next frame. -/
def loadOverRewind : List Action :=
  [.setRewind true 4, .advance true, .advance true, .rewind, .loadState (RefCoreRollback.bytes 100),
    .advance true]

/-- The newest entry is the state restored by the rewind, not the one the frame started from. -/
theorem loaded_over_rewind :
    ∃ t, Machine.Run counter Machine.always (start (SlideShow.loaded [])) loadOverRewind t ∧
      t.frames.head? = some ⟨some (RefCoreRollback.bytes 0), RefCoreRollback.bytes 100⟩ ∧
      ¬t.Matches := by
  have hend : ∃ t, Machine.Run counter Machine.always
      (start (SlideShow.loaded [])) loadOverRewind t ∧
        t.frames.head? = some ⟨some (RefCoreRollback.bytes 0), RefCoreRollback.bytes 100⟩ :=
    Machine.exists_run (by decide +kernel)
  obtain ⟨t, hrun, hframes⟩ := hend
  refine ⟨t, hrun, hframes, fun hm => ?_⟩
  have hnewest := hm _ (List.mem_of_head? hframes)
  exact absurd hnewest (by decide)

end Player

end RetroPark.Rewinding
