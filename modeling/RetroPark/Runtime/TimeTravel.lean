import RetroPark.Cores.SlideShow
import RetroPark.Runtime.Rewind
import RetroPark.Support.History

/-!
# Rewinding as time travel

A host that rewinds calls `Runtime::rewind` and then `Runtime::present`, which runs the restored
frame again. `session` plays a core forward, takes it back and plays it forward again.

* `Follows` relates the runtime to a `History` of the core's states, and each method to an operation
  of it;
* `session_time_travel` says which states, snapshots and frames a session leads to.

A frame that the core delivers in full is shown again as it was. One that repeats the last frame
shows what was shown last, which after a rewind is a later frame (`repeat_shows_later`).
-/

namespace RetroPark

namespace Runtime

variable {κ β : Type}

section Session

variable (env : Env κ β) (wantPixels : Bool)

/-- `n` presents. -/
def presents : ℕ → RuntimeM κ β Unit
  | 0 => pure ()
  | n + 1 => do
      let _ ← present env wantPixels
      presents n

/-- `k` times a rewind and a present, with the results of the rewinds. -/
def rewinds : ℕ → RuntimeM κ β (List RpResult)
  | 0 => pure []
  | k + 1 => do
      let r ← rewind env
      let _ ← present env wantPixels
      let rs ← rewinds k
      return r :: rs

/-- Set up rewinding with `limit` snapshots, present `n` times, rewind `k` times and present another
`j` times: the result of `set_rewind` and those of the rewinds. -/
def session (limit n k j : ℕ) : RuntimeM κ β (RpResult × List RpResult) := do
  let r ← setRewind env true limit
  presents env wantPixels n
  let rs ← rewinds env wantPixels k
  presents env wantPixels j
  return (r, rs)

end Session

variable {env : Env κ β} {c : CorePtr} {σ : Type*} {D : DrivenCore env.core c σ}
  {w : World κ β} {rt : Runtime} {limit : ℕ} {h : History σ}

/-- One frame on the inputs of `rt`. -/
def frameStep (D : DrivenCore env.core c σ) (rt : Runtime) (s : σ) : σ :=
  D.step s (rt.input0, rt.input1)

/-- The runtime `rt` rewinding with a history of its core's states. -/
def following (D : DrivenCore env.core c σ) (rt : Runtime) (limit : ℕ) (h : History σ) : Runtime :=
  (rt.rewinding true limit).withRing (h.kept.map D.enc) h.replaying

/-- The runtime of `w` is `rt`, rewinding with the history `h`. -/
structure Follows (D : DrivenCore env.core c σ) (rt : Runtime) (limit : ℕ) (w : World κ β)
    (h : History σ) : Prop where
  live : Live env D w h.state
  steady : { w.rt with suppressAudio := false }.steady =
    { following D rt limit h with suppressAudio := false }.steady

namespace Follows

theorem ports (hf : Follows D rt limit w h) :
    w.rt.input0 = rt.input0 ∧ w.rt.input1 = rt.input1 :=
  ⟨(congrArg Runtime.input0 hf.steady :), (congrArg Runtime.input1 hf.steady :)⟩

theorem geometry (hf : Follows D rt limit w h) :
    w.rt.drMaxW = rt.drMaxW ∧ w.rt.drMaxH = rt.drMaxH :=
  ⟨(congrArg Runtime.drMaxW hf.steady :), (congrArg Runtime.drMaxH hf.steady :)⟩

theorem ring (hf : Follows D rt limit w h) : w.rt.rewindRing = h.kept.map D.enc :=
  (congrArg Runtime.rewindRing hf.steady :)

theorem enabled (hf : Follows D rt limit w h) : w.rt.rewindEnabled = true :=
  (congrArg Runtime.rewindEnabled hf.steady :)

/-- A present is a step of the history. -/
theorem present (hf : Follows D rt limit w h) (hlimit : 1 ≤ limit) (hpaused : rt.paused = false)
    (wantPixels : Bool) :
    ∃ r w', (Runtime.present env wantPixels).run w = (r, w') ∧
      Follows D rt limit w' (h.forward (frameStep D rt) limit) ∧
      ∀ (F : D.Frames) (f : Frame),
        F.frame h.state (rt.input0, rt.input1) rt.drMaxW rt.drMaxH = some f →
          w'.rt.handed = some f := by
  have hpaused' : w.rt.paused = false := (congrArg Runtime.paused hf.steady :).trans hpaused
  obtain ⟨h0, h1⟩ := hf.ports
  obtain ⟨hmaxW, hmaxH⟩ := hf.geometry
  have hreplay : w.rt.rewindReplay = h.replaying := (congrArg Runtime.rewindReplay hf.steady :)
  have hmax : w.rt.rewindMax = limit := by
    refine (congrArg Runtime.rewindMax hf.steady :).trans ?_
    exact if_neg (by omega)
  obtain ⟨r, w', hrun, hlive, hsteady, hframe⟩ := hf.live.presentFrame hpaused' wantPixels
  rw [h0, h1] at hlive
  rw [h0, h1, hmaxW, hmaxH] at hframe
  -- The ring takes the state the present starts from, unless it replays it.
  have hring : w.rt.capturedRing (D.enc h.state) =
      (h.forward (frameStep D rt) limit).kept.map D.enc := by
    unfold capturedRing History.forward
    rw [hreplay, hf.enabled, hf.ring, hmax]
    cases h.replaying with
    | true => rfl
    | false => simp [rewindRingPush]
  have hstate : (h.forward (frameStep D rt) limit).state =
    D.step h.state (rt.input0, rt.input1) := by
    unfold History.forward
    split_ifs <;> rfl
  have hreplaying : (h.forward (frameStep D rt) limit).replaying = false := by
    unfold History.forward
    split_ifs with hr
    · rfl
    · exact Bool.eq_false_of_not_eq_true hr
  refine ⟨r, w', hrun, ⟨hstate ▸ hlive, ?_⟩, hframe⟩
  rw [captured, hring, ← hreplaying] at hsteady
  exact (congrArg (fun r : Runtime => { r with suppressAudio := false }) hsteady).trans
    (withRing_congr hf.steady _ _)

/-- A rewind goes back in the history. -/
theorem rewind (hf : Follows D rt limit w h) {h' : History σ} (hback : h.back = some h') :
    ∃ w', (Runtime.rewind env).run w = (.ok, w') ∧ Follows D rt limit w' h' := by
  have hlength : 2 ≤ h.kept.length := by
    by_contra hshort
    rw [History.back, if_pos (by omega)] at hback
    exact nomatch hback
  rw [History.back, if_neg (by omega)] at hback
  obtain ⟨t, hlast, rfl⟩ := Option.map_eq_some_iff.mp hback
  have hsnap : w.rt.rewindRing.dropLast.getLast? = some (D.enc t) := by
    rw [hf.ring, ← List.map_dropLast, List.getLast?_map, hlast, Option.map_some]
  obtain ⟨w', hrun, hlive, hsteady⟩ := hf.live.rewind hf.enabled
    (by rw [hf.ring, List.length_map]; exact hlength) hsnap
  refine ⟨w', hrun, hlive, ?_⟩
  rw [hf.ring, ← List.map_dropLast] at hsteady
  exact (congrArg (fun r : Runtime => { r with suppressAudio := false }) hsteady).trans
    (withRing_congr hf.steady _ _)

/-- With nothing to go back to, a rewind changes nothing. -/
theorem rewind_none (hf : Follows D rt limit w h) (hback : h.back = none) :
    (Runtime.rewind env).run w = (.notFound, w) := by
  apply rewind_notFound hf.enabled
  rw [hf.ring, List.length_map]
  by_contra hlong
  rw [History.back, if_neg hlong] at hback
  have hempty := Option.map_eq_none_iff.mp hback
  rw [List.getLast?_eq_none_iff] at hempty
  have hlength := congrArg List.length hempty
  simp only [List.length_dropLast, List.length_nil] at hlength
  omega

end Follows

/-! ### Whole sessions -/

variable {s : σ} {n k lo : ℕ}

/-- The frame a core delivers in full in its `n`-th step. -/
def nthFrame (F : D.Frames) (rt : Runtime) (s : σ) (n : ℕ) : Option Frame :=
  F.frame ((frameStep D rt)^[n - 1] s) (rt.input0, rt.input1) rt.drMaxW rt.drMaxH

theorem presents_run (hlimit : 1 ≤ limit) (hpaused : rt.paused = false) (wantPixels : Bool) (n : ℕ)
    {m : ℕ} (hlo : lo ≤ m) (hroom : m ≤ lo + limit)
    (hf : Follows D rt limit w (.after (frameStep D rt) s lo m)) :
    ∃ w', (presents env wantPixels n).run w = ((), w') ∧
      Follows D rt limit w' (.after (frameStep D rt) s (max lo (m + n - limit)) (m + n)) ∧
      (0 < n → ∀ (F : D.Frames) (f : Frame), nthFrame F rt s (m + n) = some f →
        w'.rt.handed = some f) := by
  -- Induction on the number of presents.
  induction n generalizing w lo m with
  | zero =>
    have hsame : max lo (m + 0 - limit) = lo := by omega
    exact ⟨w, rfl, by rwa [hsame], nofun⟩
  | succ n ih =>
    obtain ⟨r, w₁, hrun₁, hf₁, hframe₁⟩ := hf.present hlimit hpaused wantPixels
    rw [History.forward_after hlo] at hf₁
    obtain ⟨w₂, hrun₂, hf₂, hframe₂⟩ := ih (by omega) (by omega) hf₁
    have hm : m + 1 + n = m + (n + 1) := by omega
    have hmax : max (max lo (m + 1 - limit)) (m + 1 + n - limit) =
      max lo (m + (n + 1) - limit) := by
      omega
    rw [hmax, hm] at hf₂
    refine ⟨w₂, ?_, hf₂, fun _ F f hn => ?_⟩
    · unfold presents
      rw [run_bind_of_eq hrun₁, hrun₂]
    · rcases Nat.eq_zero_or_pos n with rfl | hpos
      · obtain ⟨-, rfl⟩ := Prod.mk.inj hrun₂
        exact hframe₁ F f hn
      · exact hframe₂ hpos F f (hm ▸ hn)

theorem rewinds_run (hlimit : 1 ≤ limit) (hpaused : rt.paused = false) (wantPixels : Bool) (k : ℕ)
    {m : ℕ} (hk : lo + k + 1 ≤ m ∨ k = 0) (hroom : m ≤ lo + limit)
    (hf : Follows D rt limit w (.after (frameStep D rt) s lo m)) :
    ∃ w', (rewinds env wantPixels k).run w = (List.replicate k .ok, w') ∧
      Follows D rt limit w' (.after (frameStep D rt) s lo (m - k)) ∧
      (0 < k → ∀ (F : D.Frames) (f : Frame), nthFrame F rt s (m - k) = some f →
        w'.rt.handed = some f) := by
  -- Induction on the number of rewinds; each is followed by a present that replays.
  induction k generalizing w m with
  | zero => exact ⟨w, rfl, hf, nofun⟩
  | succ k ih =>
    have hroom' : lo + 2 ≤ m := by omega
    obtain ⟨w₁, hrun₁, hf₁⟩ := hf.rewind (History.back_after hroom')
    obtain ⟨r, w₂, hrun₂, hf₂, hframe₂⟩ := hf₁.present hlimit hpaused wantPixels
    rw [History.replay_after hroom'] at hf₂
    obtain ⟨w₃, hrun₃, hf₃, hframe₃⟩ := ih (m := m - 1) (by omega) (by omega) hf₂
    have hm : m - 1 - k = m - (k + 1) := by omega
    rw [hm] at hf₃
    refine ⟨w₃, ?_, hf₃, fun _ F f hn => ?_⟩
    · unfold rewinds
      rw [run_bind_of_eq hrun₁, run_bind_of_eq hrun₂, run_bind_of_eq hrun₃]
      rfl
    · rcases Nat.eq_zero_or_pos k with rfl | hpos
      · obtain ⟨-, rfl⟩ := Prod.mk.inj hrun₃
        exact hframe₂ F f hn
      · exact hframe₃ hpos F f (hm ▸ hn)

/-- The snapshots of the states from the `lo`-th up to the `n`-th, without the last. -/
def snapshots (D : DrivenCore env.core c σ) (rt : Runtime) (s : σ) (lo n : ℕ) : List Blob :=
  (List.range' lo (n - lo)).map fun i => D.enc ((frameStep D rt)^[i] s)

/-- A session ends in the history that is `k` steps back and then `j` steps on. -/
theorem session_run (hlive : Live env D w s) (hpaused : w.rt.paused = false) (hlimit : 1 ≤ limit)
    (hk : k ≤ min n limit - 1) (j : ℕ) (wantPixels : Bool) :
    ∃ w', (session env wantPixels limit n k j).run w = ((.ok, List.replicate k .ok), w') ∧
      Follows D w.rt limit w'
        (.after (frameStep D w.rt) s (max (n - limit) (n - k + j - limit)) (n - k + j)) ∧
      (0 < n - k + j → ∀ (F : D.Frames) (f : Frame),
        nthFrame F w.rt s (n - k + j) = some f → w'.rt.handed = some f) := by
  obtain ⟨w₀, hrun₀, hlive₀, hsteady₀⟩ := hlive.setRewind true limit
  have hf₀ : Follows D w.rt limit w₀ (.after (frameStep D w.rt) s 0 0) :=
    ⟨hlive₀, congrArg (fun r : Runtime => { r with suppressAudio := false }) hsteady₀⟩
  obtain ⟨w₁, hrun₁, hf₁, hframe₁⟩ :=
    presents_run hlimit hpaused wantPixels n le_rfl (Nat.zero_le _) hf₀
  rw [Nat.zero_add, Nat.zero_max] at hf₁
  obtain ⟨w₂, hrun₂, hf₂, hframe₂⟩ :=
    rewinds_run hlimit hpaused wantPixels k (by omega) (by omega) hf₁
  obtain ⟨w₃, hrun₃, hf₃, hframe₃⟩ :=
    presents_run hlimit hpaused wantPixels j (by omega) (by omega) hf₂
  refine ⟨w₃, ?_, hf₃, fun hpos F f hn => ?_⟩
  · unfold session
    rw [run_bind_of_eq hrun₀, run_bind_of_eq hrun₁, run_bind_of_eq hrun₂, run_bind_of_eq hrun₃]
    rfl
  · -- The last present of the session is that of the last part that has one.
    rcases Nat.eq_zero_or_pos j with rfl | hj
    · obtain ⟨-, rfl⟩ := Prod.mk.inj hrun₃
      rcases Nat.eq_zero_or_pos k with rfl | hk'
      · obtain ⟨-, rfl⟩ := Prod.mk.inj hrun₂
        refine hframe₁ (by omega) F f ?_
        rwa [Nat.zero_add]
      · exact hframe₂ hk' F f hn
    · exact hframe₃ hj F f hn

/-- After `n` presents and `k` rewinds, as many as the ring has room for, and `j` more presents, the
core and the snapshots are those of `n - k + j` presents, and so is the frame shown last if the core
delivers it in full. When the ring is used up, the next rewind finds nothing and changes nothing. -/
theorem session_time_travel (hlive : Live env D w s) (hpaused : w.rt.paused = false)
    (hlimit : 1 ≤ limit) (hk : k ≤ min n limit - 1) (j : ℕ) (wantPixels : Bool) :
    ∃ w', (session env wantPixels limit n k j).run w = ((.ok, List.replicate k .ok), w') ∧
      Live env D w' ((frameStep D w.rt)^[n - k + j] s) ∧
      w'.rt.rewindRing =
        snapshots D w.rt s (max (n - limit) (n - k + j - limit)) (n - k + j) ∧
      (∀ F : D.Frames, (nthFrame F w.rt s (n - k + j)).isSome →
        w'.rt.handed = ((session env wantPixels limit (n - k + j) 0 0).run w).2.rt.handed) ∧
      (k = min n limit - 1 → j = 0 → (Runtime.rewind env).run w' = (.notFound, w')) := by
  obtain ⟨w', hrun, hf, hframe⟩ := session_run hlive hpaused hlimit hk j wantPixels
  refine ⟨w', hrun, hf.live, ?_, fun F hsome => ?_, ?_⟩
  · rw [hf.ring, snapshots, History.after, History.span, List.map_map]
    rfl
  · rcases Nat.eq_zero_or_pos (n - k + j) with hzero | hpos
    · -- Nothing has been presented in either session.
      obtain ⟨rfl, rfl⟩ : n = 0 ∧ j = 0 := by omega
      obtain rfl : k = 0 := by omega
      rw [hrun]
    · obtain ⟨f, hf'⟩ := Option.isSome_iff_exists.mp hsome
      obtain ⟨w'', hrun'', -, hframe''⟩ :=
        session_run (k := 0) hlive hpaused hlimit (Nat.zero_le _) 0 wantPixels (n := n - k + j)
      rw [hrun'', hframe hpos F f hf']
      exact (hframe'' hpos F f hf').symm
  · rintro rfl rfl
    exact hf.rewind_none (History.back_after_none (by omega))

/-! ### Sessions of a core with a given sequence of frames -/

/-- What the core with the given frames delivers. -/
def slideFrames (frames : List (List HostCall)) : (SlideShow.driven frames 1).Frames where
  calls acc _ := frames.getD acc.toNat []
  runFrame_calls _ _ _ := rfl

/-- Two slides and a texture. -/
def threeFrames : List (List HostCall) :=
  [[SlideShow.slide 100], [SlideShow.slide 200], [.videoRefreshGl 7 64 64 true]]

theorem session_time_travel_threeFrames :
    (SlideShow.loaded threeFrames).rt.paused = false ∧ 1 ≤ 2 ∧ 1 ≤ min 3 2 - 1 ∧
      ((session (SlideShow.env threeFrames) true 2 3 1 0).run
        (SlideShow.loaded threeFrames)).2.rt.handed =
        some (.cpu (some [200, 0, 0, 255]) 1 1 4) := by
  obtain ⟨w', hrun, -, -, hframe, -⟩ := session_time_travel (k := 1) (n := 3)
    (SlideShow.loaded_live threeFrames) (by decide) (by decide : 1 ≤ 2) (by decide) 0 true
  refine ⟨by decide, by decide, by decide, ?_⟩
  rw [hrun]
  exact (hframe (slideFrames threeFrames) (by decide)).trans (by decide +kernel)

/-- A texture, the same texture again, and another one. -/
def repeatedTexture : List (List HostCall) :=
  [[.videoRefreshGl 7 64 64 true], [.videoRefresh none 0 0 0], [.videoRefreshGl 9 64 64 true]]

/-- Going back by one from the third frame, the second frame repeats the third. -/
theorem repeat_shows_later :
    Live (SlideShow.env repeatedTexture) (SlideShow.driven repeatedTexture 1)
        (SlideShow.loaded repeatedTexture) 0 ∧
      ((session (SlideShow.env repeatedTexture) true 4 2 0 0).run
        (SlideShow.loaded repeatedTexture)).2.gpu.1.target = .texture 7 64 64 true ∧
      ((session (SlideShow.env repeatedTexture) true 4 3 1 0).run
        (SlideShow.loaded repeatedTexture)).2.gpu.1.target = .texture 9 64 64 true ∧
      ((session (SlideShow.env repeatedTexture) true 4 3 1 0).run
          (SlideShow.loaded repeatedTexture)).2.rt.handed ≠
        ((session (SlideShow.env repeatedTexture) true 4 2 0 0).run
          (SlideShow.loaded repeatedTexture)).2.rt.handed := by
  refine ⟨SlideShow.loaded_live _, ?_, ?_, ?_⟩ <;> decide +kernel

end Runtime

end RetroPark
