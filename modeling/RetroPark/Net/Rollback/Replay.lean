import RetroPark.Net.Rollback.Checkpoints
import RetroPark.Support.Replay

/-!
# A rollback session over a deterministic core

The runtime holds a deterministic driven core `D` with faithful savestates.
`Tracks env D s₀ L U n p` says that the peer `p` has the core in the state reached from `s₀` by the
frames below `n`, where frame `k` was run with the local input `L k` and the remote input `U k`, and
that its snapshots and records agree with that replay.

Each helper of a tick moves `Tracks`: running a frame extends it by one frame, loading a snapshot
takes it back, and a reconcile replaces the remote inputs from the first mispredicted frame on.
The messages that arrive are arbitrary here.
-/

namespace RetroPark.Net

open Replay RetroPark.Runtime

namespace RollbackSession

/-- The input pair of port 0 and port 1, given the local and the remote input. -/
def seat (s : RollbackSession) (lin rin : InputState) : InputState × InputState :=
  if s.localPort &&& 1 = 0 then (lin, rin) else (rin, lin)

/-- The input pair of frame `k`, given the local and the remote inputs of all frames. -/
def fed (s : RollbackSession) (L U : ℕ → InputState) (k : ℕ) : InputState × InputState :=
  s.seat (L k) (U k)

/-- The session plays on one of the two ports and its peer on the other. -/
def Seated (s : RollbackSession) : Prop :=
  (s.localPort = 0 ∧ s.remotePort = 1) ∨ (s.localPort = 1 ∧ s.remotePort = 0)

/-- The input of the local port in a frame that was run. -/
def localOf {κ : Type} (s : RollbackSession) (r : FrameRun κ) : InputState :=
  if s.localPort &&& 1 = 0 then r.port0 else r.port1

/-- The local port of a seated pair holds the local input. -/
theorem localOf_seat {κ : Type} (s : RollbackSession) (lin rin : InputState) (f : ℕ)
    (emit : Bool) (k : κ) :
    s.localOf { frame := f, port0 := (s.seat lin rin).1, port1 := (s.seat lin rin).2, emit
                before := k } = lin := by
  unfold localOf seat
  split_ifs <;> rfl

theorem seated_begin (isHost : Bool) (agreed : UInt32) : (begin isHost agreed).Seated := by
  cases isHost
  · exact Or.inr ⟨rfl, rfl⟩
  · exact Or.inl ⟨rfl, rfl⟩

end RollbackSession

namespace RollbackPeer

variable {κ β : Type} (env : Env κ β) {c : CorePtr} {σ : Type*} {D : DrivenCore env.core c σ}

/-- The last run of frame `k` in a log. -/
def lastRun (ran : List (FrameRun κ)) (k : ℕ) : Option (FrameRun κ) :=
  ran.find? fun r => r.frame = k

/-- The run in which frame `k` was first simulated, the only one that emits audio. -/
def firstRun (ran : List (FrameRun κ)) (k : ℕ) : Option (FrameRun κ) :=
  ran.find? fun r => r.frame = k && r.emit

/-- The local input recorded when frame `k` was first simulated, if it has been. -/
def recorded? (p : RollbackPeer κ β) (k : ℕ) : Option InputState :=
  (firstRun p.ran k).map p.session.localOf

/-- The local input recorded when frame `k` was first simulated. -/
def recorded (p : RollbackPeer κ β) (k : ℕ) : InputState := (p.recorded? k).getD .neutral

theorem recorded_congr {p q : RollbackPeer κ β} (h : q.recorded? = p.recorded?) :
    q.recorded = p.recorded := by
  funext k
  rw [recorded, h, recorded]

theorem lastRun_cons (r : FrameRun κ) (ran : List (FrameRun κ)) (k : ℕ) :
    lastRun (r :: ran) k = if r.frame = k then some r else lastRun ran k := by
  unfold lastRun
  rw [List.find?_cons]
  by_cases h : r.frame = k <;> simp [h]

theorem firstRun_cons (r : FrameRun κ) (ran : List (FrameRun κ)) (k : ℕ) :
    firstRun (r :: ran) k = if r.frame = k ∧ r.emit = true then some r else firstRun ran k := by
  unfold firstRun
  rw [List.find?_cons]
  by_cases h : r.frame = k
  · cases r.emit <;> simp [h]
  · simp [h]

section Live

variable {env} {s : σ} {p : RollbackPeer κ β}

/-- Running a frame steps the core on the seated inputs. -/
theorem runFrame_live (h : Live env D p.world s) (hseat : p.session.Seated) (f : ℕ)
    (lin : InputState) (emit : Bool) :
    ∃ w k, runFrame env f lin emit p = (.ok,
        { p with
          session.used := p.session.used.insert f (p.session.remoteInput f)
          world := w
          ran := { frame := f, port0 := (p.session.seat lin (p.session.remoteInput f)).1
                   port1 := (p.session.seat lin (p.session.remoteInput f)).2, emit
                   before := k } :: p.ran }) ∧
      Live env D w (D.step s (p.session.seat lin (p.session.remoteInput f))) ∧ D.view k = s := by
  obtain ⟨w₁, hw₁, hlive₁, -, hports⟩ := h.setInputs hseat lin (p.session.remoteInput f)
  have hports :
    (w₁.rt.input0, w₁.rt.input1) = p.session.seat lin (p.session.remoteInput f) := hports
  obtain ⟨w₂, hrun₂, hlive₂⟩ := hlive₁.advance emit
  refine ⟨w₂, w₁.core, ?_, hports ▸ hlive₂, hlive₁.view⟩
  unfold runFrame
  dsimp only
  rw [hw₁, hrun₂, ← hports]

/-- Saving a snapshot stores the serialized state and leaves the core where it is. -/
theorem saveRing_live (h : Live env D p.world s) (f : ℕ) :
    ∃ w, saveRing env f p =
        { p with world := w, session.ring := p.session.ring.insert f (D.enc s) } ∧
      Live env D w s := by
  obtain ⟨w₁, w₂, hsize, hsave, hlive, -⟩ := h.snapshot
  refine ⟨w₂, ?_, hlive⟩
  unfold saveRing
  dsimp only
  rw [hsize]
  dsimp only
  rw [if_neg (D.enc_pos s).ne', hsave, fillBuffer_length]
  rfl

end Live

/-! ### The invariant -/

/-- The core has run the frames below `n`, frame `k` with the local input `L k` and the remote
input `U k`; the snapshots and the records of inputs from the verified frame on, and the log of
frames run, agree with that. -/
structure Tracks (D : DrivenCore env.core c σ) (s₀ : σ) (L U : ℕ → InputState) (n : ℕ)
    (p : RollbackPeer κ β) : Prop where
  seated : p.session.Seated
  live : Live env D p.world (replay D.step s₀ (p.session.fed L U) n)
  ring : ∀ k < n, ∀ b, p.session.ring.find? k = some b →
    b = D.enc (replay D.step s₀ (p.session.fed L U) k)
  locals : ∀ k, p.session.verified ≤ k → k < p.session.frame →
    p.session.locals.find? k = some (L k)
  used : ∀ k, p.session.verified ≤ k → k < n → p.session.used.find? k = some (U k)
  log : ∀ k < n, ∃ r, lastRun p.ran k = some r ∧ (r.port0, r.port1) = p.session.fed L U k ∧
    D.view r.before = replay D.step s₀ (p.session.fed L U) k

section Tracks

variable {env} {s₀ : σ} {L U L' U' : ℕ → InputState} {n : ℕ} {p : RollbackPeer κ β}

/-- Inputs that agree where they have been used are interchangeable. -/
theorem Tracks.congr_inputs (h : Tracks env D s₀ L U n p) (hL : ∀ k < n, L' k = L k)
    (hLframe : ∀ k < p.session.frame, L' k = L k) (hU : ∀ k < n, U' k = U k) :
    Tracks env D s₀ L' U' n p := by
  have hfed : ∀ k < n, p.session.fed L' U' k = p.session.fed L U k := by
    intro k hk
    rw [RollbackSession.fed, RollbackSession.fed, hL k hk, hU k hk]
  have hreplay : ∀ k ≤ n, replay D.step s₀ (p.session.fed L' U') k =
      replay D.step s₀ (p.session.fed L U) k :=
    fun k hk => replay_congr fun i hi => hfed i (hi.trans_le hk)
  refine ⟨h.seated, ?_, ?_, ?_, ?_, ?_⟩
  · rw [hreplay n le_rfl]
    exact h.live
  · intro k hk b hb
    rw [hreplay k hk.le]
    exact h.ring k hk b hb
  · intro k hk hkf
    rw [hLframe k hkf]
    exact h.locals k hk hkf
  · intro k hk hkn
    rw [hU k hkn]
    exact h.used k hk hkn
  · intro k hk
    rw [hfed k hk, hreplay k hk.le]
    exact h.log k hk

/-- The snapshot of the frame about to run agrees with the replay. -/
def SnapshotOk (D : DrivenCore env.core c σ) (s₀ : σ) (L U : ℕ → InputState) (n : ℕ)
    (p : RollbackPeer κ β) : Prop :=
  ∀ b, p.session.ring.find? n = some b → b = D.enc (replay D.step s₀ (p.session.fed L U) n)

/-- Running the next frame extends the replay by that frame. -/
theorem Tracks.runFrame (h : Tracks env D s₀ L U n p) (hring : SnapshotOk D s₀ L U n p)
    (hU : U n = p.session.remoteInput n) (emit : Bool) :
    ∃ q, RollbackPeer.runFrame env n (L n) emit p = (.ok, q) ∧ Tracks env D s₀ L U (n + 1) q ∧
      q.session.ring = p.session.ring ∧ q.session.locals = p.session.locals ∧
      ∀ k, q.recorded? k = if n = k ∧ emit = true then some (L n) else p.recorded? k := by
  obtain ⟨w, k₀, hrun, hlive, hview⟩ := runFrame_live h.live h.seated n (L n) emit
  refine ⟨_, hrun, ?_, rfl, rfl, ?_⟩
  · refine ⟨h.seated, ?_, ?_, h.locals, ?_, ?_⟩
    · change Live env D w (replay D.step s₀ (p.session.fed L U) (n + 1))
      rw [replay_succ, RollbackSession.fed, hU]
      exact hlive
    · -- The snapshot of frame `n` itself is the caller's to know.
      intro k hk b hb
      rcases Nat.lt_or_eq_of_le (Nat.le_of_lt_succ hk) with hlt | rfl
      · exact h.ring k hlt b hb
      · exact hring b hb
    · intro k hk hkn
      change (p.session.used.insert n (p.session.remoteInput n)).find? k = some (U k)
      rw [OrderedMap.find?_insert]
      split_ifs with heq
      · rw [heq, hU]
      · exact h.used k hk (by omega)
    · intro k hk
      change ∃ r, lastRun (_ :: p.ran) k = some r ∧ _
      rw [lastRun_cons]
      split_ifs with heq
      · refine ⟨_, rfl, ?_, ?_⟩
        · change p.session.seat (L n) (p.session.remoteInput n) = p.session.fed L U k
          rw [← heq, RollbackSession.fed, hU]
        · exact heq ▸ hview
      · exact h.log k (by have := Nat.le_of_lt_succ hk; dsimp only at heq; omega)
  · intro k
    unfold recorded?
    change Option.map _ (firstRun (_ :: p.ran) k) = _
    rw [firstRun_cons]
    split_ifs
    · exact congrArg some (p.session.localOf_seat _ _ _ _ _)
    · rfl

/-- Saving the snapshot of the frame about to run. -/
theorem Tracks.saveRing (h : Tracks env D s₀ L U n p) :
    Tracks env D s₀ L U n (RollbackPeer.saveRing env n p) ∧
      SnapshotOk D s₀ L U n (RollbackPeer.saveRing env n p) ∧
      ((RollbackPeer.saveRing env n p).session.ring.find? n).isSome ∧
      (RollbackPeer.saveRing env n p).session.locals = p.session.locals ∧
      (RollbackPeer.saveRing env n p).session.remoteInput = p.session.remoteInput ∧
      ∀ k, (RollbackPeer.saveRing env n p).recorded? k = p.recorded? k := by
  obtain ⟨w, hsave, hlive⟩ := saveRing_live h.live n
  rw [hsave]
  refine ⟨⟨h.seated, hlive, ?_, h.locals, h.used, h.log⟩, ?_, ?_, rfl, rfl, fun _ => rfl⟩
  · intro k hk b hb
    change (p.session.ring.insert n _).find? k = some b at hb
    rw [OrderedMap.find?_insert_of_ne _ _ hk.ne] at hb
    exact h.ring k hk b hb
  · intro b hb
    change (p.session.ring.insert n _).find? n = some b at hb
    rw [OrderedMap.find?_insert_self] at hb
    exact (Option.some.inj hb).symm
  · change ((p.session.ring.insert n _).find? n).isSome
    rw [OrderedMap.find?_insert_self]
    rfl

/-- Resimulating `m` frames runs them with the remote inputs now known or predicted. -/
theorem Tracks.resimulate {m : ℕ} (h : Tracks env D s₀ L U n p)
    (hring : SnapshotOk D s₀ L U n p) (hver : p.session.verified ≤ n)
    (hend : n + m ≤ p.session.frame)
    (hU : ∀ k, n ≤ k → k < n + m → U k = p.session.remoteInput k) :
    ∃ q, RollbackPeer.resimulate env m n p = (true, q) ∧ Tracks env D s₀ L U (n + m) q ∧
      q.session.locals = p.session.locals ∧ ∀ k, q.recorded? k = p.recorded? k := by
  -- Induction on the number of frames; each runs one and saves the next snapshot.
  induction m generalizing n p with
  | zero => exact ⟨p, rfl, h, rfl, fun _ => rfl⟩
  | succ m ih =>
    have hlocal : p.session.locals.index n .neutral = (L n, p.session.locals) :=
      OrderedMap.index_of_find? (h.locals n hver (by omega)) _
    obtain ⟨q, hrun, hq, -, hlocals, hrec⟩ := h.runFrame hring (hU n le_rfl (by omega)) false
    have hsame : SameOutline p q := by
      have := runFrame_sameOutline env n (L n) false p
      rwa [hrun] at this
    obtain ⟨hsaved, hring', -, hlocals', hremote, hrec'⟩ := hq.saveRing
    have hsame' : SameOutline p (RollbackPeer.saveRing env (n + 1) q) :=
      hsame.trans (saveRing_sameOutline env (n + 1) q)
    have hinput : q.session.remoteInput = p.session.remoteInput :=
      (congrArg RollbackSession.remoteInput hsame.outline :)
    obtain ⟨hframe, -, -, hver'⟩ := RollbackSession.counters_of_outline hsame'.outline
    obtain ⟨q', hresim, hq', hlocals'', hrec''⟩ := ih hsaved hring' (by omega) (by omega)
      fun k hk hkm => by rw [hremote, hinput]; exact hU k (by omega) (by omega)
    refine ⟨q', ?_, by rwa [show n + (m + 1) = n + 1 + m by omega], ?_, ?_⟩
    · rw [RollbackPeer.resimulate, hlocal]
      dsimp only
      rw [hrun]
      dsimp only
      rw [if_neg (not_not_intro rfl), hresim]
    · rw [hlocals'', hlocals', hlocals]
    · intro k
      rw [hrec'' k, hrec' k, hrec k]
      simp

/-- Rolling back to frame `g` and resimulating replaces the remote inputs from `g` on. -/
theorem Tracks.rollBack {g : ℕ} (h : Tracks env D s₀ L U p.session.frame p)
    (hstock : p.session.Stocked) (hver : p.session.verified ≤ g) (hg : g < p.session.frame) :
    ∃ q, RollbackPeer.rollBack env g p = (true, q) ∧
      Tracks env D s₀ L (fun k => if k < g then U k else p.session.remoteInput k)
        p.session.frame q ∧
      q.session.locals = p.session.locals ∧ ∀ k, q.recorded? k = p.recorded? k := by
  obtain ⟨b, hb⟩ := Option.isSome_iff_exists.mp (hstock g hver hg)
  have hsnap : p.session.ring.index g [] = (b, p.session.ring) := OrderedMap.index_of_find? hb _
  have henc : b = D.enc (replay D.step s₀ (p.session.fed L U) g) := h.ring g hg b hb
  obtain ⟨w, hload, hlive⟩ := h.live.loadState (replay D.step s₀ (p.session.fed L U) g)
  rw [← henc] at hload
  -- The peer right after the snapshot is loaded has only run the frames below `g`.
  have hback : Tracks env D s₀ L U g { p with world := w } :=
    ⟨h.seated, hlive, fun k hk => h.ring k (hk.trans hg), h.locals,
      fun k hk hkg => h.used k hk (hkg.trans hg), fun k hk => h.log k (hk.trans hg)⟩
  have hback' : Tracks env D s₀ L (fun k => if k < g then U k else p.session.remoteInput k) g
      { p with world := w } :=
    hback.congr_inputs (fun _ _ => rfl) (fun _ _ => rfl) fun k hk => if_pos hk
  -- The snapshot at `g` depends on the frames below `g` only, whose inputs stay.
  have hring : SnapshotOk D s₀ L (fun k => if k < g then U k else p.session.remoteInput k) g
      { p with world := w } := by
    intro b' hb'
    obtain rfl : b = b' := Option.some.inj (hb.symm.trans hb')
    rw [henc]
    refine congrArg D.enc (replay_congr fun i hi => ?_)
    change p.session.seat (L i) (U i) = p.session.seat (L i) (if i < g then _ else _)
    rw [if_pos hi]
  have hend : g + (p.session.frame - g) = p.session.frame := by omega
  obtain ⟨q, hresim, hq, hlocals, hrec⟩ := hback'.resimulate hring hver hend.le
    fun k hk _ => if_neg (Nat.not_lt.mpr hk)
  rw [hend] at hq
  refine ⟨{ q with session.rollbackCount := q.session.rollbackCount + 1 }, ?_, ?_, hlocals, hrec⟩
  · unfold RollbackPeer.rollBack
    dsimp only
    rw [hsnap]
    dsimp only
    rw [hload]
    dsimp only
    rw [if_neg (not_not_intro rfl), hresim]
    rfl
  · exact ⟨hq.seated, hq.live, hq.ring, hq.locals, hq.used, hq.log⟩

/-- A reconcile succeeds. It keeps the remote inputs of the frames verified before, and the frames
it verifies were run with the remote inputs that have arrived for them. -/
theorem Tracks.reconcile (h : Tracks env D s₀ L U p.session.frame p) (hstock : p.session.Stocked) :
    ∃ q U', RollbackPeer.reconcile env p = (true, q) ∧
      Tracks env D s₀ L U' p.session.frame q ∧ q.session.locals = p.session.locals ∧
      (∀ k, q.recorded? k = p.recorded? k) ∧
      (∀ k < p.session.verified, U' k = U k) ∧
      ∀ k r, p.session.verified ≤ k → k < p.session.target →
        p.session.remotes.find? k = some r → U' k = r := by
  -- A frame that was not mispredicted was run with the remote input that has arrived for it.
  have hmatch : ∀ k r, p.session.verified ≤ k → k < p.session.frame →
      p.session.remotes.find? k = some r →
      ¬Mispredicted p.session.remotes p.session.used k → U k = r := by
    intro k r hk hkf hr hnot
    by_contra hne
    refine hnot ⟨r, hr, ?_⟩
    rw [h.used k hk hkf]
    exact fun heq => hne heq.symm
  rcases reconcile_cases env p with ⟨htarget, heq⟩ | ⟨-, hle, hnot, heq⟩ |
    ⟨g, hver, hg, hle, hnot, heq⟩
  · exact ⟨p, U, heq, h, rfl, fun _ => rfl, fun _ _ => rfl, fun k r hk hkt => by omega⟩
  · have hle' : p.session.verified ≤ p.session.target := le_max_left _ _
    refine ⟨_, U, heq, ⟨h.seated, h.live, h.ring, ?_, ?_, h.log⟩, rfl, fun _ => rfl, fun _ _ => rfl,
      ?_⟩
    · exact fun k hk => h.locals k (hle'.trans hk)
    · exact fun k hk => h.used k (hle'.trans hk)
    · exact fun k r hk hkt hr => hmatch k r hk (by omega) hr (hnot k hk hkt)
  · -- The earliest mispredicted frame `g` is rolled back to.
    obtain ⟨q, hroll, hq, hlocals, hrec⟩ := h.rollBack hstock hver (hg.trans_le hle)
    have hsame : SameOutline p q := by
      have := rollBack_sameOutline env g p
      rwa [hroll] at this
    obtain ⟨-, -, -, hverq⟩ := RollbackSession.counters_of_outline hsame.outline
    have hle' : q.session.verified ≤ p.session.target := hverq.trans_le (le_max_left _ _)
    rw [hroll, if_pos rfl] at heq
    refine ⟨_, _, heq, ⟨hq.seated, hq.live, hq.ring, ?_, ?_, hq.log⟩, hlocals, hrec, ?_, ?_⟩
    · exact fun k hk => hq.locals k (hle'.trans hk)
    · exact fun k hk => hq.used k (hle'.trans hk)
    · exact fun k hk => if_pos (hk.trans_le hver)
    · intro k r hk hkt hr
      -- Frames below `g` were predicted right; those from `g` on ran again.
      by_cases hkg : k < g
      · simp only [hkg, if_true]
        exact hmatch k r hk (by omega) hr (hnot k hk hkg)
      · simp only [hkg, if_false, RollbackSession.remoteInput, hr, Option.getD_some]

/-- Recording and sending the next local input keeps what the peer tracks. -/
theorem Tracks.sendInput (h : Tracks env D s₀ L U n p) (localNow : InputState) (sent : Bool) :
    Tracks env D s₀ L U n (RollbackPeer.sendInput localNow sent p) := by
  refine ⟨h.seated, h.live, h.ring, ?_, h.used, h.log⟩
  intro k hk hkf
  change (p.session.locals.insert p.session.frame localNow).find? k = some (L k)
  change k < p.session.frame at hkf
  rw [OrderedMap.find?_insert_of_ne _ _ hkf.ne]
  exact h.locals k hk hkf

/-- Received messages keep what the peer tracks. -/
theorem Tracks.drain (h : Tracks env D s₀ L U n p) (ms : List Message) :
    Tracks env D s₀ L U n { p with session := p.session.drain ms } := by
  -- Messages only touch the fields that `Tracks` does not read.
  have hoff := p.session.drain_offline ms
  have hfed : (p.session.drain ms).fed = p.session.fed := (congrArg RollbackSession.fed hoff :)
  have hframe : (p.session.drain ms).frame = p.session.frame :=
    (congrArg RollbackSession.frame hoff :)
  have hver : (p.session.drain ms).verified = p.session.verified :=
    (congrArg RollbackSession.verified hoff :)
  have hring : (p.session.drain ms).ring = p.session.ring := (congrArg RollbackSession.ring hoff :)
  have hlocals : (p.session.drain ms).locals = p.session.locals :=
    (congrArg RollbackSession.locals hoff :)
  have hused : (p.session.drain ms).used = p.session.used := (congrArg RollbackSession.used hoff :)
  have hseated : (p.session.drain ms).Seated = p.session.Seated :=
    (congrArg RollbackSession.Seated hoff :)
  refine ⟨hseated ▸ h.seated, ?_, ?_, ?_, ?_, ?_⟩ <;> dsimp only
  · rw [hfed]
    exact h.live
  · rw [hring, hfed]
    exact h.ring
  · rw [hver, hframe, hlocals]
    exact h.locals
  · rw [hver, hused]
    exact h.used
  · rw [hfed]
    exact h.log

/-- The end of a tick keeps what the peer tracks. -/
theorem Tracks.finish (h : Tracks env D s₀ L U n p) (status : RbStatus) {checksumSent : Bool} :
    Tracks env D s₀ L U n (RollbackPeer.finish status checksumSent p).2 := by
  have hfields := finish_session status checksumSent p
  have hworld : (RollbackPeer.finish status checksumSent p).2.world = p.world :=
    maybeSendChecksum_world checksumSent p
  have hran : (RollbackPeer.finish status checksumSent p).2.ran = p.ran :=
    maybeSendChecksum_ran checksumSent p
  have hfed : (RollbackPeer.finish status checksumSent p).2.session.fed = p.session.fed := by
    rw [hfields]
    rfl
  refine ⟨?_, ?_, ?_, ?_, ?_, ?_⟩
  · rw [hfields]
    exact h.seated
  · rw [hworld, hfed]
    exact h.live
  · intro k hk b hb
    rw [hfields] at hb
    rw [hfed]
    exact h.ring k hk b (OrderedMap.find?_of_find?_eraseBelow hb).2
  · rw [hfields]
    intro k hk hkf
    change (p.session.locals.eraseBelow p.session.floor).find? k = some (L k)
    -- Pruning erases nothing from the verified frame on.
    rw [OrderedMap.find?_eraseBelow_of_le _ (p.session.floor_le.trans hk)]
    exact h.locals k hk hkf
  · rw [hfields]
    intro k hk hkn
    change (p.session.used.eraseBelow p.session.floor).find? k = some (U k)
    rw [OrderedMap.find?_eraseBelow_of_le _ (p.session.floor_le.trans hk)]
    exact h.used k hk hkn
  · rw [hran, hfed]
    exact h.log

/-- Past the reconcile a tick stalls or simulates the next frame; the runtime does not fail. -/
theorem Tracks.stallOrRun (h : Tracks env D s₀ L U p.session.frame p) {localNow : InputState}
    (hlocal : p.session.locals.find? p.session.frame = some localNow)
    (wantPixels checksumSent : Bool) :
    (p.session.maxPrediction.toNat ≤ p.session.ahead ∧ ∃ w,
      RollbackPeer.stallOrRun env localNow wantPixels checksumSent p =
        RollbackPeer.finish .stalled checksumSent { p with world := w } ∧
      Tracks env D s₀ L U p.session.frame { p with world := w }) ∨
    (p.session.ahead < p.session.maxPrediction.toNat ∧ ∃ q,
      RollbackPeer.stallOrRun env localNow wantPixels checksumSent p =
        RollbackPeer.finish .ok checksumSent q ∧
      q.session.outline = { p.session.outline with frame := p.session.frame + 1 } ∧
      q.sent = p.sent ∧
      (p.session.Stocked → q.session.Stocked) ∧
      (∀ k, q.recorded? k = if p.session.frame = k then some localNow else p.recorded? k) ∧
      Tracks env D s₀ (fun k => if p.session.frame = k then localNow else L k)
        (fun k => if p.session.frame = k then p.session.remoteInput p.session.frame else U k)
        (p.session.frame + 1) q) := by
  by_cases hahead : p.session.maxPrediction.toNat ≤ p.session.ahead
  · obtain ⟨r, w, hrender, hlive⟩ := h.live.render wantPixels
    refine Or.inl ⟨hahead, w, ?_, ⟨h.seated, hlive, h.ring, h.locals, h.used, h.log⟩⟩
    unfold RollbackPeer.stallOrRun
    dsimp only
    rw [if_pos hahead, hrender]
  · refine Or.inr ⟨Nat.not_le.mp hahead, ?_⟩
    -- Recording the input of the next frame changes nothing below it.
    have hnext : Tracks env D s₀ (fun k => if p.session.frame = k then localNow else L k)
        (fun k => if p.session.frame = k then p.session.remoteInput p.session.frame else U k)
        p.session.frame p :=
      h.congr_inputs (fun k hk => if_neg hk.ne') (fun k hk => if_neg hk.ne')
        fun k hk => if_neg hk.ne'
    obtain ⟨hsaved, hring, hsome, hlocals, hremote, hrec⟩ := hnext.saveRing
    obtain ⟨q, hrun, hq, hring', hlocals', hrec'⟩ :=
      hsaved.runFrame hring (by rw [hremote]; exact if_pos rfl) true
    rw [if_pos rfl] at hrun
    have hsame' : SameOutline p q := by
      refine (saveRing_sameOutline env p.session.frame p).trans ?_
      have := runFrame_sameOutline env p.session.frame localNow true
        (RollbackPeer.saveRing env p.session.frame p)
      rwa [hrun] at this
    obtain ⟨r, w', hrender, hlive⟩ := hq.live.render wantPixels
    refine ⟨{ q with world := w', session.frame := p.session.frame + 1 }, ?_, ?_,
      hsame'.sent, ?_, ?_,
      ⟨hq.seated, hlive, hq.ring, ?_, hq.used, hq.log⟩⟩
    · unfold RollbackPeer.stallOrRun
      dsimp only
      rw [if_neg hahead, hrun]
      dsimp only
      rw [if_neg (not_not_intro rfl), hrender]
    · exact congrArg (fun s : RollbackSession => { s with frame := p.session.frame + 1 })
        hsame'.outline
    · intro hstock k hk hkf
      change (q.session.ring.find? k).isSome
      rw [hring']
      -- A frame below the next was stocked before; the next has just been saved.
      rcases Nat.lt_or_eq_of_le (Nat.le_of_lt_succ hkf) with hlt | rfl
      · exact saveRing_grows env p.session.frame p k
          (hstock k (hsame'.verified_eq.symm.trans_le hk) hlt)
      · exact hsome
    · intro k
      refine (hrec' k).trans ?_
      simp only [and_true, if_true, hrec]
    · intro k hk hkf
      change q.session.locals.find? k = _
      have hver : p.session.verified ≤ k := hsame'.verified_eq.symm.trans_le hk
      rw [hlocals', hlocals]
      split_ifs with heq
      · rw [← heq, hlocal]
      · exact h.locals k hver (by change k < p.session.frame + 1 at hkf; omega)

end Tracks

end RollbackPeer

end RetroPark.Net
