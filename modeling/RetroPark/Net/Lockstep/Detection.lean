import RetroPark.Net.Lockstep.Lead

/-!
# Detecting a lockstep desync

The checksum of frame `f` reaches the other side just before the input of frame `f + D + 1`, and the
other side compares it in its tick at that frame if its own checksum of frame `f` is still there.
Checksums are kept for 120 frames, so a delay of more than that loses every one of them.

* `Sums` and `Compares` are the invariants of the two maps of checksums: each holds the latest value
  sent or received, for as long as it may be compared;
* `desync_detected` is about every match with a delay of at most 120 frames, whether or not ticks
  time out or go on after a desync.
-/

namespace RetroPark.Net

open Duplex RetroPark.Runtime

/-- In the order in which one side sends its messages, an input is for at most `D` frames after the
checksums that follow it. -/
def Message.Precedes (D : ℕ) : Message → Message → Prop
  | .input i, .checksum c => i.frame ≤ c.frame + D
  | _, _ => True

theorem latest_checksum_input (f : ℕ) (ms : List Message) (i : Input) :
    latest (Message.checksumFor f) (ms ++ [.input i]) = latest (Message.checksumFor f) ms :=
  latest_append_of_none fun m hm => by rw [List.mem_singleton.mp hm]; rfl

theorem mem_checksums_iff {f : ℕ} {ms : List Message} {crc : UInt32} :
    crc ∈ ms.filterMap (Message.checksumFor f) ↔ .checksum { frame := f, crc } ∈ ms := by
  rw [List.mem_filterMap]
  constructor
  · rintro ⟨m, hm, hmc⟩
    cases m with
    | checksum c =>
      rw [Message.checksumFor] at hmc
      split_ifs at hmc with hframe
      obtain rfl := hframe
      obtain rfl := Option.some.inj hmc
      exact hm
    | input _ => simp [Message.checksumFor] at hmc
    | other => simp [Message.checksumFor] at hmc
  · exact fun h => ⟨_, h, by simp [Message.checksumFor]⟩

theorem mem_of_latest_checksum {f : ℕ} {ms : List Message} {crc : UInt32}
    (h : latest (Message.checksumFor f) ms = some crc) : .checksum { frame := f, crc } ∈ ms :=
  mem_checksums_iff.mp (List.mem_of_getLast? h)

theorem latest_checksum_isSome {f : ℕ} {ms : List Message} {crc : UInt32}
    (h : .checksum { frame := f, crc } ∈ ms) : (latest (Message.checksumFor f) ms).isSome :=
  latest_isSome h (by simp [Message.checksumFor])

namespace NetPeer

variable {κ β : Type} {env : Env κ β}

/-- Both sides have computed a checksum of frame `f`, and none of the one is one of the other. -/
structure Differ (f : ℕ) (p q : NetPeer κ β) : Prop where
  left : ∃ crc, .checksum { frame := f, crc } ∈ p.sent
  right : ∃ crc, .checksum { frame := f, crc } ∈ q.sent
  ne : ∀ a b, .checksum { frame := f, crc := a } ∈ p.sent →
    .checksum { frame := f, crc := b } ∈ q.sent → a ≠ b

theorem differ_iff {f : ℕ} {p q : NetPeer κ β} :
    Differ f p q ↔ p.sent.filterMap (Message.checksumFor f) ≠ [] ∧
      q.sent.filterMap (Message.checksumFor f) ≠ [] ∧
      (p.sent.filterMap (Message.checksumFor f)).all (fun a =>
        (q.sent.filterMap (Message.checksumFor f)).all fun b => a != b) = true := by
  simp only [List.all_eq_true, bne_iff_ne]
  have hexists : ∀ r : NetPeer κ β, r.sent.filterMap (Message.checksumFor f) ≠ [] ↔
      ∃ crc, .checksum { frame := f, crc } ∈ r.sent := by
    intro r
    constructor
    · intro hne
      obtain ⟨crc, hcrc⟩ := List.exists_mem_of_ne_nil _ hne
      exact ⟨crc, mem_checksums_iff.mp hcrc⟩
    · rintro ⟨crc, hcrc⟩
      exact List.ne_nil_of_mem (mem_checksums_iff.mpr hcrc)
  constructor
  · intro h
    exact ⟨(hexists p).mpr h.left, (hexists q).mpr h.right, fun a ha b hb =>
      h.ne a b (mem_checksums_iff.mp ha) (mem_checksums_iff.mp hb)⟩
  · rintro ⟨hp, hq, hne⟩
    exact ⟨(hexists p).mp hp, (hexists q).mp hq, fun a b ha hb =>
      hne a (mem_checksums_iff.mpr ha) b (mem_checksums_iff.mpr hb)⟩

instance (f : ℕ) (p q : NetPeer κ β) : Decidable (Differ f p q) :=
  decidable_of_iff _ differ_iff.symm

/-- Only the checksums of the frame matter. -/
theorem Differ.congr {f : ℕ} {p p' q q' : NetPeer κ β} (h : Differ f p' q')
    (hp : ∀ crc, .checksum { frame := f, crc } ∈ p'.sent → .checksum { frame := f, crc } ∈ p.sent)
    (hq : ∀ crc, .checksum { frame := f, crc } ∈ q'.sent → .checksum { frame := f, crc } ∈ q.sent)
    (hp' : ∀ crc, .checksum { frame := f, crc } ∈ p.sent → .checksum { frame := f, crc } ∈ p'.sent)
    (hq' : ∀ crc, .checksum { frame := f, crc } ∈ q.sent →
      .checksum { frame := f, crc } ∈ q'.sent) : Differ f p q :=
  ⟨h.left.imp hp, h.right.imp hq, fun a b ha hb => h.ne a b (hp' a ha) (hq' b hb)⟩

section Detection

variable {D : ℕ} {x y : Party (NetPeer κ β) InputState} {m m' : Link (NetPeer κ β) InputState}

/-- A side and its own checksums. -/
structure Sums (env : Env κ β) (D : ℕ) (x : Party (NetPeer κ β) InputState) : Prop where
  own : ∀ f, x.state.session.frame ≤ f + 121 →
    x.state.session.ownCrc.find? f = latest (Message.checksumFor f) x.state.sent
  frame_le : ∀ c : Checksum, .checksum c ∈ x.state.sent → c.frame ≤ x.state.session.frame
  ordered : ((protocol env).outbox x).Pairwise (Message.Precedes D)

/-- A side and the checksums of the other side. -/
structure Compares (env : Env κ β) (D : ℕ) (x y : Party (NetPeer κ β) InputState) : Prop where
  peer : ∀ f, x.state.session.frame ≤ f + 121 →
    x.state.session.peerCrc.find? f = latest (Message.checksumFor f) (received env x y)
  agreed : ∀ f, f + D + 1 < x.state.session.frame → ¬Differ f x.state y.state

theorem sums_start {delay : UInt32} {w : Side → World κ β} (s : Side) :
    Sums env delay.toNat (startMatch delay w s) where
  own _ _ := rfl
  frame_le c hc := by simp [startMatch] at hc
  ordered := List.Pairwise.nil

theorem compares_start {delay : UInt32} {w : Side → World κ β} (s : Side) :
    Compares env delay.toNat (startMatch delay w s) (startMatch delay w s.other) where
  peer _ _ := rfl
  agreed _ hf := absurd hf (Nat.not_lt_zero _)

theorem Sums.begin (h : Sums env D x) (hidle : x.calling = none) (localNow : InputState) :
    Sums env D { x with calling := some localNow } := by
  refine ⟨h.own, h.frame_le, ?_⟩
  show (x.state.sent ++ [x.state.inputMessage localNow]).Pairwise _
  -- Nothing is asked of an input that follows a message.
  refine List.pairwise_append.mpr ⟨?_, List.pairwise_singleton _ _, fun m _ m' hm' => ?_⟩
  · have := h.ordered
    rwa [Protocol.outbox_idle hidle] at this
  · rw [List.mem_singleton.mp hm', inputMessage]
    cases m <;> trivial

/-- The own checksums stay the latest ones sent. -/
theorem Records.own_eq {s : NetSession} {own : OrderedMap ℕ UInt32} {cs : List Checksum}
    {goesOn : Bool} (h : Records s true own cs goesOn) {f : ℕ} {ms : List Message}
    (hown : s.ownCrc.find? f = latest (Message.checksumFor f) ms) :
    own.find? f = latest (Message.checksumFor f) (ms ++ cs.map .checksum) := by
  cases h with
  | skipped => rwa [List.map_nil, List.append_nil]
  | sent crc _ _ =>
    rw [List.map_singleton, latest_concat, ← hown, OrderedMap.find?_insert, Message.checksumFor]
    by_cases hf : s.frame = f
    · rw [if_pos hf.symm, if_pos hf]
      rfl
    · rw [if_neg (Ne.symm hf), if_neg hf]
      rfl
  | lost _ _ out => exact absurd out (by decide)

variable (env) in
theorem checksum_mem_outbox {c : Checksum} :
    .checksum c ∈ (protocol env).outbox x ↔ .checksum c ∈ x.state.sent := by
  unfold Protocol.outbox
  cases x.calling with
  | none => exact Iff.rfl
  | some localNow =>
    refine ⟨fun h => ?_, fun h => List.mem_append_left _ h⟩
    rcases List.mem_append.mp h with hold | hnew
    · exact hold
    · exact absurd (List.mem_singleton.mp hnew) (by simp [protocol, inputMessage])

/-- A tick that ends has recorded and sent the checksum of its frame at most. -/
theorem Sums.finish {localNow : InputState} (h : Sums env D x) (hkeeps : Keeps env D x)
    (hcalling : x.calling = some localNow) (ms : List Message) (taken : ℕ) :
    Sums env D { state := ((protocol env).finish x.state localNow () ms).1, taken } := by
  obtain ⟨n, -, -, hcases⟩ := finish_cases env hkeeps.connected localNow ms
  have hout := afterReceive_sent env hcalling (ms.take n)
  have hown : ∀ f, x.state.session.frame ≤ f + 121 → x.state.session.ownCrc.find? f =
      latest (Message.checksumFor f) (x.state.afterReceive localNow (ms.take n)).sent := by
    intro f hf
    exact (h.own f hf).trans (latest_checksum_input f _ _).symm
  have hframe : ∀ c : Checksum,
      .checksum c ∈ (x.state.afterReceive localNow (ms.take n)).sent →
      c.frame ≤ x.state.session.frame := by
    intro c hc
    rw [hout, checksum_mem_outbox env] at hc
    exact h.frame_le c hc
  dsimp only at hcases
  rcases hcases with ⟨hq, -⟩ | ⟨-, q, hshown, hq⟩
  · rw [hq]
    refine ⟨hown, hframe, ?_⟩
    show (x.state.afterReceive localNow (ms.take n)).sent.Pairwise _
    rw [hout]
    exact h.ordered
  · obtain ⟨own, cs, hsession, hcs, hrecords⟩ := hshown.records
    have hsettled := settle_settled q
    have hqframe : q.session.frame = x.state.session.frame := by rw [hsession]; rfl
    obtain ⟨-, hge, -⟩ := hsettled.frame_cases
    rw [hqframe] at hge
    rw [hq]
    refine ⟨fun f hf => ?_, fun c hc => ?_, ?_⟩
    · rw [hsettled.ownCrc f hf, hsettled.sent, hsession, hcs]
      exact hrecords.own_eq (hown f (hge.trans hf))
    · have hc : Message.checksum c ∈ q.sent := hsettled.sent ▸ hc
      rw [hcs] at hc
      rcases List.mem_append.mp hc with hold | hnew
      · exact (hframe c hold).trans hge
      · obtain ⟨c', hc', heq⟩ := List.mem_map.mp hnew
        obtain rfl := Message.checksum.inj heq
        exact (hrecords.frame_eq c' hc').trans_le hge
    · show (settle q).sent.Pairwise _
      rw [hsettled.sent, hcs, hout]
      refine List.pairwise_append.mpr ⟨h.ordered, ?_, fun m hm m' hm' => ?_⟩
      · exact List.pairwise_map.mpr (List.pairwise_of_forall fun _ _ => trivial)
      · obtain ⟨c, hc, rfl⟩ := List.mem_map.mp hm'
        cases m with
        | input i =>
          -- An input already sent is for at most `D` frames ahead of the frame presented.
          exact (hkeeps.sent_le i hm).trans
            (Nat.add_le_add_right (hrecords.frame_eq c hc).ge D)
        | checksum _ => trivial
        | other => trivial

/-- What the other side sends later is no checksum of a frame this side has compared. -/
theorem Compares.other {y' : Party (NetPeer κ β) InputState} {ms : List Message}
    (h : Compares env D x y) (hhears : Hears env D x y) (hy : Keeps env D y)
    (hout : (protocol env).outbox y' = (protocol env).outbox y ++ ms)
    (hms : ∀ c : Checksum, .checksum c ∈ ms → c.frame = y.state.session.frame) :
    Compares env D x y' := by
  refine ⟨?_, fun f hf hdiffer => h.agreed f hf ?_⟩
  · rw [received_append hhears.taken_le hout]
    exact h.peer
  · -- The input of the frame before has been sent, so the other side is past frame `f`.
    obtain ⟨i, hframe, hmem⟩ := exists_input_of_lastInput
      (hhears.heard (x.state.session.frame - 1) (by omega) (by omega))
    have hle := hy.sent_le i (List.mem_of_mem_take hmem)
    have hsame : ∀ crc, .checksum { frame := f, crc } ∈ y'.state.sent ↔
        .checksum { frame := f, crc } ∈ y.state.sent := by
      intro crc
      rw [← checksum_mem_outbox env, ← checksum_mem_outbox env, hout,
        List.mem_append]
      refine or_iff_left fun hnew => ?_
      have : f = y.state.session.frame := hms _ hnew
      omega
    exact hdiffer.congr (fun _ h => h) (fun crc => (hsame crc).mp) (fun _ h => h)
      fun crc => (hsame crc).mpr

/-- Without a mismatch, a checksum on both sides is the same. -/
theorem eq_of_not_mismatch {s : NetSession} (h : s.hasMismatch = false) {f : ℕ} {own peer : UInt32}
    (hown : s.ownCrc.find? f = some own) (hpeer : s.peerCrc.find? f = some peer) : own = peer := by
  by_contra hne
  exact Bool.eq_false_iff.mp h (s.hasMismatch_iff.mpr ⟨f, own, peer, hown, hpeer, Ne.symm hne⟩)

/-- A checksum that the other side sent before the input of frame `f + D + 1` has been received once
that input has. -/
theorem checksum_received {f : ℕ} (hy : Sums env D y)
    (hinput : (lastInput (f + D + 1) (received env x y)).isSome) {crc : UInt32}
    (hsent : .checksum { frame := f, crc } ∈ y.state.sent) :
    .checksum { frame := f, crc } ∈ received env x y := by
  obtain ⟨i, hframe, hi⟩ := exists_input_of_lastInput hinput
  have hordered := hy.ordered
  have hmem := (checksum_mem_outbox env).mpr hsent
  rw [← List.take_append_drop x.taken ((protocol env).outbox y)] at hordered hmem
  rcases List.mem_append.mp hmem with hold | hnew
  · exact hold
  · have hle : i.frame ≤ f + D := (List.pairwise_append.mp hordered).2.2 _ hi _ hnew
    omega

theorem checksum_mem_afterReceive {p : NetPeer κ β} (localNow : InputState) (ms : List Message)
    {c : Checksum} :
    .checksum c ∈ (p.afterReceive localNow ms).sent ↔ .checksum c ∈ p.sent := by
  refine ⟨fun h => ?_, fun h => List.mem_append_left _ h⟩
  rcases List.mem_append.mp h with hold | hnew
  · exact hold
  · exact absurd (List.mem_singleton.mp hnew) (by simp [inputMessage])

/-- A tick sends no checksum of another frame than its own. -/
theorem Shown.checksum_mem {p q : NetPeer κ β} {localNow : InputState} {ms : List Message}
    (h : Shown true (p.afterReceive localNow ms) q true) {f : ℕ} (hf : f ≠ p.session.frame)
    (crc : UInt32) :
    .checksum { frame := f, crc } ∈ (settle q).sent ↔ .checksum { frame := f, crc } ∈ p.sent := by
  obtain ⟨own, cs, -, hcs, hrecords⟩ := h.records
  rw [(settle_settled q).sent, hcs, List.mem_append, checksum_mem_afterReceive]
  refine or_iff_left fun hnew => ?_
  obtain ⟨c, hc, heq⟩ := List.mem_map.mp hnew
  have hframe : c.frame = p.session.frame := hrecords.frame_eq c hc
  obtain rfl := Message.checksum.inj heq
  exact hf hframe

/-- A tick that ends has compared the checksums of frame `f` when it moves past frame
`f + D + 1`. -/
theorem Compares.finish {localNow : InputState} (h : Compares env D x y) (hsums : Sums env D x)
    (hkeeps : Keeps env D x) (hhears : Hears env D x y) (hy : Sums env D y) (hD : D ≤ 120) {n : ℕ}
    (hn : n ≤ ((protocol env).inFlight x y).length) :
    Compares env D ((protocol env).ended x y localNow n ()) y := by
  have hhears' := hhears.finish localNow hkeeps.connected hkeeps.delay hn
  obtain ⟨k, -, -, -, hcases⟩ := ended_cases localNow hkeeps.connected hhears.taken_le hn
  -- The messages taken from the wire extend what has been received.
  have hpeer : ∀ f, x.state.session.frame ≤ f + 121 →
      (x.state.afterReceive localNow
          (((protocol env).inFlight x y).take k)).session.peerCrc.find? f =
        latest (Message.checksumFor f)
          (received env x y ++ ((protocol env).inFlight x y).take k) :=
    fun f hf => NetSession.receiveAll_peerCrc (h.peer f hf) _
  dsimp only at hcases
  rcases hcases with ⟨hq, -⟩ | ⟨-, q, hshown, hq⟩
  · rw [hq]
    refine ⟨?_, fun f hf hdiffer => h.agreed f hf ?_⟩
    · rw [received_ended]
      exact hpeer
    · have hmem := fun crc => checksum_mem_afterReceive (p := x.state) localNow
        (((protocol env).inFlight x y).take k) (c := { frame := f, crc })
      exact hdiffer.congr (fun crc => (hmem crc).mp) (fun _ h => h) (fun crc => (hmem crc).mpr)
        fun _ h => h
  · obtain ⟨own, cs, hsession, hcs, hrecords⟩ := hshown.records
    have hsettled := settle_settled q
    have hqframe : q.session.frame = x.state.session.frame := by rw [hsession]; rfl
    obtain ⟨-, hge, hle⟩ := hsettled.frame_cases
    rw [hq] at hhears' ⊢
    refine ⟨fun f hf => ?_, fun f hf hdiffer => ?_⟩
    · change (settle q).session.frame ≤ f + 121 at hf
      rw [received_ended, hsettled.peerCrc f hf, hsession]
      exact hpeer f (hqframe.symm.trans_le (hge.trans hf))
    · change f + D + 1 < (settle q).session.frame at hf
      rcases Nat.lt_or_ge (f + D + 1) x.state.session.frame with hold | hnew
      · -- Frame `f` was compared before, and the checksum just sent is of a later frame.
        have hmem := hshown.checksum_mem (f := f) (by omega)
        exact h.agreed f hold (hdiffer.congr (fun crc => (hmem crc).mp) (fun _ h => h)
          (fun crc => (hmem crc).mpr) fun _ h => h)
      · -- The tick has moved past frame `f + D + 1`, so the checksums it compared are equal.
        have hframe : x.state.session.frame = f + D + 1 := by omega
        have hok : q.session.hasMismatch = false := by
          rcases hsettled.frame with ⟨hf', -⟩ | ⟨-, -, hok⟩
          · omega
          · exact hok
        have hown : q.session.ownCrc.find? f = latest (Message.checksumFor f) q.sent := by
          rw [hsession, hcs]
          exact hrecords.own_eq ((hsums.own f (by omega)).trans (latest_checksum_input f _ _).symm)
        -- The input of that frame was needed to present it, so the checksum before it has come.
        have hheard := hhears'.heard (f + D + 1) (by omega) hf
        have hreceived : q.session.peerCrc.find? f = latest (Message.checksumFor f)
            (received env { state := settle q, taken := x.taken + k } y) := by
          rw [received_ended, hsession]
          exact hpeer f (by omega)
        -- Both sides compare the latest checksums sent for `f`.
        obtain ⟨a, ha⟩ := hdiffer.left
        obtain ⟨b, hb⟩ := hdiffer.right
        obtain ⟨a', ha'⟩ := Option.isSome_iff_exists.mp
          (latest_checksum_isSome (hsettled.sent ▸ ha : Message.checksum _ ∈ q.sent))
        obtain ⟨b', hb'⟩ := Option.isSome_iff_exists.mp
          (latest_checksum_isSome (checksum_received hy hheard hb))
        have hsent : Message.checksum { frame := f, crc := a' } ∈ (settle q).sent := by
          rw [hsettled.sent]
          exact mem_of_latest_checksum ha'
        exact hdiffer.ne a' b' hsent
          ((checksum_mem_outbox env).mp (List.mem_of_mem_take (mem_of_latest_checksum hb')))
          (eq_of_not_mismatch hok (hown.trans ha') (hreceived.trans hb'))

/-- The invariant of a match with a delay of at most 120 frames. -/
theorem detection_inductive (hD : D ≤ 120) : (protocol env).Inductive (fun _ _ _ => True)
    (fun _ x => Keeps env D x ∧ Sums env D x)
    (fun _ x y => (Hears env D x y ∧ Compares env D x y) ∧ Keeps env D y ∧ Sums env D y) where
  begin := by
    rintro s x y localNow ⟨hkeeps, hsums⟩ ⟨⟨hhears, hcompares⟩, hother⟩ ⟨⟨hhears', hcompares'⟩, -⟩
      hidle - -
    have hout : (protocol env).outbox { x with calling := some localNow } =
        (protocol env).outbox x ++ [x.state.inputMessage localNow] := by
      rw [Protocol.outbox_idle hidle]
      rfl
    have hkeeps' := hkeeps.begin hidle localNow
    have hsums' := hsums.begin hidle localNow
    refine ⟨⟨hkeeps', hsums'⟩, ⟨⟨⟨hhears.taken_le, hhears.remotePending, hhears.heard,
      hhears.applied⟩, ⟨hcompares.peer, hcompares.agreed⟩⟩, hother⟩,
      ⟨hhears'.append _ hout, hcompares'.other hhears' hkeeps hout ?_⟩, hkeeps', hsums'⟩
    -- A call that begins sends an input only.
    exact fun c hc => absurd (List.mem_singleton.mp hc) (by simp [inputMessage])
  finish := by
    rintro s x y localNow n - ⟨hkeeps, hsums⟩ ⟨⟨hhears, hcompares⟩, hother⟩
      ⟨⟨hhears', hcompares'⟩, -⟩ hcalling hn
    obtain ⟨hkeeps', cs, hcs, hframe⟩ := hkeeps.finish hcalling
      (((protocol env).inFlight x y).take n) (x.taken + ((protocol env).finish x.state localNow ()
        (((protocol env).inFlight x y).take n)).2)
    have hsums' := hsums.finish hkeeps hcalling (((protocol env).inFlight x y).take n)
      (x.taken + ((protocol env).finish x.state localNow ()
        (((protocol env).inFlight x y).take n)).2)
    refine ⟨⟨hkeeps', hsums'⟩, ⟨⟨hhears.finish localNow hkeeps.connected hkeeps.delay hn,
      hcompares.finish hsums hkeeps hhears hother.2 hD hn⟩, hother⟩,
      ⟨hhears'.append (cs.map .checksum) hcs,
        hcompares'.other hhears' hkeeps hcs ?_⟩, hkeeps', hsums'⟩
    intro c hc
    obtain ⟨c', hc', heq⟩ := List.mem_map.mp hc
    obtain rfl := Message.checksum.inj heq
    exact hframe c' hc'

/-- In every match with a delay `D` of at most 120 frames: when the checksums of the two sides for
frame `f` differ, neither side gets past frame `f + D + 1`, and every tick it makes there that does
not time out returns `Desync`. -/
theorem desync_detected {delay : UInt32} (hdelay : delay.toNat ≤ 120) {w : Side → World κ β}
    {acts : List (Action InputState Unit)}
    (hrun : (protocol env).machine.Run Machine.always (startMatch delay w) acts m) {f : ℕ}
    {s : Side} (hdiffer : Differ f (m s).state (m s.other).state) :
    (m s).state.session.frame ≤ f + delay.toNat + 1 ∧
      ∀ n m', (m s).state.session.frame = f + delay.toNat + 1 →
        (protocol env).step m (.finish s n ()) = some m' →
        (m' s).state.session.status ≠ .waiting → (m' s).state.session.status = .desync := by
  have hguard : ∀ (m : Link (NetPeer κ β) InputState) (act : Action InputState Unit),
      Machine.always m act → Protocol.onBegin (fun _ _ _ => True) m act :=
    fun _ act _ => by cases act <;> trivial
  have hstart : Protocol.Holds (fun _ x => Keeps env delay.toNat x ∧ Sums env delay.toNat x)
      (fun _ x y => (Hears env delay.toNat x y ∧ Compares env delay.toNat x y) ∧
        Keeps env delay.toNat y ∧ Sums env delay.toNat y) (startMatch delay w) :=
    fun t => ⟨⟨keeps_start t, sums_start t⟩, ⟨hears_start t, compares_start t⟩,
      keeps_start t.other, sums_start t.other⟩
  have h := (detection_inductive hdelay).run hstart (hrun.weaken hguard)
  obtain ⟨⟨hkeeps, -⟩, ⟨hhears, hcompares⟩, -⟩ := h s
  refine ⟨?_, fun n m' hframe hstep hontime => ?_⟩
  · -- A side past frame `f + D + 1` has compared the two checksums.
    by_contra hlt
    exact hcompares.agreed f (by omega) hdiffer
  · have h' := (detection_inductive hdelay).step h
      (show Protocol.onBegin (fun _ _ _ => True) m (.finish s n ()) from trivial) hstep
    obtain ⟨localNow, hcalling, hn, rfl⟩ := Protocol.step_finish hstep
    obtain ⟨-, ⟨-, hcompares'⟩, -⟩ := h' s
    -- The other side is as it was before the step.
    rw [Function.update_self] at hontime hcompares' ⊢
    rw [Function.update_of_ne s.other_ne] at hcompares'
    obtain ⟨k, -, -, -, hcases⟩ := ended_cases localNow hkeeps.connected hhears.taken_le hn
    dsimp only at hcases
    rcases hcases with ⟨hq, -⟩ | ⟨-, q, hshown, hq⟩
    · rw [hq] at hontime
      exact absurd rfl hontime
    · obtain ⟨own, cs, hsession, hcs, hrecords⟩ := hshown.records
      have hsettled := settle_settled q
      have hqframe : q.session.frame = (m s).state.session.frame := by rw [hsession]; rfl
      rw [hq] at hcompares' ⊢
      rcases hsettled.frame with ⟨-, hdesync⟩ | ⟨hnext, -, -⟩
      · exact hdesync
      · -- A tick that moved on would have found the two checksums equal.
        have hmem := hshown.checksum_mem (f := f) (by omega)
        refine absurd (hdiffer.congr (fun crc => (hmem crc).mpr) (fun _ h => h)
          (fun crc => (hmem crc).mp) fun _ h => h) (hcompares'.agreed f ?_)
        show f + delay.toNat + 1 < (settle q).session.frame
        omega

/-- A match between cores that start in different states. -/
def apart (delay : UInt32) : Link (NetPeer RefCoreRollback Unit) InputState :=
  startMatch delay fun
    | .left => RefCoreRollback.loaded
    | .right => { RefCoreRollback.loaded with core := { acc := 1 } }

/-- Without a delay, both sides show frame 0 and begin their ticks for frame 1. -/
def throughFrameZero : List (Action InputState Unit) :=
  [.begin host .neutral, .begin join .neutral, .finish host 1 (), .finish join 1 (),
    .begin host .neutral, .begin join .neutral]

/-- Two cores that are apart differ in the checksum of frame 0, and a side finds out. -/
theorem desync_detected_throughFrameZero :
    ∃ m m', (protocol RefCoreRollback.env).machine.exec Machine.always (apart 0)
        throughFrameZero = some m ∧
      Differ 0 (m host).state (m join).state ∧ (m host).state.session.frame ≤ 1 ∧
      (protocol RefCoreRollback.env).step m (.finish host 2 ()) = some m' ∧
      (m' host).state.session.status = .desync := by
  have hany : ((protocol RefCoreRollback.env).machine.exec Machine.always (apart 0)
      throughFrameZero).any (fun m =>
        ((protocol RefCoreRollback.env).step m (.finish host 2 ())).any fun m' =>
          decide (Differ 0 (m host).state (m join).state ∧ (m host).state.session.frame = 1 ∧
            (m' host).state.session.status ≠ .waiting)) = true := by
    decide +kernel
  obtain ⟨m, hm, hany'⟩ := (Option.any_eq_true _ _).mp hany
  obtain ⟨m', hm', hstate⟩ := (Option.any_eq_true _ _).mp hany'
  obtain ⟨hdiffer, hframe, hontime⟩ := of_decide_eq_true hstate
  obtain ⟨hle, hdetect⟩ := desync_detected
    (show (0 : UInt32).toNat ≤ 120 by decide) (Machine.run_iff_exec.mpr hm)
    hdiffer
  exact ⟨m, m', hm, hdiffer, hle, hm', hdetect 2 m' hframe hm' hontime⟩

end Detection

end NetPeer

end RetroPark.Net
