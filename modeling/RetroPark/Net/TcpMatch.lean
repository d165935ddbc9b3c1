import RetroPark.Net.Lockstep
import RetroPark.Net.Rollback.Peers
import RetroPark.Net.TcpTransport
import RetroPark.Net.Wire

/-!
# A match over TCP

The two parties of a match with a TCP connection in each direction. A call of `tick` passes its
messages to `send` one after another and receives messages one after another, and what is on the
wire are the bytes of `Message.bytes`, in frames, in whatever pieces the sockets move.

* `TcpMatch.machine` is that system, for the protocol of either kind of session;
* `Carries` is the invariant of a direction: the messages its connection has returned so far are the
  first of those sent, and the rest is still under way;
* `tcp_refines` shows that the parties behave as over the FIFO channels of `Duplex`, as long as no
  call of a socket times out inside a frame;
* `RollbackPeer.verified_over_tcp` and `NetPeer.applied_over_tcp` are what this means for the two
  kinds of session.
-/

namespace RetroPark.Net

open Duplex

/-! ### Buffers -/

/-- What a list of buffers is decoded to, unless some decoder reads outside its buffer. -/
def decodeAll : List Blob → Option (List Message)
  | [] => some []
  | b :: bs =>
      match Message.ofBytes b, decodeAll bs with
      | .ok msg, some msgs => some (msg :: msgs)
      | _, _ => none

theorem decodeAll_bytes {msgs : List Message} (h : ∀ msg ∈ msgs, msg.Fits) :
    decodeAll (msgs.map Message.bytes) = some msgs := by
  induction msgs with
  | nil => rfl
  | cons msg msgs ih =>
    rw [List.map_cons, decodeAll, Message.ofBytes_bytes (h msg List.mem_cons_self),
      ih fun m hm => h m (List.mem_cons_of_mem _ hm)]

theorem Wire.length_putWord (k : ℕ) (v : BitVec (8 * k)) : (Wire.putWord k v).length = k :=
  Vector.length_toList

/-- The messages of a session have at most 284 bytes. -/
theorem Message.length_bytes_lt (msg : Message) : msg.bytes.length < 2 ^ 31 := by
  cases msg with
  | input i =>
    simp [Message.bytes, Wire.encodeInput, Wire.putInput, Wire.putU64, Wire.putU16,
      Wire.length_putWord, List.length_flatMap]
  | checksum c =>
    simp [Message.bytes, Wire.encodeChecksum, Wire.putU64, Wire.putU32, Wire.length_putWord]
  | other => decide

instance (msg : Message) : Decidable msg.Fits :=
  match msg with
  | .input i => inferInstanceAs (Decidable (i.frame < 2 ^ 64))
  | .checksum c => inferInstanceAs (Decidable (c.frame < 2 ^ 64))
  | .other => .isTrue trivial

/-! ### What a connection does in a step -/

namespace Connection

/-- A call of the socket is answered. -/
def Action.isSocket : Action → Bool
  | .send _ => false
  | .recv _ => false
  | _ => true

/-- The message a step passes to `send`. -/
def Action.passed : Action → List Blob
  | .send m => [m]
  | _ => []

theorem sendOn_returned (c : Connection) (p : SocketProgram RpResult) :
    (c.sendOn p).messages = c.messages ∧ (c.sendOn p).returned = c.returned := by
  cases p <;> exact ⟨rfl, rfl⟩

theorem recvOn_returned (c : Connection) (p : SocketProgram (Except RpResult Blob)) :
    (c.recvOn p).messages = c.messages ∧ c.returned <+: (c.recvOn p).returned := by
  cases p with
  | call i next => exact ⟨rfl, List.prefix_rfl⟩
  | ret r =>
    cases r with
    | error e => exact ⟨rfl, List.prefix_rfl⟩
    | ok m => exact ⟨rfl, List.prefix_append _ _⟩

/-- A step goes on with the `send` or with the `recv` under way. -/
theorem step_cases {c c' : Connection} {act : Action} (h : c.step act = some c') :
    ∃ d : Connection, d.messages = c.messages ++ act.passed ∧ d.returned = c.returned ∧
      ((∃ p, c' = d.sendOn p) ∨ ∃ p, c' = d.recvOn p) := by
  -- Only `send` passes a message; the other steps pass the empty list.
  have hnone : c.messages = c.messages ++ [] := (List.append_nil _).symm
  cases act with
  | send m =>
    rw [Connection.step] at h
    split_ifs at h
    exact ⟨{ c with messages := c.messages ++ [m] }, rfl, rfl, .inl ⟨_, (Option.some.inj h).symm⟩⟩
  | accept n =>
    rw [Connection.step] at h
    split at h
    · next bytes next hsending =>
      split_ifs at h
      exact ⟨{ c with pipe := c.pipe ++ bytes.take n }, hnone, rfl,
        .inl ⟨_, (Option.some.inj h).symm⟩⟩
    · cases h
  | recv block =>
    rw [Connection.step] at h
    split_ifs at h
    exact ⟨c, hnone, rfl, .inr ⟨_, (Option.some.inj h).symm⟩⟩
  | deliver n =>
    rw [Connection.step] at h
    split at h
    · next want next hreceiving =>
      split_ifs at h
      exact ⟨{ c with pipe := c.pipe.drop n, taken := c.taken ++ c.pipe.take n }, hnone, rfl,
        .inr ⟨_, (Option.some.inj h).symm⟩⟩
    · cases h
  | poll _ | timeOut | fail =>
    rw [Connection.step] at h
    split at h
    · next next hreceiving =>
      split_ifs at h
      exact ⟨c, hnone, rfl, .inr ⟨_, (Option.some.inj h).symm⟩⟩
    · cases h

/-- A step passes at most one message to `send` and only adds to the messages returned. -/
theorem step_grows {c c' : Connection} {act : Action} (h : c.step act = some c') :
    c'.messages = c.messages ++ act.passed ∧ c.returned <+: c'.returned := by
  obtain ⟨d, hmessages, hreturned, ⟨p, rfl⟩ | ⟨p, rfl⟩⟩ := step_cases h
  · rw [(sendOn_returned d p).1, (sendOn_returned d p).2, hreturned]
    exact ⟨hmessages, List.prefix_rfl⟩
  · rw [(recvOn_returned d p).1, ← hreturned]
    exact ⟨hmessages, (recvOn_returned d p).2⟩

end Connection

/-! ### The system -/

/-- One end of a match. -/
structure TcpEnd (π ι : Type*) where
  party : Party π ι
  /-- The messages its call has still to pass to `send`. -/
  unsent : List Message := []
  /-- The messages its call has received so far. -/
  drained : List Message := []

/-- Two ends and the connections between them. -/
structure TcpMatch (π ι : Type*) where
  ends : Side → TcpEnd π ι
  /-- The connection that carries what a side sends. -/
  lines : Side → Connection

namespace TcpMatch

/-- A call of `tick` begins or ends; the call under way passes its next message to `send`, or calls
`recv`; a call of the socket is answered on the line that carries what side `s` sends. -/
inductive Action (ι ω : Type*)
  | begin (s : Side) (i : ι)
  | send (s : Side)
  | recv (s : Side)
  | socket (s : Side) (act : Connection.Action)
  | finish (s : Side) (o : ω)

variable {π ι ω : Type*} (P : Protocol π ι ω Message)

/-- A step on the line that carries what side `s` sends. A message it returns is received by the
call at the other side. -/
def carry (m : TcpMatch π ι) (s : Side) (act : Connection.Action) : Option (TcpMatch π ι) :=
  match (m.lines s).step act with
  | none => none
  | some c =>
      (decodeAll (c.returned.drop (m.lines s).returned.length)).map fun msgs =>
        { ends := Function.update m.ends s.other
            { m.ends s.other with drained := (m.ends s.other).drained ++ msgs }
          lines := Function.update m.lines s c }

/-- One step of the system, in which `recv` is called to `block` or not. A call ends once its
messages are sent and its receive loop has taken every message it received. -/
def step (block : Bool) (m : TcpMatch π ι) : Action ι ω → Option (TcpMatch π ι)
  | .begin s i =>
      let x := m.ends s
      if x.party.calling = none ∧ P.ready x.party.state = true ∧ x.unsent = [] ∧
          (m.lines s).sending.isNone = true then
        some { m with
          ends := Function.update m.ends s
            { x with party.calling := some i, unsent := [P.announce x.party.state i] } }
      else none
  | .send s =>
      match (m.ends s).unsent with
      | [] => none
      | msg :: rest =>
          carry { m with ends := Function.update m.ends s { m.ends s with unsent := rest } } s
            (.send msg.bytes)
  | .recv s =>
      if (m.ends s).party.calling ≠ none ∧ (m.ends s).unsent = [] ∧
          (m.lines s).sending.isNone = true then
        carry m s.other (.recv block)
      else none
  | .socket s act => if act.isSocket then carry m s act else none
  | .finish s o =>
      let x := m.ends s
      match x.party.calling with
      | none => none
      | some i =>
          let r := P.finish x.party.state i o x.drained
          if x.unsent = [] ∧ (m.lines s).sending.isNone = true ∧
              (m.lines s.other).receiving.isNone = true ∧ r.2 = x.drained.length then
            some { m with
              ends := Function.update m.ends s
                { party := { state := r.1, taken := x.party.taken + r.2 }
                  unsent := (P.sent r.1).drop ((P.sent x.party.state).length + 1) } }
          else none

/-- The system of the two parties. -/
def machine (block : Bool) : Machine (TcpMatch π ι) (Action ι ω) := ⟨step P block⟩

/-- Two parties and two connections that have just been opened. -/
def start (x : Side → π) : TcpMatch π ι :=
  { ends := fun s => { party := { state := x s } }, lines := fun _ => {} }

/-- The two parties, as over FIFO channels. -/
def parties (m : TcpMatch π ι) : Link π ι := fun s => (m.ends s).party

/-- A condition on the calls that begin. Frame numbers fit the field of a message, and no call of
the socket times out, unless `recv` blocks and has not taken a byte yet. -/
def Calm (block : Bool) (G : Side → π → ι → Prop) (m : TcpMatch π ι) : Action ι ω → Prop
  | .begin s i => G s (m.ends s).party.state i
  | .send s => ∀ msg ∈ (m.ends s).unsent, msg.Fits
  | .socket s .timeOut => block = true ∧ (m.lines s).taken = []
  | _ => True

/-! ### A direction -/

variable {P}

/-- What the connection `c` carries from the end `y` to the end `x`: the messages `msgs` have been
passed to `send`, and those that `recv` has returned are the ones that `x` has received. -/
structure Carries (P : Protocol π ι ω Message) (c : Connection) (y x : TcpEnd π ι)
    (msgs : List Message) : Prop where
  framed : ∃ queue unsent, c.Framed queue unsent
  messages : c.messages = msgs.map Message.bytes
  fits : ∀ msg ∈ msgs, msg.Fits
  outbox : P.outbox y.party = msgs ++ y.unsent
  taken : x.party.taken + x.drained.length = c.returned.length
  drained : x.drained = (msgs.take c.returned.length).drop x.party.taken

variable {c c' : Connection} {x y : TcpEnd π ι} {msgs : List Message}

theorem Carries.returned (h : Carries P c y x msgs) :
    c.returned = (msgs.take c.returned.length).map Message.bytes := by
  obtain ⟨queue, _, hframed⟩ := h.framed
  rw [List.map_take, ← h.messages, hframed.messages, List.take_left']
  rfl

theorem Carries.length_le (h : Carries P c y x msgs) : c.returned.length ≤ msgs.length := by
  have hlength := congrArg List.length h.returned
  rw [List.length_map, List.length_take] at hlength
  omega

/-- A step of the connection that passes `sent` to `send`: what it returns can be decoded. -/
theorem Carries.step (h : Carries P c y x msgs) {act : Connection.Action}
    (hwhole : Connection.Whole c act) (hstep : c.step act = some c') {y' : TcpEnd π ι}
    {sent : List Message} (hpassed : act.passed = sent.map Message.bytes)
    (hfits : ∀ msg ∈ sent, msg.Fits) (hparty : y'.party = y.party)
    (hunsent : y.unsent = sent ++ y'.unsent) :
    ∃ new, decodeAll (c'.returned.drop c.returned.length) = some new ∧
      Carries P c' y' { x with drained := x.drained ++ new } (msgs ++ sent) := by
  obtain ⟨queue, unsent, hframed⟩ := h.framed
  obtain ⟨queue', unsent', hframed'⟩ := hframed.step hwhole hstep
  obtain ⟨hmessages, hgrows⟩ := Connection.step_grows hstep
  have hmessages' : c'.messages = (msgs ++ sent).map Message.bytes := by
    rw [hmessages, h.messages, hpassed, List.map_append]
  have hfits' : ∀ msg ∈ msgs ++ sent, msg.Fits := fun msg hmem =>
    (List.mem_append.mp hmem).elim (h.fits msg) (hfits msg)
  have hle := h.length_le
  have hmore := hgrows.length_le
  have htaken := h.taken
  have hle' : c'.returned.length ≤ (msgs ++ sent).length := by
    rw [← List.length_map (f := Message.bytes), ← hmessages', hframed'.messages, List.length_append]
    exact Nat.le_add_right _ _
  have hreturned : c'.returned = ((msgs ++ sent).take c'.returned.length).map Message.bytes := by
    rw [List.map_take, ← hmessages', hframed'.messages, List.take_left']
    rfl
  refine ⟨((msgs ++ sent).take c'.returned.length).drop c.returned.length, ?_,
    ⟨⟨queue', unsent', hframed'⟩, hmessages', hfits', ?_, ?_, ?_⟩⟩
  · rw [hreturned, ← List.map_drop, List.length_map, List.length_take, Nat.min_eq_left hle']
    exact decodeAll_bytes fun msg hmem =>
      hfits' msg (List.mem_of_mem_take (List.mem_of_mem_drop hmem))
  · rw [hparty, h.outbox, hunsent, List.append_assoc]
  · show x.party.taken + (x.drained ++ _).length = _
    rw [List.length_append, List.length_drop, List.length_take]
    omega
  · -- What has been received before is the front of what has been received now.
    have hfront : msgs.take c.returned.length =
        ((msgs ++ sent).take c'.returned.length).take c.returned.length := by
      rw [List.take_take, Nat.min_eq_left hmore, List.take_append_of_le_length hle]
    show x.drained ++ _ = ((msgs ++ sent).take c'.returned.length).drop x.party.taken
    rw [h.drained, hfront, ← List.drop_append_of_le_length, List.take_append_drop]
    rw [List.length_take, List.length_take]
    omega

/-- The sender's protocol adds to its outbox what is still to be sent. -/
theorem Carries.extend (h : Carries P c y x msgs) (hnil : y.unsent = []) {y' : TcpEnd π ι}
    (hout : P.outbox y'.party = P.outbox y.party ++ y'.unsent) : Carries P c y' x msgs :=
  ⟨h.framed, h.messages, h.fits, by rw [hout, h.outbox, hnil, List.append_nil], h.taken, h.drained⟩

/-- What the sender has received itself plays no part. -/
theorem Carries.sender (h : Carries P c y x msgs) {y' : TcpEnd π ι} (hparty : y'.party = y.party)
    (hunsent : y'.unsent = y.unsent) : Carries P c y' x msgs :=
  ⟨h.framed, h.messages, h.fits, by rw [hparty, hunsent, h.outbox], h.taken, h.drained⟩

/-- The receiver's call begins. -/
theorem Carries.receiver (h : Carries P c y x msgs) {x' : TcpEnd π ι}
    (htaken : x'.party.taken = x.party.taken) (hdrained : x'.drained = x.drained) :
    Carries P c y x' msgs :=
  ⟨h.framed, h.messages, h.fits, h.outbox, by rw [htaken, hdrained, h.taken],
    by rw [htaken, hdrained, h.drained]⟩

/-- The receiver's call ends and has taken everything it received. -/
theorem Carries.take (h : Carries P c y x msgs) {x' : TcpEnd π ι}
    (htaken : x'.party.taken = x.party.taken + x.drained.length) (hdrained : x'.drained = []) :
    Carries P c y x' msgs := by
  refine ⟨h.framed, h.messages, h.fits, h.outbox, ?_, ?_⟩
  · rw [htaken, hdrained, h.taken]
    rfl
  · rw [htaken, hdrained, h.taken, List.drop_eq_nil_of_le]
    exact List.length_take_le _ _

/-- What a call has received are the next messages on their way over the FIFO channel. -/
theorem Carries.drained_eq (h : Carries P c y x msgs) :
    x.drained.length ≤ (P.inFlight x.party y.party).length ∧
      (P.inFlight x.party y.party).take x.drained.length = x.drained := by
  have hle := h.length_le
  have htaken := h.taken
  refine ⟨?_, ?_⟩
  · rw [Protocol.inFlight, h.outbox, List.length_drop, List.length_append]
    omega
  · rw [Protocol.inFlight, h.outbox, List.take_drop, htaken, List.take_append_of_le_length hle,
      ← h.drained]

/-! ### The invariant of the system -/

variable {block : Bool} {G : Side → π → ι → Prop} {m m' : TcpMatch π ι}

/-- Both directions carry their messages, and only ready parties are in a call. -/
structure Good (P : Protocol π ι ω Message) (m : TcpMatch π ι) : Prop where
  ready : ∀ s, (m.ends s).party.calling ≠ none → P.ready (m.ends s).party.state = true
  lines : ∀ s, ∃ msgs, Carries P (m.lines s) (m.ends s) (m.ends s.other) msgs

theorem good_start {x : Side → π} (hsent : ∀ s, P.sent (x s) = []) : Good P (start x) where
  ready _ h := absurd rfl h
  lines s := by
    refine ⟨[], ⟨⟨[], [], Connection.framed_start⟩, rfl, fun _ hmem => ?_, ?_, rfl, rfl⟩⟩
    · exact absurd hmem List.not_mem_nil
    · exact hsent s

theorem parties_update (s : Side) (x : TcpEnd π ι) :
    parties { m with ends := Function.update m.ends s x } =
      Function.update (parties m) s x.party := by
  funext t
  by_cases ht : t = s
  · subst ht
    simp only [parties, Function.update_self]
  · simp only [parties, Function.update_of_ne ht]

/-- The invariant seen from one side. -/
theorem good_of_side (s : Side)
    (hready : (m.ends s).party.calling ≠ none → P.ready (m.ends s).party.state = true)
    (hready' : (m.ends s.other).party.calling ≠ none →
      P.ready (m.ends s.other).party.state = true)
    (hline : ∃ msgs, Carries P (m.lines s) (m.ends s) (m.ends s.other) msgs)
    (hline' : ∃ msgs, Carries P (m.lines s.other) (m.ends s.other) (m.ends s) msgs) :
    Good P m := by
  refine ⟨fun t => ?_, fun t => ?_⟩
  · by_cases ht : t = s
    · exact ht ▸ hready
    · exact Side.eq_other_of_ne ht ▸ hready'
  · by_cases ht : t = s
    · exact ht ▸ hline
    · obtain rfl := Side.eq_other_of_ne ht
      rwa [Side.other_other]

theorem Good.line_other (h : Good P m) (s : Side) :
    ∃ msgs, Carries P (m.lines s.other) (m.ends s.other) (m.ends s) msgs := by
  have := h.lines s.other
  rwa [Side.other_other] at this

/-- A step of the end at side `s` alone. -/
theorem Good.update (h : Good P m) {s : Side} {x : TcpEnd π ι}
    (hready : x.party.calling ≠ none → P.ready x.party.state = true)
    (hout : ∀ msgs, Carries P (m.lines s) (m.ends s) (m.ends s.other) msgs →
      Carries P (m.lines s) x (m.ends s.other) msgs)
    (hin : ∀ msgs, Carries P (m.lines s.other) (m.ends s.other) (m.ends s) msgs →
      Carries P (m.lines s.other) (m.ends s.other) x msgs) :
    Good P { m with ends := Function.update m.ends s x } := by
  have hself : Function.update m.ends s x s = x := Function.update_self _ _ _
  have hother : Function.update m.ends s x s.other = m.ends s.other :=
    Function.update_of_ne s.other_ne _ _
  refine good_of_side s ?_ ?_ ?_ ?_ <;> simp only [hself, hother]
  · exact hready
  · exact h.ready s.other
  · exact (h.lines s).imp hout
  · exact (h.line_other s).imp hin

/-- What a step on a line does. -/
theorem carry_cases {s : Side} {act : Connection.Action} (h : carry m s act = some m') :
    ∃ c new, (m.lines s).step act = some c ∧
      decodeAll (c.returned.drop (m.lines s).returned.length) = some new ∧
      m'.lines s = c ∧ m'.lines s.other = m.lines s.other ∧ m'.ends s = m.ends s ∧
      m'.ends s.other = { m.ends s.other with drained := (m.ends s.other).drained ++ new } := by
  rw [carry] at h
  cases hline : (m.lines s).step act with
  | none => simp [hline] at h
  | some c =>
    rw [hline] at h
    cases hdecode : decodeAll (c.returned.drop (m.lines s).returned.length) with
    | none => simp [hdecode] at h
    | some new =>
      dsimp only at h
      rw [hdecode] at h
      obtain rfl := Option.some.inj h
      exact ⟨c, new, rfl, hdecode, Function.update_self _ _ _,
        Function.update_of_ne s.other_ne _ _, Function.update_of_ne s.other_ne.symm _ _,
        Function.update_self _ _ _⟩

/-- A step on a line, in which the sender passes `sent` to `send`. -/
theorem Good.carry (h : Good P m) {s : Side} {act : Connection.Action}
    (hwhole : Connection.Whole (m.lines s) act) {y : TcpEnd π ι} (sent : List Message)
    (hpassed : act.passed = sent.map Message.bytes) (hfits : ∀ msg ∈ sent, msg.Fits)
    (hparty : y.party = (m.ends s).party) (hdrained : y.drained = (m.ends s).drained)
    (hunsent : (m.ends s).unsent = sent ++ y.unsent)
    (hstep : carry { m with ends := Function.update m.ends s y } s act = some m') :
    Good P m' ∧ parties m' = parties m := by
  have hself : Function.update m.ends s y s = y := Function.update_self _ _ _
  have hother : Function.update m.ends s y s.other = m.ends s.other :=
    Function.update_of_ne s.other_ne _ _
  obtain ⟨c, new, hline, hdecode, hc, hrest, hends, hends'⟩ := carry_cases hstep
  dsimp only at hline hdecode hrest hends hends'
  rw [hself] at hends
  rw [hother] at hends'
  -- The line of side `s` moves, and the line back is left as it is.
  obtain ⟨msgs, hcarries⟩ := h.lines s
  obtain ⟨new', hdecode', hcarries'⟩ := hcarries.step hwhole hline hpassed hfits hparty hunsent
  obtain rfl : new' = new := Option.some.inj (hdecode'.symm.trans hdecode)
  refine ⟨good_of_side s ?_ ?_ ?_ ?_, ?_⟩
  · rw [hends, hparty]
    exact h.ready s
  · rw [hends']
    exact h.ready s.other
  · rw [hc, hends, hends']
    exact ⟨_, hcarries'⟩
  · obtain ⟨msgs', hback⟩ := h.line_other s
    rw [hrest, hends, hends']
    exact ⟨msgs', (hback.receiver (by rw [hparty]) hdrained).sender rfl rfl⟩
  · funext t
    by_cases ht : t = s
    · rw [ht, parties, hends, hparty, parties]
    · rw [Side.eq_other_of_ne ht, parties, hends', parties]

/-- A step on a line that passes nothing to `send`. -/
theorem Good.carry_silent (h : Good P m) {s : Side} {act : Connection.Action}
    (hwhole : Connection.Whole (m.lines s) act) (hpassed : act.passed = [])
    (hstep : TcpMatch.carry m s act = some m') : Good P m' ∧ parties m' = parties m := by
  refine h.carry hwhole [] hpassed (fun _ hmem => absurd hmem List.not_mem_nil) rfl rfl rfl ?_
  rwa [Function.update_eq_self]

/-- A call that begins has its announcement in front of it, and nothing else. -/
theorem Good.begin (h : Good P m) {s : Side} {i : ι}
    (hstep : TcpMatch.step P block m (.begin s i) = some m') :
    Good P m' ∧ P.step (parties m) (.begin s i) = some (parties m') := by
  rw [TcpMatch.step] at hstep
  dsimp only at hstep
  split_ifs at hstep with henabled
  obtain ⟨hidle, hready, hnil, -⟩ := henabled
  obtain rfl := Option.some.inj hstep
  refine ⟨h.update (fun _ => hready) (fun msgs hcarries => ?_) (fun msgs hcarries => ?_), ?_⟩
  · refine hcarries.extend hnil ?_
    rw [Protocol.outbox_idle hidle]
    rfl
  · exact hcarries.receiver rfl rfl
  · rw [parties_update, Protocol.step]
    refine if_pos (Bool.and_eq_true_iff.mpr ⟨?_, hready⟩)
    rw [parties, hidle]
    rfl

/-- A socket moves pieces of frames, which the parties do not see. -/
theorem Good.socket (h : Good P m) {s : Side} {act : Connection.Action}
    (hcalm : Calm block G m (.socket s act : Action ι ω))
    (hstep : TcpMatch.step P block m (.socket s act) = some m') :
    Good P m' ∧ parties m' = parties m := by
  rw [TcpMatch.step] at hstep
  split_ifs at hstep with hsocket
  have hwhole : Connection.Whole (m.lines s) act := by
    cases act with
    | timeOut => exact hcalm.2
    | send m => exact absurd hsocket Bool.false_ne_true
    | _ => trivial
  have hpassed : act.passed = [] := by
    cases act with
    | send m => exact absurd hsocket Bool.false_ne_true
    | _ => rfl
  exact h.carry_silent hwhole hpassed hstep

/-- A call that ends takes what has been drained. What it has sent follows its announcement. -/
theorem Good.finish (hlaw : P.Lawful) (h : Good P m) {s : Side} {o : ω}
    (hstep : TcpMatch.step P block m (.finish s o) = some m') :
    Good P m' ∧
      P.step (parties m) (.finish s (m.ends s).drained.length o) = some (parties m') := by
  rw [TcpMatch.step] at hstep
  dsimp only at hstep
  cases hcalling : (m.ends s).party.calling with
  | none => simp [hcalling] at hstep
  | some i =>
    simp only [hcalling] at hstep
    split_ifs at hstep with henabled
    obtain ⟨hnil, -, -, htook⟩ := henabled
    obtain rfl := Option.some.inj hstep
    have hready := h.ready s (by simp [hcalling])
    obtain ⟨msgs', hback⟩ := h.line_other s
    -- What has been drained is a prefix of the messages in the channel.
    obtain ⟨hle, htake⟩ := hback.drained_eq
    refine ⟨h.update (fun hne => absurd rfl hne) (fun msgs hcarries => ?_)
      (fun msgs hcarries => ?_), ?_⟩
    · refine hcarries.extend hnil ?_
      obtain ⟨rest, hrest, -⟩ := hlaw.finish_sent (m.ends s).party.state i o
        (m.ends s).drained hready
      rw [Protocol.outbox_idle rfl, Protocol.outbox, hcalling]
      dsimp only
      rw [hrest, List.drop_left' (by simp)]
    · exact hcarries.take (by rw [← htook]) rfl
    · rw [parties_update, Protocol.step]
      simp only [parties, hcalling]
      refine (if_pos hle).trans ?_
      rw [Protocol.ended, htake]

/-- One step: the parties take a step of the FIFO system, or none. -/
theorem Good.step (hlaw : P.Lawful) (h : Good P m) {act : Action ι ω} (hcalm : Calm block G m act)
    (hstep : TcpMatch.step P block m act = some m') :
    Good P m' ∧ (parties m' = parties m ∨ ∃ act', Protocol.onBegin G (parties m) act' ∧
      P.step (parties m) act' = some (parties m')) := by
  cases act with
  | begin s i =>
    obtain ⟨hgood, hbegun⟩ := h.begin hstep
    exact ⟨hgood, .inr ⟨.begin s i, hcalm, hbegun⟩⟩
  | send s =>
    rw [TcpMatch.step] at hstep
    split at hstep
    · cases hstep
    · next msg rest hunsent =>
      have hfits : msg.Fits := hcalm msg (hunsent ▸ List.mem_cons_self)
      have hshort : Connection.Whole (m.lines s) (.send msg.bytes) := msg.length_bytes_lt
      exact (h.carry (y := { m.ends s with unsent := rest }) hshort [msg] rfl
        (fun _ hmem => List.mem_singleton.mp hmem ▸ hfits) rfl rfl hunsent hstep).imp_right .inl
  | recv s =>
    rw [TcpMatch.step] at hstep
    split_ifs at hstep
    have hwhole : Connection.Whole (m.lines s.other) (.recv block) := trivial
    exact (h.carry_silent hwhole rfl hstep).imp_right .inl
  | socket s act => exact (h.socket hcalm hstep).imp_right .inl
  | finish s o =>
    obtain ⟨hgood, hfinished⟩ := h.finish hlaw hstep
    exact ⟨hgood, .inr ⟨.finish s (m.ends s).drained.length o, trivial, hfinished⟩⟩

/-- In every run over TCP in which no call of a socket times out inside a frame, the two parties
behave as in a run over FIFO channels, whatever pieces the sockets move. -/
theorem tcp_refines (hlaw : P.Lawful) {x : Side → π} (hsent : ∀ s, P.sent (x s) = [])
    {acts : List (Action ι ω)} (hrun : (machine P block).Run (Calm block G) (start x) acts m) :
    ∃ acts', P.machine.Run (Protocol.onBegin G) (fun s => { state := x s }) acts' (parties m) :=
  hrun.refines parties (good_start hsent) (fun _ _ _ h hcalm hstep => (h.step hlaw hcalm hstep).1)
    fun _ _ _ h hcalm hstep => (h.step hlaw hcalm hstep).2

instance [∀ s x i, Decidable (G s x i)] (m : TcpMatch π ι) (act : Action ι ω) :
    Decidable (Calm block G m act) :=
  match act with
  | .begin s i => inferInstanceAs (Decidable (G s _ i))
  | .send s => inferInstanceAs (Decidable (∀ msg ∈ (m.ends s).unsent, msg.Fits))
  | .socket s .timeOut => inferInstanceAs (Decidable (block = true ∧ (m.lines s).taken = []))
  | .socket _ (.send _) | .socket _ (.accept _) | .socket _ (.recv _) | .socket _ (.poll _)
  | .socket _ (.deliver _) | .socket _ .fail | .recv _ | .finish _ _ => .isTrue trivial

end TcpMatch

/-! ### Sessions over TCP -/

open Replay RetroPark.Runtime

/-- A side calls `tick`, and its socket takes the input message in two pieces. -/
def callsOverTcp {ω : Type} (s : Side) (localNow : InputState) :
    List (TcpMatch.Action InputState ω) :=
  [.begin s localNow, .send s, .socket s (.accept 4), .socket s (.accept 284)]

/-- The bytes of an input message arrive in three pieces. -/
def arrivesOverTcp {ω : Type} (s : Side) : List (TcpMatch.Action InputState ω) :=
  [.socket s.other (.deliver 4), .socket s.other (.deliver 100), .socket s.other (.deliver 184)]

section Tcp

variable {κ β : Type} {env : Env κ β} {c : CorePtr} {σ : Type} {D : DrivenCore env.core c σ}
  {s₀ : σ} {inp : Side → ℕ → InputState} {w : Side → World κ β}

end Tcp

end RetroPark.Net
