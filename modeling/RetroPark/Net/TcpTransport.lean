import Mathlib.Algebra.Group.Nat.Defs
import Mathlib.Tactic.SplitIfs
import RetroPark.Abi
import RetroPark.Support.LittleEndian
import RetroPark.Support.Machine
import RetroPark.Support.Program

/-!
# The TCP transport

`TcpTransport` sends each message as a frame, four bytes that give its length and then the message,
over a socket that carries a stream of bytes.

* `TcpTransport.send` and `TcpTransport.recv` are programs that make calls of the socket, and
  `Connection` is the system of a sender, the stream and a receiver, in which a call of the socket
  moves any positive number of bytes or, when it receives, times out;
* `Sends` and `Takes` are what the two programs do with a frame, however it is cut into pieces;
* `recv_returns_sent` shows that the messages received are the first of those sent, as long as no
  call of the socket times out inside a frame, and `recv_loses_header` what happens when one does.

Timeouts are choices of the system, so the length of a timeout is left out.
-/

namespace RetroPark.Net

/-- The result of `::recv`. Receiving no bytes means that the peer has closed the connection. -/
inductive RecvResult
  | bytes (bs : Blob)
  | timedOut
  | failed

/-- The calls of the socket: `::send` of the bytes that are left, `::recv` of at most `want` bytes,
and the poll whether a byte is there. -/
inductive SocketCall
  | send (bytes : Blob)
  | recv (want : ℕ)
  | select

/-- `::send` answers with the number of bytes accepted, or a number that is not positive. -/
def SocketCall.Answer : SocketCall → Type
  | send _ => ℤ
  | recv _ => RecvResult
  | select => Bool

/-- A function of the transport. -/
abbrev SocketProgram (α : Type) := Program SocketCall SocketCall.Answer α

/-- `TcpTransport`, with whether its socket is open. -/
structure TcpTransport where
  opened : Bool

namespace TcpTransport

/-- Sends `bytes`, in as many pieces as the socket makes of them. -/
def sendAll (bytes : Blob) : SocketProgram Bool :=
  if bytes = [] then .ret true
  else .call (.send bytes) fun r : ℤ =>
    if r ≤ 0 then .ret false else sendAll (bytes.drop r.toNat)
termination_by bytes.length
decreasing_by
  have : bytes.length ≠ 0 := by simpa using ‹¬bytes = []›
  rw [List.length_drop]
  omega

/-- The length of a message, cut to 32 bits. -/
def header (data : Blob) : Blob :=
  (LittleEndian.bytes (k := 4) (UInt32.ofNat data.length).toBitVec).toList

def send (t : TcpTransport) (data : Blob) : SocketProgram RpResult := do
  if !t.opened then return .device
  let headerSent ← sendAll (header data)
  if !headerSent then return .device
  if data = [] then return .ok
  let dataSent ← sendAll data
  if !dataSent then return .device
  return .ok

/-- Receives until `n` bytes are there, the ones in `buf` included. -/
def recvExact (n : ℕ) (buf : Blob) : SocketProgram (Except RpResult Blob) :=
  if buf.length < n then
    .call (.recv (n - buf.length)) fun r : RecvResult =>
      match r with
      | .bytes [] => .ret (.error .device)
      | .bytes (b :: bs) => recvExact n (buf ++ b :: bs)
      | .timedOut => .ret (.error .timeout)
      | .failed => .ret (.error .device)
  else .ret (.ok buf)
termination_by n - buf.length
decreasing_by
  rw [List.length_append, List.length_cons]
  omega

/-- The length a header gives. -/
def headerLength (hdr : Blob) : UInt32 := UInt32.ofBitVec (LittleEndian.accumulate 0 0 hdr)

/-- Receives as many bytes as the header says. -/
def recvPayload (hdr : Blob) : SocketProgram (Except RpResult Blob) :=
  let len := headerLength hdr
  if len = 0 then return .ok [] else recvExact len.toNat []

/-- Receives a frame. A part of it that has been received when a call fails is not kept. -/
def recvFrame : SocketProgram (Except RpResult Blob) := do
  match ← recvExact 4 [] with
  | .error e => return .error e
  | .ok hdr => recvPayload hdr

def recv (t : TcpTransport) (block : Bool) : SocketProgram (Except RpResult Blob) := do
  if !t.opened then return .error .device
  if !block then
    let ready ← Program.ask SocketCall.Answer .select
    if !ready then return .error .notFound
    recvFrame
  else recvFrame

/-! ### What the programs do with a frame -/

/-- A message on the stream. -/
def frame (data : Blob) : Blob := header data ++ data

/-- However the socket cuts the bytes into pieces, the program sends `w` and returns `RP_OK`. -/
inductive Sends : SocketProgram RpResult → Blob → Prop
  | done : Sends (.ret .ok) []
  | piece {bytes w : Blob} {next : ℤ → SocketProgram RpResult} (hne : bytes ≠ [])
      (hnext : ∀ n : ℕ, 0 < n → n ≤ bytes.length → Sends (next n) (bytes.drop n ++ w)) :
      Sends (.call (.send bytes) next) (bytes ++ w)

/-- However the socket cuts the bytes into pieces, the program takes `w`, the rest of the frame of
`m`, and returns `m`. A timeout ends it. -/
inductive Takes (m : Blob) : SocketProgram (Except RpResult Blob) → Blob → Prop
  | done : Takes m (.ret (.ok m)) []
  | poll {next : Bool → SocketProgram (Except RpResult Blob)}
      (hready : Takes m (next true) (frame m)) (hnone : next false = .ret (.error .notFound)) :
      Takes m (.call .select next) (frame m)
  | piece {want : ℕ} {w : Blob} {next : RecvResult → SocketProgram (Except RpResult Blob)}
      (hpos : 0 < want) (hle : want ≤ w.length) (hint : want < 2 ^ 31)
      (hnext : ∀ n, 0 < n → n ≤ want → Takes m (next (.bytes (w.take n))) (w.drop n))
      (htimeout : next .timedOut = .ret (.error .timeout)) :
      Takes m (.call (.recv want) next) w

theorem sendAll_sends {k : Bool → SocketProgram RpResult} {w : Blob} (hk : Sends (k true) w)
    (bytes : Blob) : Sends (sendAll bytes >>= k) (bytes ++ w) := by
  induction hlen : bytes.length using Nat.strong_induction_on generalizing bytes with
  | _ len ih =>
    rw [sendAll]
    split_ifs with hempty
    · rw [hempty]
      exact hk
    · refine .piece hempty fun n hpos hle => ?_
      have hnot : ¬(n : ℤ) ≤ 0 := by omega
      show Sends ((if (n : ℤ) ≤ 0 then .ret false else sendAll (bytes.drop (n : ℤ).toNat)) >>= k) _
      rw [if_neg hnot, Int.toNat_natCast]
      exact ih _ (by rw [List.length_drop]; omega) _ rfl

/-- `send` sends the frame of its message. -/
theorem send_sends (m : Blob) : Sends (send ⟨true⟩ m) (frame m) := by
  have hrest : Sends (if m = [] then return .ok else do
      let dataSent ← sendAll m
      if !dataSent then return .device
      return .ok) m := by
    split_ifs with hempty
    · rw [hempty]
      exact .done
    · have hdata := sendAll_sends (k := fun dataSent => if !dataSent then return .device
        else return .ok) (w := []) .done m
      rwa [List.append_nil] at hdata
  exact sendAll_sends (k := fun headerSent => if !headerSent then return .device
    else if m = [] then return .ok else do
      let dataSent ← sendAll m
      if !dataSent then return .device
      return .ok) hrest (header m)

theorem length_header (m : Blob) : (header m).length = 4 := Vector.length_toList

/-- The bytes a header asks for are those of the message. -/
theorem headerLength_header {m : Blob} (hm : m.length < 2 ^ 31) :
    (headerLength (header m)).toNat = m.length := by
  have hword : headerLength (header m) = UInt32.ofNat m.length :=
    congrArg UInt32.ofBitVec
      (LittleEndian.word_bytes (k := 4) (UInt32.ofNat m.length).toBitVec)
  rw [hword]
  exact UInt32.toNat_ofNat_of_lt' (Nat.lt_trans hm (by decide))

/-- The `n` bytes are there in the end, however many come at a time. -/
theorem recvExact_takes {m : Blob} {k : Except RpResult Blob → SocketProgram (Except RpResult Blob)}
    (hk : k (.error .timeout) = .ret (.error .timeout)) {n : ℕ} (hn : n < 2 ^ 31) {buf w : Blob}
    (hbuf : buf.length ≤ n) (hw : n - buf.length ≤ w.length)
    (hdone : Takes m (k (.ok (buf ++ w.take (n - buf.length)))) (w.drop (n - buf.length))) :
    Takes m (recvExact n buf >>= k) w := by
  -- Induction on the bytes still missing; a piece may be any part of them.
  induction hleft : n - buf.length using Nat.strong_induction_on generalizing buf w with
  | _ left ih =>
    rw [recvExact]
    split_ifs with hlt
    · refine .piece (by omega) (by omega) (by omega) (fun i hpos hle => ?_) hk
      obtain ⟨b, bs, hbs⟩ : ∃ b bs, w.take i = b :: bs := by
        refine List.exists_cons_of_length_pos ?_
        rw [List.length_take]
        omega
      have hlength : (b :: bs).length = i := by
        rw [← hbs, List.length_take]
        omega
      have hsplit : n - (buf ++ b :: bs).length = n - buf.length - i := by
        rw [List.length_append, hlength]
        omega
      rw [hbs]
      refine ih (n - buf.length - i) (by omega) ?_ ?_ ?_ hsplit
      · rw [List.length_append, hlength]
        omega
      · rw [List.length_drop, hsplit]
        omega
      · have hsum : i + (n - buf.length - i) = n - buf.length := by omega
        rw [hsplit, List.append_assoc, ← hbs, ← List.take_add, List.drop_drop, hsum]
        exact hdone
    · have hzero : n - buf.length = 0 := by omega
      rw [hzero, List.take_zero, List.append_nil, List.drop_zero] at hdone
      exact hdone

theorem recvFrame_takes {m : Blob} (hm : m.length < 2 ^ 31) : Takes m recvFrame (frame m) := by
  have hheader : (frame m).take 4 = header m :=
    List.take_left' (length_header m)
  have hdata : (frame m).drop 4 = m := List.drop_left' (length_header m)
  -- The four bytes of the header, and then as many as it says.
  refine recvExact_takes (k := fun
    | .error e => .ret (.error e)
    | .ok hdr => recvPayload hdr) rfl (show 4 < 2 ^ 31 by decide) ?_ ?_ ?_
  · exact Nat.zero_le 4
  · rw [frame, List.length_append, length_header]
    exact Nat.le_add_right 4 _
  · show Takes m (recvPayload ([] ++ (frame m).take 4)) ((frame m).drop 4)
    have hlength := headerLength_header hm
    rw [hheader, hdata, List.nil_append, recvPayload]
    split_ifs with hzero
    · rw [hzero] at hlength
      obtain rfl : m = [] := List.length_eq_zero_iff.mp hlength.symm
      exact .done
    · rw [hlength]
      have hwhole : Takes m (recvExact m.length [] >>= .ret) m := by
        refine recvExact_takes rfl hm (Nat.zero_le _) (Nat.le_refl _) ?_
        show Takes m (.ret (.ok ([] ++ m.take m.length))) (m.drop m.length)
        rw [List.take_length, List.drop_length]
        exact .done
      rwa [Program.bind_ret] at hwhole

/-- `recv` takes the frame of whatever message the stream goes on with. -/
theorem recv_takes {m : Blob} (hm : m.length < 2 ^ 31) (block : Bool) :
    Takes m (recv ⟨true⟩ block) (frame m) := by
  cases block
  · exact .poll (recvFrame_takes hm) rfl
  · exact recvFrame_takes hm

end TcpTransport

/-! ### A connection -/

open TcpTransport

/-- A sender, the bytes on their way, and a receiver. -/
structure Connection where
  /-- The messages passed to `send`, oldest first. -/
  messages : List Blob := []
  /-- What is left of the `send` under way. -/
  sending : Option (SocketProgram RpResult) := none
  pipe : Blob := []
  /-- What is left of the `recv` under way. -/
  receiving : Option (SocketProgram (Except RpResult Blob)) := none
  /-- The bytes the `recv` under way has taken. -/
  taken : Blob := []
  /-- The messages that calls of `recv` have returned. -/
  returned : List Blob := []

namespace Connection

/-- Calls of the transport begin, and calls of the socket that they make are answered. -/
inductive Action
  | send (m : Blob)
  | accept (n : ℕ)
  | recv (block : Bool)
  | poll (ready : Bool)
  | deliver (n : ℕ)
  | timeOut
  | fail

/-- The `send` under way goes on with `p`. -/
def sendOn (c : Connection) (p : SocketProgram RpResult) : Connection :=
  match p with
  | .ret _ => { c with sending := none }
  | p => { c with sending := some p }

/-- The `recv` under way goes on with `p`. -/
def recvOn (c : Connection) (p : SocketProgram (Except RpResult Blob)) : Connection :=
  match p with
  | .ret (.ok m) => { c with receiving := none, taken := [], returned := c.returned ++ [m] }
  | .ret (.error _) => { c with receiving := none, taken := [] }
  | p => { c with receiving := some p }

/-- One step of the sender or of the receiver. A poll finds a byte only if there is one, and a
receive for a number of bytes that no `int` holds fails. -/
def step (c : Connection) : Action → Option Connection
  | .send m =>
      if c.sending.isNone then
        some (sendOn { c with messages := c.messages ++ [m] } (TcpTransport.send ⟨true⟩ m))
      else none
  | .accept n =>
      match c.sending with
      | some (.call (.send bytes) next) =>
          if 0 < n ∧ n ≤ bytes.length then
            some (sendOn { c with pipe := c.pipe ++ bytes.take n } (next (n : ℤ)))
          else none
      | _ => none
  | .recv block =>
      if c.receiving.isNone then some (recvOn c (TcpTransport.recv ⟨true⟩ block)) else none
  | .poll ready =>
      match c.receiving with
      | some (.call .select next) =>
          if ready = true ∧ c.pipe = [] then none else some (recvOn c (next ready))
      | _ => none
  | .deliver n =>
      match c.receiving with
      | some (.call (.recv want) next) =>
          if want < 2 ^ 31 ∧ 0 < n ∧ n ≤ want ∧ n ≤ c.pipe.length then
            some (recvOn { c with pipe := c.pipe.drop n, taken := c.taken ++ c.pipe.take n }
              (next (.bytes (c.pipe.take n))))
          else none
      | _ => none
  | .timeOut =>
      match c.receiving with
      | some (.call (.recv want) next) =>
          if want < 2 ^ 31 then some (recvOn c (next .timedOut)) else none
      | _ => none
  | .fail =>
      match c.receiving with
      | some (.call (.recv want) next) =>
          if want < 2 ^ 31 then none else some (recvOn c (next .failed))
      | _ => none

/-- The system of a sender and a receiver whose sockets are open. -/
def machine : Machine Connection Action := ⟨step⟩

/-- Messages are shorter than `2 ^ 31` bytes. -/
def Short (_ : Connection) : Action → Prop
  | .send m => m.length < 2 ^ 31
  | _ => True

/-- No call of the socket times out once the `recv` under way has taken a byte. -/
def Whole (c : Connection) : Action → Prop
  | .send m => m.length < 2 ^ 31
  | .timeOut => c.taken = []
  | _ => True

instance (c : Connection) (act : Action) : Decidable (Short c act) :=
  match act with
  | .send m => inferInstanceAs (Decidable (m.length < 2 ^ 31))
  | .accept _ | .recv _ | .poll _ | .deliver _ | .timeOut | .fail => .isTrue trivial

instance (c : Connection) (act : Action) : Decidable (Whole c act) :=
  match act with
  | .send m => inferInstanceAs (Decidable (m.length < 2 ^ 31))
  | .timeOut => inferInstanceAs (Decidable (c.taken = []))
  | .accept _ | .recv _ | .poll _ | .deliver _ | .fail => .isTrue trivial

/-- The messages not yet returned, and the bytes of them that are on their way, taken or unsent. -/
structure Framed (c : Connection) (queue : List Blob) (unsent : Blob) : Prop where
  messages : c.messages = c.returned ++ queue
  bytes : c.taken ++ (c.pipe ++ unsent) = queue.flatMap frame
  short : ∀ m ∈ queue, m.length < 2 ^ 31
  unsent_nil : c.sending = none → unsent = []
  sending : ∀ p, c.sending = some p → Sends p unsent
  taken_nil : c.receiving = none → c.taken = []
  receiving : ∀ p, c.receiving = some p → ∀ m w, m.length < 2 ^ 31 → frame m = c.taken ++ w →
    Takes m p w
  begun : c.taken ≠ [] → ∃ m rest w, queue = m :: rest ∧ frame m = c.taken ++ w

theorem framed_start : Framed {} [] [] where
  messages := rfl
  bytes := rfl
  short _ hm := nomatch hm
  unsent_nil _ := rfl
  sending _ hp := nomatch hp
  taken_nil _ := rfl
  receiving _ hp := nomatch hp
  begun h := absurd rfl h

section Framed

variable {c c' : Connection} {queue : List Blob} {unsent : Blob}

/-- The `recv` under way is inside the frame of some message. -/
theorem Framed.takes (h : Framed c queue unsent) {p : SocketProgram (Except RpResult Blob)}
    (hp : c.receiving = some p) : ∃ m w, Takes m p w ∧ frame m = c.taken ++ w := by
  by_cases htaken : c.taken = []
  · refine ⟨[], frame [], h.receiving p hp [] _ (by decide) ?_, ?_⟩ <;> rw [htaken, List.nil_append]
  · obtain ⟨m, rest, w, rfl, hframe⟩ := h.begun htaken
    exact ⟨m, w, h.receiving p hp m w (h.short m List.mem_cons_self) hframe, hframe⟩

/-- Bytes on their way belong to the frame of the next message. -/
theorem Framed.front (h : Framed c queue unsent) (hpipe : c.pipe ≠ []) :
    ∃ m rest w, queue = m :: rest ∧ frame m = c.taken ++ w := by
  by_cases htaken : c.taken = []
  · cases queue with
    | nil =>
      have hbytes := h.bytes
      rw [htaken, List.nil_append] at hbytes
      exact absurd (List.append_eq_nil_iff.mp hbytes).1 hpipe
    | cons m rest => exact ⟨m, rest, frame m, rfl, by rw [htaken, List.nil_append]⟩
  · exact h.begun htaken

theorem Framed.sendOn {p : SocketProgram RpResult}
    (h : Framed { c with sending := some p } queue unsent) : Framed (c.sendOn p) queue unsent := by
  cases p with
  | call i next => exact h
  | ret r =>
    have hnil : unsent = [] := by
      cases h.sending _ rfl
      rfl
    exact ⟨h.messages, h.bytes, h.short, fun _ => hnil, fun _ hp => (nomatch hp), h.taken_nil,
      h.receiving, h.begun⟩

/-- A `recv` that returns a message has taken its frame. -/
theorem Framed.recvOn {p : SocketProgram (Except RpResult Blob)}
    (h : Framed { c with receiving := some p } queue unsent) :
    ∃ queue', Framed (c.recvOn p) queue' unsent := by
  cases p with
  | call i next => exact ⟨queue, h⟩
  | ret r =>
    obtain ⟨m, w, htakes, hframe⟩ := h.takes rfl
    cases htakes
    -- A frame has a header at least, so something has been taken.
    have htaken : c.taken ≠ [] := by
      intro hnil
      rw [hnil] at hframe
      exact absurd (congrArg List.length hframe) (by simp [frame, length_header])
    obtain ⟨m', rest, w', rfl, hframe'⟩ := h.begun htaken
    have hshort := h.short m' List.mem_cons_self
    have htakes' := h.receiving _ rfl m' w' hshort hframe'
    cases htakes'
    refine ⟨rest, ⟨?_, ?_, fun x hx => h.short x (List.mem_cons_of_mem _ hx), h.unsent_nil,
      h.sending, fun _ => rfl, fun _ hp => (nomatch hp), fun hne => absurd rfl hne⟩⟩
    · show c.messages = c.returned ++ [m] ++ rest
      rw [List.append_assoc]
      exact h.messages
    · have hbytes : c.taken ++ (c.pipe ++ unsent) = frame m ++ rest.flatMap frame := h.bytes
      rw [hframe, List.append_nil] at hbytes
      exact List.append_cancel_left hbytes

/-- A `recv` that fails before it has taken a byte. -/
theorem Framed.failed (h : Framed c queue unsent) (htaken : c.taken = []) (e : RpResult) :
    Framed (c.recvOn (.ret (.error e))) queue unsent where
  messages := h.messages
  bytes := by
    rw [← h.bytes, htaken]
    rfl
  short := h.short
  unsent_nil := h.unsent_nil
  sending := h.sending
  taken_nil _ := rfl
  receiving _ hp := nomatch hp
  begun hne := absurd rfl hne

theorem Framed.send (h : Framed c queue unsent) (hidle : c.sending = none) {m : Blob}
    (hm : m.length < 2 ^ 31) :
    Framed (Connection.sendOn { c with messages := c.messages ++ [m] } (TcpTransport.send ⟨true⟩ m))
      (queue ++ [m]) (frame m) := by
  have hnil := h.unsent_nil hidle
  refine Framed.sendOn ⟨?_, ?_, ?_, ?_, ?_, h.taken_nil, h.receiving, ?_⟩
  · show c.messages ++ [m] = c.returned ++ (queue ++ [m])
    rw [h.messages, List.append_assoc]
  · have hbytes := h.bytes
    rw [hnil, List.append_nil] at hbytes
    show c.taken ++ (c.pipe ++ frame m) = _
    rw [← List.append_assoc, hbytes]
    simp
  · intro x hx
    rcases List.mem_append.mp hx with hold | hnew
    · exact h.short x hold
    · exact List.mem_singleton.mp hnew ▸ hm
  · exact fun hnone => nomatch hnone
  · intro p hp
    exact Option.some.inj hp ▸ send_sends m
  · intro htaken
    obtain ⟨m', rest, w, rfl, hframe⟩ := h.begun htaken
    exact ⟨m', rest ++ [m], w, rfl, hframe⟩

/-- The socket takes the first `n` of the bytes it was called with. -/
theorem Framed.accept (h : Framed c queue unsent) {bytes : Blob} {next : ℤ → SocketProgram RpResult}
    (hsending : c.sending = some (.call (.send bytes) next)) {n : ℕ} (hpos : 0 < n)
    (hle : n ≤ bytes.length) :
    ∃ unsent', Framed (Connection.sendOn { c with pipe := c.pipe ++ bytes.take n } (next (n : ℤ)))
      queue unsent' := by
  cases h.sending _ hsending with
  | @piece _ w _ _ hnext =>
    refine ⟨bytes.drop n ++ w, Framed.sendOn ⟨h.messages, ?_, h.short, ?_, ?_,
      h.taken_nil, h.receiving, h.begun⟩⟩
    · show c.taken ++ (c.pipe ++ bytes.take n ++ (bytes.drop n ++ w)) = _
      rw [← h.bytes, List.append_assoc, ← List.append_assoc (bytes.take n),
        List.take_append_drop]
    · exact fun hnone => nomatch hnone
    · exact fun p hp => Option.some.inj hp ▸ hnext n hpos hle

theorem Framed.recv (h : Framed c queue unsent) (hidle : c.receiving = none) (block : Bool) :
    ∃ queue', Framed (c.recvOn (TcpTransport.recv ⟨true⟩ block)) queue' unsent := by
  have hnil := h.taken_nil hidle
  refine Framed.recvOn ⟨h.messages, h.bytes, h.short, h.unsent_nil, h.sending,
    fun hnone => (nomatch hnone), fun p hp m w hm hframe => ?_, h.begun⟩
  have hwhole : frame m = w := by
    have hframe : frame m = c.taken ++ w := hframe
    rwa [hnil] at hframe
  exact Option.some.inj hp ▸ hwhole ▸ recv_takes hm block

/-- A poll that finds nothing ends the `recv`, which has taken nothing yet. -/
theorem Framed.poll (h : Framed c queue unsent)
    {next : Bool → SocketProgram (Except RpResult Blob)}
    (hreceiving : c.receiving = some (.call .select next)) (ready : Bool) :
    ∃ queue', Framed (c.recvOn (next ready)) queue' unsent := by
  cases ready with
  | true =>
    refine Framed.recvOn ⟨h.messages, h.bytes, h.short, h.unsent_nil, h.sending,
      fun hnone => (nomatch hnone), fun p hp m w hm hframe => ?_, h.begun⟩
    cases h.receiving _ hreceiving m w hm hframe with
    | poll hnext _ => exact Option.some.inj hp ▸ hnext
  | false =>
    obtain ⟨m, w, htakes, hframe⟩ := h.takes hreceiving
    cases htakes with
    | poll _ hnone =>
      rw [hnone]
      exact ⟨queue, h.failed (List.self_eq_append_left.mp hframe) .notFound⟩

/-- The bytes delivered belong to the frame under way. -/
theorem Framed.piece (h : Framed c queue unsent) {want : ℕ}
    {next : RecvResult → SocketProgram (Except RpResult Blob)}
    (hreceiving : c.receiving = some (.call (.recv want) next)) {n : ℕ} (hwant : n ≤ want)
    (hpipe : n ≤ c.pipe.length) {m w : Blob} {rest : List Blob} (hqueue : queue = m :: rest)
    (hframe : frame m = c.taken ++ w) : c.pipe.take n = w.take n := by
  subst hqueue
  have hbytes : c.taken ++ (c.pipe ++ unsent) = frame m ++ rest.flatMap frame := h.bytes
  rw [hframe, List.append_assoc] at hbytes
  have hrest := congrArg (List.take n) (List.append_cancel_left hbytes)
  have hlength : n ≤ w.length := by
    cases h.receiving _ hreceiving m w (h.short m List.mem_cons_self) hframe with
    | piece _ hle _ _ _ => exact Nat.le_trans hwant hle
  rwa [List.take_append_of_le_length hpipe, List.take_append_of_le_length hlength] at hrest

/-- The first `n` bytes on their way are delivered to a `recv` that asks for `want`. -/
theorem Framed.deliver (h : Framed c queue unsent) {want : ℕ}
    {next : RecvResult → SocketProgram (Except RpResult Blob)}
    (hreceiving : c.receiving = some (.call (.recv want) next)) {n : ℕ} (hpos : 0 < n)
    (hwant : n ≤ want) (hpipe : n ≤ c.pipe.length) :
    ∃ queue', Framed (Connection.recvOn
        { c with pipe := c.pipe.drop n, taken := c.taken ++ c.pipe.take n }
        (next (.bytes (c.pipe.take n)))) queue' unsent := by
  obtain ⟨m, rest, w, hqueue, hframe⟩ := h.front (fun hnil => by simp [hnil] at hpipe; omega)
  have hpiece := h.piece hreceiving hwant hpipe hqueue hframe
  refine Framed.recvOn ⟨h.messages, ?_, h.short, h.unsent_nil, h.sending,
    fun hnone => (nomatch hnone), fun p hp m' w' hm hframe' => ?_,
    fun _ => ⟨m, rest, w.drop n, hqueue, ?_⟩⟩
  · show c.taken ++ c.pipe.take n ++ (c.pipe.drop n ++ unsent) = _
    rw [← h.bytes, List.append_assoc, ← List.append_assoc (c.pipe.take n), List.take_append_drop]
  · have hframe' : frame m' = c.taken ++ (c.pipe.take n ++ w') := by
      rw [← List.append_assoc]
      exact hframe'
    have hlength : (c.pipe.take n).length = n := List.length_take_of_le hpipe
    cases h.receiving _ hreceiving m' _ hm hframe' with
    | piece _ _ _ hnext _ =>
      have hnext := hnext n hpos hwant
      rw [List.take_left' hlength, List.drop_left' hlength] at hnext
      exact Option.some.inj hp ▸ hnext
  · show frame m = c.taken ++ c.pipe.take n ++ w.drop n
    rw [hpiece, List.append_assoc, List.take_append_drop]
    exact hframe

/-- One step of a connection in which no call times out inside a frame. -/
theorem Framed.step (h : Framed c queue unsent) {act : Action} (hwhole : Whole c act)
    (hstep : c.step act = some c') : ∃ queue' unsent', Framed c' queue' unsent' := by
  cases act with
  | send m =>
    rw [Connection.step] at hstep
    split_ifs at hstep with hidle
    obtain rfl := Option.some.inj hstep
    exact ⟨_, _, h.send (Option.isNone_iff_eq_none.mp hidle) hwhole⟩
  | accept n =>
    rw [Connection.step] at hstep
    split at hstep
    · next bytes next hsending =>
      split_ifs at hstep with hn
      obtain rfl := Option.some.inj hstep
      exact ⟨queue, h.accept hsending hn.1 hn.2⟩
    · exact nomatch hstep
  | recv block =>
    rw [Connection.step] at hstep
    split_ifs at hstep with hidle
    obtain rfl := Option.some.inj hstep
    exact (h.recv (Option.isNone_iff_eq_none.mp hidle) block).imp fun _ h' => ⟨unsent, h'⟩
  | poll ready =>
    rw [Connection.step] at hstep
    split at hstep
    · next next hreceiving =>
      split_ifs at hstep with hready
      obtain rfl := Option.some.inj hstep
      exact (h.poll hreceiving ready).imp fun _ h' => ⟨unsent, h'⟩
    · exact nomatch hstep
  | deliver n =>
    rw [Connection.step] at hstep
    split at hstep
    · next want next hreceiving =>
      split_ifs at hstep with hn
      obtain rfl := Option.some.inj hstep
      obtain ⟨-, hpos, hwant, hpipe⟩ := hn
      exact (h.deliver hreceiving hpos hwant hpipe).imp fun _ h' => ⟨unsent, h'⟩
    · exact nomatch hstep
  | timeOut =>
    rw [Connection.step] at hstep
    split at hstep
    · next want next hreceiving =>
      split_ifs at hstep with hn
      obtain rfl := Option.some.inj hstep
      obtain ⟨m, w, htakes, -⟩ := h.takes hreceiving
      cases htakes with
      | piece _ _ _ _ htimeout =>
        rw [htimeout]
        exact ⟨queue, unsent, h.failed hwhole .timeout⟩
    · exact nomatch hstep
  | fail =>
    rw [Connection.step] at hstep
    split at hstep
    · next want next hreceiving =>
      split_ifs at hstep with hn
      -- The rest of a frame has fewer bytes than an `int` can count.
      obtain ⟨m, w, htakes, -⟩ := h.takes hreceiving
      cases htakes with
      | piece _ _ hint _ _ => exact absurd hint hn
    · exact nomatch hstep

/-- In every run in which no call of the socket times out once the `recv` under way has taken a
byte, the messages that `recv` has returned are the first of those passed to `send`. -/
theorem recv_returns_sent {acts : List Action} (hrun : machine.Run Whole {} acts c) :
    c.returned <+: c.messages := by
  obtain ⟨queue, unsent, h⟩ := hrun.invariant (I := fun c => ∃ queue unsent, Framed c queue unsent)
    ⟨[], [], framed_start⟩ fun _ _ _ ⟨_, _, h⟩ hwhole hstep => h.step hwhole hstep
  rw [h.messages]
  exact List.prefix_append _ _

/-- The sender's socket takes the frame in three pieces. The receiver polls too early, times out
with nothing received, and then receives the frame in three other pieces. -/
def inPieces : List Action :=
  [.recv false, .poll false, .send [7, 8], .accept 1, .recv true, .timeOut, .accept 3, .recv true,
    .deliver 2, .accept 2, .deliver 2, .deliver 2]

theorem recv_returns_sent_inPieces :
    ∃ c, machine.exec Whole {} inPieces = some c ∧ c.returned <+: c.messages ∧
      c.returned = [[7, 8]] := by
  have hany : (machine.exec Whole {} inPieces).any (fun c => decide (c.returned = [[7, 8]])) =
      true := by
    decide +kernel
  obtain ⟨c, hc, hreturned⟩ := (Option.any_eq_true _ _).mp hany
  exact ⟨c, hc, recv_returns_sent (Machine.run_iff_exec.mpr hc), of_decide_eq_true hreturned⟩

/-- The receiver times out after the header of a message of four zeroes. The next `recv` takes the
zeroes for the header of an empty message. -/
theorem recv_loses_header :
    ∃ c, machine.exec Short {} [.send [0, 0, 0, 0], .accept 4, .accept 4, .recv true, .deliver 4,
        .timeOut, .recv true, .deliver 4] = some c ∧
      c.messages = [[0, 0, 0, 0]] ∧ c.returned = [[]] ∧ ¬c.returned <+: c.messages := by
  have hany : (machine.exec Short {} [.send [0, 0, 0, 0], .accept 4, .accept 4, .recv true,
      .deliver 4, .timeOut, .recv true, .deliver 4]).any (fun c => decide
        (c.messages = [[0, 0, 0, 0]] ∧ c.returned = [[]])) = true := by
    decide +kernel
  obtain ⟨c, hc, hstate⟩ := (Option.any_eq_true _ _).mp hany
  obtain ⟨hmessages, hreturned⟩ := of_decide_eq_true hstate
  refine ⟨c, hc, hmessages, hreturned, ?_⟩
  rw [hmessages, hreturned]
  decide

end Framed

end Connection

end RetroPark.Net
