import RetroPark.Net.NetProtocol
import RetroPark.Support.LittleEndian
import RetroPark.Support.Reader
import Mathlib.Algebra.Group.Nat.Defs

/-!
# The wire format

The encoders and decoders of the four messages peers exchange. A message is a byte that names its
type, and then its fields, little-endian and without padding.

* the encoders append the fields, the decoders are readers of the buffer that was received;
* `Exact` is what a decoder and an encoder are to each other, and `wire_format` proves it of the
  four pairs, and that the type a buffer names is the only one it can be decoded as;
* `Message.ofBytes` is what a running session makes of a buffer, and `ofBytes_bytes` that it is the
  message that was sent.

A `size_t` has 64 bits, so that no offset into a buffer overflows: a decoder adds at most `2 ^ 32`
to an offset of at most 13.
-/

namespace RetroPark.Net

/-- `MsgType`. A received byte is cast to the enumeration without a check, so values that name no
enumerator occur. -/
inductive MsgType
  | hello
  | stateSync
  | input
  | checksum
  | other (raw : UInt8)
  deriving DecidableEq, Repr

namespace MsgType

/-- The byte that stands for a type. -/
def raw : MsgType → UInt8
  | hello => 1
  | stateSync => 2
  | input => 3
  | checksum => 4
  | other raw => raw

/-- The cast from a byte to `MsgType`. -/
def ofRaw (b : UInt8) : MsgType :=
  if b = 1 then hello else if b = 2 then stateSync else if b = 3 then input
  else if b = 4 then checksum else other b

end MsgType

namespace Wire

open Reader

/-! ### The messages -/

/-- `rp::net::Hello`. -/
structure Hello where
  abiVersion : UInt32 := 0
  /-- A string padded with zeroes. -/
  coreId : Vector UInt8 64 := Vector.replicate 64 0
  contentHash : UInt64 := 0
  inputDelay : UInt32 := 0
  startFrame : UInt64 := 0
  deriving DecidableEq

/-- The last byte of the core's name is its terminator. -/
def Hello.terminated (h : Hello) : Hello := { h with coreId := h.coreId.set 63 0 }

/-- `rp::net::StateSync`. -/
structure StateSync where
  frame : UInt64 := 0
  blob : Blob := []
  deriving DecidableEq

/-- `rp::net::Input`. -/
structure Input where
  frame : UInt64 := 0
  port : UInt8 := 0
  state : InputState := .neutral
  deriving DecidableEq

/-- `rp::net::Checksum`. -/
structure Checksum where
  frame : UInt64 := 0
  crc : UInt32 := 0
  deriving DecidableEq

/-! ### Fields -/

/-- A word of `k` bytes, least significant byte first. -/
def putWord (k : ℕ) (v : BitVec (8 * k)) : Blob := (LittleEndian.bytes v).toList

def putU16 (v : UInt16) : Blob := putWord 2 v.toBitVec

def putU32 (v : UInt32) : Blob := putWord 4 v.toBitVec

def putU64 (v : UInt64) : Blob := putWord 8 v.toBitVec

def getWord (k : ℕ) : Reader (BitVec (8 * k)) := do
  let bs ← take k
  return LittleEndian.word bs

def getU16 : Reader UInt16 := do
  let v ← getWord 2
  return UInt16.ofBitVec v

def getU32 : Reader UInt32 := do
  let v ← getWord 4
  return UInt32.ofBitVec v

def getU64 : Reader UInt64 := do
  let v ← getWord 8
  return UInt64.ofBitVec v

/-- A single byte. -/
def getByte : Reader UInt8 := do
  let bs ← take 1
  return bs[0]

/-- A signed axis, carried as an unsigned word. -/
def getAxis : Reader Int16 := do
  let v ← getU16
  return v.toInt16

def putInput (s : InputState) : Blob :=
  s.keys.toList ++ s.padAxes.toList.flatMap (fun a => putU16 a.toUInt16) ++ putU16 s.padButtons

def getInput : Reader InputState := do
  let keys ← take 256
  let padAxes ← vector getAxis 8
  let padButtons ← getU16
  return { keys, padAxes, padButtons }

/-- A word of `k` bytes is read back as it was written. -/
theorem reads_word (k : ℕ) : Reads (getWord k) (putWord k) :=
  (reads_take k).equiv LittleEndian.word_bytes LittleEndian.bytes_word

/-- A 16-bit word is read back as it was written. -/
theorem reads_u16 : Reads getU16 putU16 := (reads_word 2).equiv (fun _ => rfl) fun _ => rfl

/-- A 32-bit word is read back as it was written. -/
theorem reads_u32 : Reads getU32 putU32 := (reads_word 4).equiv (fun _ => rfl) fun _ => rfl

/-- A 64-bit word is read back as it was written. -/
theorem reads_u64 : Reads getU64 putU64 := (reads_word 8).equiv (fun _ => rfl) fun _ => rfl

/-- A byte is read back as it was written. -/
theorem reads_byte : Reads getByte fun b => [b] := by
  refine (reads_take 1).equiv (f := fun b => #v[b]) (fun _ => rfl) fun bs => ?_
  ext i hi
  obtain rfl : i = 0 := by omega
  rfl

/-- An axis is read back from its 16-bit pattern. -/
theorem reads_axis : Reads getAxis fun a => putU16 a.toUInt16 :=
  reads_u16.equiv (fun _ => Int16.toInt16_toUInt16 _) fun _ => UInt16.toUInt16_toInt16 _

/-- An input state is read back field by field. -/
theorem reads_input : Reads getInput putInput := by
  have hfields : Reads getInput fun s => s.keys.toList ++
      (s.padAxes.toList.flatMap (fun a => putU16 a.toUInt16) ++ (putU16 s.padButtons ++ [])) := by
    refine (reads_take 256).bind InputState.keys fun keys =>
      (reads_axis.vector 8).bind InputState.padAxes fun axes =>
        reads_u16.bind InputState.padButtons fun buttons => ?_
    refine readsAs_pure (b := ⟨keys, axes, buttons⟩) rfl fun s => ?_
    constructor
    · rintro ⟨⟨⟨-, rfl⟩, rfl⟩, rfl⟩
      rfl
    · rintro rfl
      exact ⟨⟨⟨Set.mem_univ _, rfl⟩, rfl⟩, rfl⟩
  exact hfields.congr fun s => by simp [putInput]

/-! ### Encoders and decoders -/

def encodeHello (h : Hello) : Blob :=
  [MsgType.hello.raw] ++ putU32 h.abiVersion ++ h.coreId.toList ++ putU64 h.contentHash ++
    putU32 h.inputDelay ++ putU64 h.startFrame

def encodeStateSync (s : StateSync) : Blob :=
  [MsgType.stateSync.raw] ++ putU64 s.frame ++ putU32 (UInt32.ofNat s.blob.length) ++ s.blob

def encodeInput (i : Input) : Blob :=
  [MsgType.input.raw] ++ putU64 i.frame ++ [i.port] ++ putInput i.state

def encodeChecksum (c : Checksum) : Blob :=
  [MsgType.checksum.raw] ++ putU64 c.frame ++ putU32 c.crc

/-- The type the first byte of a buffer names. -/
def peekType (m : Blob) : Option MsgType := m.head?.map MsgType.ofRaw

/-- The fields of a message, after the byte that names its type. -/
def decode {α : Type} (type : MsgType) (fields : Reader α) (m : Blob) :
    Except OutOfBounds (Option α) :=
  if m.head? ≠ some type.raw then .ok none
  else (fields m 1).map (Option.map Prod.fst)

def getHello : Reader Hello := do
  let abiVersion ← getU32
  let coreId ← take 64
  let coreId := coreId.set 63 0
  let contentHash ← getU64
  let inputDelay ← getU32
  let startFrame ← getU64
  return { abiVersion, coreId, contentHash, inputDelay, startFrame }

/-- A buffer of `n` bytes. -/
def getBytes (n : ℕ) : Reader Blob := do
  let bs ← take n
  return bs.toList

def getStateSync : Reader StateSync := do
  let frame ← getU64
  let len ← getU32
  let blob ← getBytes len.toNat
  return { frame, blob }

def getInputMessage : Reader Input := do
  let frame ← getU64
  let port ← getByte
  let state ← getInput
  return { frame, port, state }

def getChecksum : Reader Checksum := do
  let frame ← getU64
  let crc ← getU32
  return { frame, crc }

def decodeHello : Blob → Except OutOfBounds (Option Hello) := decode .hello getHello

def decodeStateSync : Blob → Except OutOfBounds (Option StateSync) := decode .stateSync getStateSync

def decodeInput : Blob → Except OutOfBounds (Option Input) := decode .input getInputMessage

def decodeChecksum : Blob → Except OutOfBounds (Option Checksum) := decode .checksum getChecksum

/-- A name is read as it is on the wire, and then terminated. -/
theorem readsAs_hello : ReadsAs getHello (fun h => putU32 h.abiVersion ++ (h.coreId.toList ++
    (putU64 h.contentHash ++ (putU32 h.inputDelay ++ (putU64 h.startFrame ++ [])))))
      Hello.terminated Set.univ := by
  refine reads_u32.bind Hello.abiVersion fun abi => (reads_take 64).bind Hello.coreId fun core =>
    reads_u64.bind Hello.contentHash fun hash => reads_u32.bind Hello.inputDelay fun delay =>
      reads_u64.bind Hello.startFrame fun start => ?_
  refine readsAs_pure (b := ⟨abi, core, hash, delay, start⟩) rfl fun h => ?_
  constructor
  · rintro ⟨⟨⟨⟨⟨-, rfl⟩, rfl⟩, rfl⟩, rfl⟩, rfl⟩
    rfl
  · rintro rfl
    exact ⟨⟨⟨⟨⟨Set.mem_univ _, rfl⟩, rfl⟩, rfl⟩, rfl⟩, rfl⟩

/-- The states that fit the length field. -/
def StateSync.Fits (s : StateSync) : Prop := s.blob.length < 2 ^ 32

/-- A state message whose blob fits a 32-bit length is read back. -/
theorem readsAs_stateSync : ReadsAs getStateSync (fun s => putU64 s.frame ++
    (putU32 (UInt32.ofNat s.blob.length) ++ (s.blob ++ []))) id {s | s.Fits} := by
  refine reads_u64.bind StateSync.frame fun frame =>
    reads_u32.bind (fun s : StateSync => UInt32.ofNat s.blob.length) fun len => ?_
  refine (readsAs_takeList len.toNat).bind StateSync.blob ?_ fun blob hblob => ?_
  · rintro s ⟨⟨hfits, -⟩, rfl⟩
    exact (UInt32.toNat_ofNat_of_lt' hfits).symm
  · refine readsAs_pure (b := ⟨frame, blob⟩) rfl fun s => ?_
    constructor
    · rintro ⟨⟨⟨-, rfl⟩, -⟩, rfl⟩
      rfl
    · rintro rfl
      have hlen : blob.length = len.toNat := hblob
      refine ⟨⟨⟨?_, rfl⟩, ?_⟩, rfl⟩
      · show blob.length < 2 ^ 32
        rw [hlen]
        exact len.toNat_lt
      · show UInt32.ofNat blob.length = len
        rw [hlen, UInt32.ofNat_toNat]

/-- An input message is read back. -/
theorem reads_inputMessage : Reads getInputMessage fun i =>
    putU64 i.frame ++ ([i.port] ++ (putInput i.state ++ [])) := by
  refine reads_u64.bind Input.frame fun frame => reads_byte.bind Input.port fun port =>
    reads_input.bind Input.state fun state => ?_
  refine readsAs_pure (b := ⟨frame, port, state⟩) rfl fun i => ?_
  constructor
  · rintro ⟨⟨⟨-, rfl⟩, rfl⟩, rfl⟩
    rfl
  · rintro rfl
    exact ⟨⟨⟨Set.mem_univ _, rfl⟩, rfl⟩, rfl⟩

/-- A checksum message is read back. -/
theorem reads_checksum : Reads getChecksum fun c => putU64 c.frame ++ (putU32 c.crc ++ []) := by
  refine reads_u64.bind Checksum.frame fun frame => reads_u32.bind Checksum.crc fun crc => ?_
  refine readsAs_pure (b := ⟨frame, crc⟩) rfl fun c => ?_
  constructor
  · rintro ⟨⟨-, rfl⟩, rfl⟩
    rfl
  · rintro rfl
    exact ⟨⟨Set.mem_univ _, rfl⟩, rfl⟩

/-! ### Exactness -/

/-- The decoder accepts the encodings of the messages in `S`, whatever follows them, and nothing
else; it makes `out x` of the encoding of `x`, and reads only inside the buffer. -/
structure Exact {β γ : Type} (decode : Blob → Except OutOfBounds (Option γ)) (encode : β → Blob)
    (out : β → γ) (S : Set β) : Prop where
  inside : ∀ m, ∃ res, decode m = .ok res
  accepts : ∀ m c, decode m = .ok (some c) ↔ ∃ x ∈ S, out x = c ∧ ∃ t, m = encode x ++ t
  roundTrip : ∀ x ∈ S, decode (encode x) = .ok (some (out x))
  noPrefix : ∀ x ∈ S, ∀ m, m <+: encode x → m ≠ encode x → decode m = .ok none

/-- A message is decoded only as the type that its first byte names. -/
theorem decode_type {γ : Type} {type : MsgType} {fields : Reader γ} {m : Blob} {c : γ}
    (h : decode type fields m = .ok (some c)) : m.head? = some type.raw := by
  by_contra hne
  rw [decode, if_pos hne] at h
  exact nomatch h

/-- A message of the right type is decoded from its fields. -/
theorem decode_of_type {γ : Type} {type : MsgType} (fields : Reader γ) {m : Blob}
    (h : m.head? = some type.raw) :
    decode type fields m = (fields m 1).map (Option.map Prod.fst) :=
  if_neg (not_not.mpr h)

/-- A decoder is exact if the reader of its fields reads back what its encoder writes after the
type. -/
theorem exact_decode {β γ : Type} {type : MsgType} {fields : Reader γ} {enc : β → Blob}
    {out : β → γ} {S : Set β} (h : ReadsAs fields enc out S) {encode : β → Blob}
    (hencode : ∀ x, encode x = type.raw :: enc x) : Exact (decode type fields) encode out S := by
  have hinside : ∀ m, ∃ res, decode type fields m = .ok res := by
    intro m
    by_cases htype : m.head? = some type.raw
    · obtain ⟨tag, hm⟩ := List.head?_eq_some_iff.mp htype
      obtain ⟨res, hres⟩ := h.inside (m := m) (o := 1) (by rw [hm]; simp)
      exact ⟨_, by rw [decode_of_type fields htype, hres]; rfl⟩
    · exact ⟨none, if_pos htype⟩
  -- What the fields make of a buffer that begins with an encoding.
  have hread : ∀ x ∈ S, ∀ t, fields (encode x ++ t) 1 =
      .ok (some (out x, 1 + (enc x).length)) := by
    intro x hx t
    rw [hencode]
    exact (h.iff (by simp) _ _).mpr ⟨x, hx, rfl, List.prefix_append _ _, rfl⟩
  have haccepts : ∀ m c, decode type fields m = .ok (some c) ↔
      ∃ x ∈ S, out x = c ∧ ∃ t, m = encode x ++ t := by
    intro m c
    constructor
    · intro hm
      obtain ⟨rest, rfl⟩ := List.head?_eq_some_iff.mp (decode_type hm)
      obtain ⟨res, hres⟩ := h.inside (m := type.raw :: rest) (o := 1) (by simp)
      rw [decode_of_type fields rfl, hres] at hm
      cases res with
      | none => exact nomatch hm
      | some v =>
        obtain ⟨x, hx, hout, ⟨t, ht⟩, -⟩ := (h.iff (by simp) v.1 v.2).mp hres
        refine ⟨x, hx, hout.trans (Option.some.inj (Except.ok.inj hm)), t, ?_⟩
        rw [hencode, List.cons_append, ht]
        rfl
    · rintro ⟨x, hx, rfl, t, rfl⟩
      have htype : (encode x ++ t).head? = some type.raw := by rw [hencode]; rfl
      rw [decode_of_type fields htype, hread x hx t]
      rfl
  refine ⟨hinside, haccepts, fun x hx => ?_, fun x hx m hpre hne => ?_⟩
  · exact (haccepts _ _).mpr ⟨x, hx, rfl, [], (List.append_nil _).symm⟩
  · obtain ⟨res, hres⟩ := hinside m
    cases res with
    | none => exact hres
    | some c =>
      -- Both messages are read from the longer buffer, and end at the same offset there.
      obtain ⟨y, hy, rfl, t, rfl⟩ := (haccepts m c).mp hres
      obtain ⟨s, hs⟩ := hpre
      have hlong := hread x hx []
      rw [List.append_nil, ← hs, List.append_assoc, hread y hy] at hlong
      have hlength : (encode y).length = (encode x).length := by
        have := (Prod.mk.inj (Option.some.inj (Except.ok.inj hlong))).2
        rw [hencode, hencode, List.length_cons, List.length_cons]
        omega
      have hzero : (t ++ s).length = 0 := by
        have := congrArg List.length hs
        rw [List.append_assoc, List.length_append] at this
        omega
      have hnil := List.append_eq_nil_iff.mp (List.length_eq_zero_iff.mp hzero)
      rw [hnil.2, List.append_nil] at hs
      exact absurd hs hne

/-- The decoder of greetings is exact, for names that are cut at their first NUL. -/
theorem exact_hello : Exact decodeHello encodeHello Hello.terminated Set.univ :=
  exact_decode readsAs_hello fun h => by simp [encodeHello]

/-- The decoder of state messages is exact on the blobs whose length fits 32 bits. -/
theorem exact_stateSync : Exact decodeStateSync encodeStateSync id {s | s.Fits} :=
  exact_decode readsAs_stateSync fun s => by simp [encodeStateSync]

/-- The decoder of input messages is exact. -/
theorem exact_input : Exact decodeInput encodeInput id Set.univ :=
  exact_decode reads_inputMessage fun i => by simp [encodeInput]

/-- The decoder of checksum messages is exact. -/
theorem exact_checksum : Exact decodeChecksum encodeChecksum id Set.univ :=
  exact_decode reads_checksum fun c => by simp [encodeChecksum]

/-- The decoder for messages of a type accepts the buffer. -/
def Accepted (m : Blob) : MsgType → Prop
  | .hello => ∃ x, decodeHello m = .ok (some x)
  | .stateSync => ∃ x, decodeStateSync m = .ok (some x)
  | .input => ∃ x, decodeInput m = .ok (some x)
  | .checksum => ∃ x, decodeChecksum m = .ok (some x)
  | .other _ => False

/-- What a decoder accepts is peeked at as the type of the decoder. -/
theorem Accepted.peekType {m : Blob} {type : MsgType} (h : Accepted m type) :
    peekType m = some type := by
  have hnamed : ∀ t : MsgType, m.head? = some t.raw → Wire.peekType m = some (.ofRaw t.raw) :=
    fun t ht => by rw [Wire.peekType, ht]; rfl
  cases type with
  | hello => exact h.elim fun _ hx => hnamed .hello (decode_type hx)
  | stateSync => exact h.elim fun _ hx => hnamed .stateSync (decode_type hx)
  | input => exact h.elim fun _ hx => hnamed .input (decode_type hx)
  | checksum => exact h.elim fun _ hx => hnamed .checksum (decode_type hx)
  | other raw => exact h.elim

/-- Each decoder accepts exactly what its encoder writes, and a buffer that one of them accepts is
accepted by no other, its type being the one `peekType` names. -/
theorem wire_format :
    (Exact decodeHello encodeHello Hello.terminated Set.univ ∧
      Exact decodeStateSync encodeStateSync id {s | s.Fits} ∧
      Exact decodeInput encodeInput id Set.univ ∧
      Exact decodeChecksum encodeChecksum id Set.univ) ∧
      ∀ (m : Blob) (type : MsgType), Accepted m type →
        peekType m = some type ∧ ∀ type', Accepted m type' → type' = type := by
  refine ⟨⟨exact_hello, exact_stateSync, exact_input, exact_checksum⟩, fun m type h =>
    ⟨h.peekType, fun type' h' => ?_⟩⟩
  exact Option.some.inj (h'.peekType.symm.trans h.peekType)

/-! ### What a session receives -/

/-- An input as a session sends it. -/
def Input.ofMessage (i : RetroPark.Net.Input) : Input :=
  { frame := UInt64.ofNat i.frame, port := i.port, state := i.state }

/-- A checksum as a session sends it. -/
def Checksum.ofMessage (c : RetroPark.Net.Checksum) : Checksum :=
  { frame := UInt64.ofNat c.frame, crc := c.crc }

end Wire

namespace Message

open Wire

/-- The buffer a running session sends. -/
def bytes : Message → Blob
  | input i => encodeInput (.ofMessage i)
  | checksum c => encodeChecksum (.ofMessage c)
  | other => []

/-- What a running session makes of a buffer it has received: a message of another type and one that
is malformed are skipped. -/
def ofBytes (m : Blob) : Except OutOfBounds Message :=
  match peekType m with
  | some .input => (decodeInput m).map fun
      | some i => input { frame := i.frame.toNat, port := i.port, state := i.state }
      | none => other
  | some .checksum => (decodeChecksum m).map fun
      | some c => checksum { frame := c.frame.toNat, crc := c.crc }
      | none => other
  | _ => .ok other

/-- The frame numbers that fit the field of a message. -/
def Fits : Message → Prop
  | input i => i.frame < 2 ^ 64
  | checksum c => c.frame < 2 ^ 64
  | other => True

/-- A session receives the message the other side has sent. -/
theorem ofBytes_bytes {m : Message} (h : m.Fits) : ofBytes m.bytes = .ok m := by
  cases m with
  | input i =>
    have hround := exact_input.roundTrip (.ofMessage i) (Set.mem_univ _)
    have hpeek : peekType (encodeInput (.ofMessage i)) = some .input :=
      Accepted.peekType (show Accepted _ .input from ⟨_, hround⟩)
    rw [bytes, ofBytes, hpeek]
    show (decodeInput _).map _ = _
    rw [hround]
    show Except.ok (input ⟨(UInt64.ofNat i.frame).toNat, i.port, i.state⟩) = _
    -- The frame fits its field.
    rw [UInt64.toNat_ofNat_of_lt' h]
  | checksum c =>
    have hround := exact_checksum.roundTrip (.ofMessage c) (Set.mem_univ _)
    have hpeek : peekType (encodeChecksum (.ofMessage c)) = some .checksum :=
      Accepted.peekType (show Accepted _ .checksum from ⟨_, hround⟩)
    rw [bytes, ofBytes, hpeek]
    show (decodeChecksum _).map _ = _
    rw [hround]
    show Except.ok (checksum ⟨(UInt64.ofNat c.frame).toNat, c.crc⟩) = _
    rw [UInt64.toNat_ofNat_of_lt' h]
  | other => rfl

end Message

end RetroPark.Net
