import RetroPark.Net.Crc32
import RetroPark.Support.ShiftRegister

/-!
# The digest, bit by bit

The reflected CRC-32 is defined on the bits of a message, of each byte the lowest bit first: a
register takes them in one after another. `crc32` takes a byte at a time, from its table.

* `crc32Serial` is the definition, and `crc32_eq_serial` says that `crc32` computes it;
* `crc32_detects_burst` tells buffers apart that differ within 32 consecutive bits.
-/

namespace RetroPark.Net

open ShiftRegister

/-- The bits of a byte, the lowest one first. -/
def byteBits (b : UInt8) : List Bool := (List.range 8).map b.toBitVec.getLsbD

/-- The bits of a buffer in the order in which the CRC takes them in. -/
def messageBits (data : Blob) : List Bool := data.flatMap byteBits

/-- The reflected CRC-32 with the polynomial `0xEDB88320`, bit by bit. -/
def crc32Serial (data : Blob) : UInt32 :=
  ⟨(messageBits data).foldl (feed 0xEDB88320) 0xFFFFFFFF ^^^ 0xFFFFFFFF⟩

/-- A byte has eight bits. -/
@[simp]
theorem length_byteBits (b : UInt8) : (byteBits b).length = 8 := by
  simp [byteBits]

/-- The bits of a byte make up the byte. -/
theorem word_byteBits (b : UInt8) : (word (byteBits b) : BitVec 32) = b.toUInt32.toBitVec := by
  refine BitVec.eq_of_getLsbD_eq fun i hi => ?_
  by_cases hbyte : i < 8
  · simp [byteBits, hi, hbyte]
  · have hhigh : b.toBitVec.getLsbD i = false := BitVec.getLsbD_of_ge _ i (Nat.le_of_not_lt hbyte)
    simp [byteBits, hbyte, hhigh]

/-! ### The table -/

/-- The test of the code is that of the lowest bit. -/
theorem low_ne_zero_iff (c : UInt32) : c &&& 1 ≠ 0 ↔ c.toBitVec.getLsbD 0 = true := by
  rw [Ne, ← UInt32.toBitVec_inj]
  have hlow : (c &&& 1).toBitVec = (BitVec.ofBool (c.toBitVec.getLsbD 0)).setWidth 32 := by
    rw [UInt32.toBitVec_and]
    exact BitVec.and_one_eq_setWidth_ofBool_getLsbD
  rw [hlow]
  cases c.toBitVec.getLsbD 0 <;> decide

/-- A bit step of the code is a shift of the register. -/
theorem crcShift_toBitVec (c : UInt32) : (crcShift c).toBitVec = shift 0xEDB88320 c.toBitVec := by
  unfold crcShift shift
  simp only [low_ne_zero_iff]
  split_ifs <;> rfl

/-- An entry of the table is eight shifts of its index. -/
theorem crcTableEntry_toBitVec (i : UInt32) :
    (crcTableEntry i).toBitVec = (shift 0xEDB88320)^[8] i.toBitVec := by
  have hrepeat : ∀ n, (Nat.repeat crcShift n i).toBitVec = (shift 0xEDB88320)^[n] i.toBitVec := by
    intro n
    induction n with
    | zero => rfl
    | succ n ih => rw [Nat.repeat, crcShift_toBitVec, ih, Function.iterate_succ_apply']
  exact hrepeat 8

/-- The table has its entries in order. -/
theorem crcTable_get (x : UInt32) :
    crcTable.get ⟨(x &&& 0xFF).toNat, crcIndex_lt x⟩ = crcTableEntry (x &&& 0xFF) := by
  have hindex := crcIndex_lt x
  change (Vector.ofFn fun i : Fin 256 => crcTableEntry (UInt32.ofNat i))[(x &&& 0xFF).toNat] = _
  rw [Vector.getElem_ofFn, UInt32.ofNat_toNat]

/-- The entry of the table and the shift are the eight steps of the register. -/
theorem crcByte_toBitVec (crc : UInt32) (b : UInt8) :
    (crcByte crc b).toBitVec = (byteBits b).foldl (feed 0xEDB88320) crc.toBitVec := by
  have hmask : ∀ i < 32, (0xFF : BitVec 32).getLsbD i = decide (i < 8) := by decide
  -- A byte has no bits above the eight that leave the register.
  have hbyte : b.toUInt32.toBitVec >>> 8 = 0#32 := by
    refine BitVec.eq_of_getLsbD_eq fun i _ => ?_
    rw [BitVec.getLsbD_ushiftRight]
    simp
  have hrest : (crc.toBitVec ^^^ b.toUInt32.toBitVec) >>> 8 = (crc >>> 8).toBitVec := by
    rw [BitVec.ushiftRight_xor_distrib, hbyte, BitVec.xor_zero]
    rfl
  unfold crcByte
  rw [foldl_feed_eq _ _ (by simp), length_byteBits, word_byteBits,
    iterate_shift_split _ hmask, hrest,
    crcTable_get, UInt32.toBitVec_xor, crcTableEntry_toBitVec]
  rfl

/-- `crc32` is the reflected CRC-32 with the polynomial `0xEDB88320`. -/
theorem crc32_eq_serial (data : Blob) : crc32 data = crc32Serial data := by
  have hloop : ∀ crc : UInt32, (data.foldl crcByte crc).toBitVec =
      (messageBits data).foldl (feed 0xEDB88320) crc.toBitVec := by
    unfold messageBits
    induction data with
    | nil => exact fun _ => rfl
    | cons b data ih =>
      intro crc
      rw [List.foldl_cons, ih, crcByte_toBitVec, List.flatMap_cons, List.foldl_append]
  apply UInt32.toBitVec_inj.mp
  rw [crc32, UInt32.toBitVec_xor, hloop]
  rfl

/-! ### Buffers that differ -/

/-- A byte is known by its bits. -/
theorem byteBits_injective : Function.Injective byteBits := by
  intro b b' h
  have hword : b.toUInt32.toBitVec = b'.toUInt32.toBitVec := by
    rw [← word_byteBits, h, word_byteBits]
  have hnat : b.toNat = b'.toNat := by simpa using congrArg BitVec.toNat hword
  exact UInt8.toNat_inj.mp hnat

/-- A message has eight bits for each byte. -/
theorem length_messageBits (data : Blob) : (messageBits data).length = 8 * data.length := by
  induction data with
  | nil => rfl
  | cons b data ih =>
    change (byteBits b ++ messageBits data).length = 8 * (data.length + 1)
    rw [List.length_append, length_byteBits, ih]
    omega

/-- A message is known by its bits and its length. -/
theorem messageBits_injective {data data' : Blob} (hlen : data.length = data'.length)
    (h : messageBits data = messageBits data') : data = data' := by
  induction data generalizing data' with
  | nil => exact (List.length_eq_zero_iff.mp hlen.symm).symm
  | cons b data ih =>
    cases data' with
    | nil => exact nomatch hlen
    | cons b' data' =>
      obtain ⟨hbyte, hrest⟩ := List.append_inj h (by simp)
      rw [byteBits_injective hbyte, ih (Nat.succ.inj hlen) hrest]

/-- Two buffers of the same length that differ within 32 consecutive bits have different digests,
and so have two buffers of four bytes that differ at all. -/
theorem crc32_detects_burst {data data' : Blob} (hlen : data.length = data'.length)
    (hne : data ≠ data') :
    (∀ k, DifferWithin k 32 (messageBits data) (messageBits data') → crc32 data ≠ crc32 data') ∧
      (data.length = 4 → crc32 data ≠ crc32 data') := by
  have hbits : (messageBits data).length = (messageBits data').length := by
    rw [length_messageBits, length_messageBits, hlen]
  have hdiffer : messageBits data ≠ messageBits data' := fun h => hne (messageBits_injective hlen h)
  have hburst : ∀ k, DifferWithin k 32 (messageBits data) (messageBits data') →
      crc32 data ≠ crc32 data' := by
    intro k hwindow h
    rw [crc32_eq_serial, crc32_eq_serial, ← UInt32.toBitVec_inj] at h
    exact foldl_feed_ne rfl 0xFFFFFFFF hbits hdiffer hwindow ((BitVec.xor_left_inj _).mp h)
  refine ⟨hburst, fun hfour => hburst 0 (differWithin_iff.mpr ⟨rfl, ?_⟩)⟩
  rw [List.drop_eq_nil_of_le (by simp [length_messageBits, hfour]),
    List.drop_eq_nil_of_le (by simp [length_messageBits, ← hlen, hfour])]

/-- Two messages that differ at both ends of a window of 32 bits, and two of four bytes. -/
theorem crc32_detects_burst_frames :
    crc32 [0x20, 0x00, 0x00, 0x00, 0x10, 0x07] ≠ crc32 [0x00, 0x00, 0x00, 0x00, 0x00, 0x07] ∧
      crc32 [0x01, 0x00, 0x00, 0x80] ≠ crc32 [0x00, 0x00, 0x00, 0x80] :=
  ⟨(crc32_detects_burst (by rfl) (by decide)).1 5 (by decide +kernel),
    (crc32_detects_burst (by rfl) (by decide)).2 (by rfl)⟩

end RetroPark.Net
