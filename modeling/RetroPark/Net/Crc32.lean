import RetroPark.Abi

/-!
# The savestate digest

`crc32` of `net/Crc32.h`: the table of 256 remainders, filled bit by bit, and the loop that folds
a buffer into the register one byte at a time.
-/

namespace RetroPark.Net

/-- The reflected polynomial. -/
def crcPolynomial : UInt32 := 0xEDB88320

/-- One bit of a table entry. -/
def crcShift (c : UInt32) : UInt32 :=
  if c &&& 1 ≠ 0 then crcPolynomial ^^^ (c >>> 1) else c >>> 1

/-- `table[i]`: eight bits of `i` shifted out. -/
def crcTableEntry (i : UInt32) : UInt32 := Nat.repeat crcShift 8 i

/-- The table `crc32` fills on its first call. -/
def crcTable : Vector UInt32 256 := Vector.ofFn fun i => crcTableEntry (UInt32.ofNat i)

theorem crcIndex_lt (x : UInt32) : (x &&& 0xFF).toNat < 256 := by
  rw [UInt32.toNat_and]
  exact Nat.lt_of_le_of_lt Nat.and_le_right (by decide)

/-- One byte of the loop. -/
def crcByte (crc : UInt32) (b : UInt8) : UInt32 :=
  crcTable.get ⟨((crc ^^^ b.toUInt32) &&& 0xFF).toNat, crcIndex_lt _⟩ ^^^ (crc >>> 8)

/-- `crc32`. -/
def crc32 (data : Blob) : UInt32 := data.foldl crcByte 0xFFFFFFFF ^^^ 0xFFFFFFFF

end RetroPark.Net
