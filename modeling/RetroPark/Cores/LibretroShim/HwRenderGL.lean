import Mathlib.Data.UInt
import RetroPark.Abi
import RetroPark.Support.Strided

/-!
# The framebuffer of a hardware-rendered core

`HwRenderGL` is the framebuffer object that a libretro core draws into: a texture of the core's
largest geometry, whose rows OpenGL counts from the bottom. A core that draws with the origin at the
top has its first row in the bottom row of the texture.

`readFrame` reads the lower left part of it back and turns it upside down if the core draws with the
origin at the bottom; `readFrame_row` says which row of the texture each row of the result is.
-/

namespace RetroPark.LibretroShim

/-- `rp::HwRenderGL`, with the contents of its texture. The texture has a size that OpenGL can
express. -/
structure HwRenderGL where
  maxW : UInt32
  maxH : UInt32
  /-- `blo_`: the core's origin is at the bottom. -/
  blo : Bool
  /-- The texels, the bottom row first, four bytes each. -/
  color : Blob
  maxW_pos : 0 < maxW.toNat
  maxH_pos : 0 < maxH.toNat
  maxW_lt : maxW.toNat < 2 ^ 31
  maxH_lt : maxH.toNat < 2 ^ 31
  color_length : color.length = maxH.toNat * (maxW.toNat * 4)

/-- A frame that was read back. -/
structure Readback where
  width : UInt32
  height : UInt32
  pitch : UInt32
  data : Blob

namespace HwRenderGL

/-- The size of the texture, which is at least one. -/
def extent (size : UInt32) : UInt32 := if size ≠ 0 then size else 1

/-- The texture is not empty. -/
theorem extent_pos (size : UInt32) : 0 < (extent size).toNat := by
  unfold extent
  split_ifs with h
  · exact Nat.pos_of_ne_zero fun hzero => h (UInt32.toNat_inj.mp hzero)
  · decide

/-- The texture has a size that OpenGL can express. -/
theorem extent_lt {size : UInt32} (h : size.toNat < 2 ^ 31) : (extent size).toNat < 2 ^ 31 := by
  unfold extent
  split_ifs
  · exact h
  · decide

/-- `HwRenderGL::setup`, for a geometry that OpenGL can express. -/
def setup (blo : Bool) (maxW maxH : UInt32) (hw : maxW.toNat < 2 ^ 31) (hh : maxH.toNat < 2 ^ 31) :
    HwRenderGL where
  maxW := extent maxW
  maxH := extent maxH
  blo := blo
  color := List.replicate ((extent maxH).toNat * ((extent maxW).toNat * 4)) 0
  maxW_pos := extent_pos maxW
  maxH_pos := extent_pos maxH
  maxW_lt := extent_lt hw
  maxH_lt := extent_lt hh
  color_length := List.length_replicate

variable (hw : HwRenderGL)

/-- The bytes of a row of the texture. -/
def stride : ℕ := hw.maxW.toNat * 4

/-- What `glReadPixels` writes for the lower left `width` × `height` texels, without padding. -/
def readPixels (width height : ℕ) : Blob :=
  Strided.copy hw.color (· * hw.stride) (width * 4)
    (List.replicate (height * (width * 4)) 0) (width * 4)
    height

/-- Rows in the opposite order. -/
def flipRows (read : Blob) (row height : ℕ) : Blob :=
  Strided.copy read (fun y => (height - 1 - y) * row) row
    (List.replicate (height * row) 0) row height

/-- `HwRenderGL::read_frame`. -/
def readFrame (w h : UInt32) : Readback :=
  let w := if w > hw.maxW then hw.maxW else w
  let h := if h > hw.maxH then hw.maxH else h
  let read := hw.readPixels w.toNat h.toNat
  { width := w
    height := h
    pitch := w * 4
    data := if !hw.blo then read else flipRows read (w.toNat * 4) h.toNat }

/-- The row of the texture that row `y` of a frame of `height` rows is read from. -/
def fboRow (height y : ℕ) : ℕ := if hw.blo then height - 1 - y else y

variable {hw} {w h : UInt32}

/-- The size of the frame is that of the texture at most. -/
theorem clamp_toNat (n limit : UInt32) :
    (if n > limit then limit else n).toNat = min n.toNat limit.toNat := by
  split_ifs with hlarge
  · have hlt : limit.toNat < n.toNat := UInt32.lt_iff_toNat_lt.mp hlarge
    omega
  · have hle : n.toNat ≤ limit.toNat := Nat.not_lt.mp (mt UInt32.lt_iff_toNat_lt.mpr hlarge)
    omega

/-- The frame is no wider than the texture. -/
theorem readFrame_width : (hw.readFrame w h).width.toNat = min w.toNat hw.maxW.toNat :=
  clamp_toNat _ _

/-- The frame is no higher than the texture. -/
theorem readFrame_height : (hw.readFrame w h).height.toNat = min h.toNat hw.maxH.toNat :=
  clamp_toNat _ _

/-- A buffer of rows without padding has room for them. -/
theorem holds_replicate (height n : ℕ) :
    Strided.Holds (List.replicate (height * n) (0 : UInt8)) n n height := by
  intro y hy
  show y * n + n ≤ _
  rw [List.length_replicate, ← Nat.succ_mul]
  exact Nat.mul_le_mul_right n hy

/-- The last row comes first. -/
theorem slice_flipRows {read : Blob} {row height y : ℕ} (hlength : read.length = height * row)
    (hy : y < height) :
    Strided.slice (flipRows read row height) (y * row) row =
      Strided.slice read ((height - 1 - y) * row) row := by
  have hfits : Strided.Fits read (fun y => (height - 1 - y) * row) row height := by
    intro i hi
    have hrow := Nat.mul_le_mul_right row (by omega : height - 1 - i + 1 ≤ height)
    rw [Nat.succ_mul] at hrow
    rwa [hlength]
  exact Strided.slice_copy hfits (holds_replicate _ _) le_rfl hy

section Crop

variable {width height : ℕ} (hwidth : width ≤ hw.maxW.toNat) (hheight : height ≤ hw.maxH.toNat)

include hwidth hheight

/-- The texture has the rows of every frame that is no larger than it is. -/
theorem fits_color : Strided.Fits hw.color (· * hw.stride) (width * 4) height := by
  intro y hy
  show y * hw.stride + width * 4 ≤ hw.color.length
  have hrow : (y + 1) * hw.stride ≤ hw.maxH.toNat * hw.stride := Nat.mul_le_mul_right _ (by omega)
  have hcrop : width * 4 ≤ hw.stride := Nat.mul_le_mul_right 4 hwidth
  rw [hw.color_length]
  rw [Nat.succ_mul] at hrow
  exact le_trans (Nat.add_le_add_left hcrop _) hrow

/-- The pixels that are read fill the frame. -/
theorem length_readPixels : (hw.readPixels width height).length = height * (width * 4) := by
  rw [readPixels, Strided.length_copy (fits_color hwidth hheight) (holds_replicate _ _),
    List.length_replicate]

/-- A row read back is the start of a row of the texture. -/
theorem slice_readPixels {y : ℕ} (hy : y < height) :
    Strided.slice (hw.readPixels width height) (y * (width * 4)) (width * 4) =
      Strided.slice hw.color (y * hw.stride) (width * 4) :=
  Strided.slice_copy (fits_color hwidth hheight) (holds_replicate _ _) le_rfl hy

end Crop

/-- Each row of the frame is the start of the row of the texture that `fboRow` names. -/
theorem readFrame_row {y : ℕ} (hy : y < (hw.readFrame w h).height.toNat) :
    Strided.slice (hw.readFrame w h).data (y * ((hw.readFrame w h).width.toNat * 4))
        ((hw.readFrame w h).width.toNat * 4) =
      Strided.slice hw.color (hw.fboRow (hw.readFrame w h).height.toNat y * hw.stride)
        ((hw.readFrame w h).width.toNat * 4) := by
  have hwidth : (hw.readFrame w h).width.toNat ≤ hw.maxW.toNat := by
    rw [readFrame_width]
    exact Nat.min_le_right _ _
  have hheight : (hw.readFrame w h).height.toNat ≤ hw.maxH.toNat := by
    rw [readFrame_height]
    exact Nat.min_le_right _ _
  unfold fboRow
  -- A bottom-left origin has the rows flipped after they are read.
  cases hblo : hw.blo with
  | false =>
    have hdata : (hw.readFrame w h).data = hw.readPixels (hw.readFrame w h).width.toNat
        (hw.readFrame w h).height.toNat := by
      simp [readFrame, hblo]
    rw [hdata]
    exact slice_readPixels hwidth hheight hy
  | true =>
    have hdata : (hw.readFrame w h).data = flipRows (hw.readPixels (hw.readFrame w h).width.toNat
        (hw.readFrame w h).height.toNat) ((hw.readFrame w h).width.toNat * 4)
        (hw.readFrame w h).height.toNat := by
      simp [readFrame, hblo]
    rw [hdata, slice_flipRows (length_readPixels hwidth hheight) hy]
    exact slice_readPixels hwidth hheight (by omega)

end HwRenderGL

end RetroPark.LibretroShim
