import Mathlib.Data.UInt
import RetroPark.Render.Gl.GLBackend
import RetroPark.Runtime.Runtime
import RetroPark.Support.Strided

/-!
# Rows of driven frames

The D3D11 and Vulkan backends copy the rows of a driven frame with `copy_rgba8_rows`, whose strides
are in bytes. The OpenGL backend leaves the rows where they are and tells the driver how many pixels
they are apart.

* `accepted_fits_iff`: the rows of a frame that `driven_frame_valid` accepts fit the pitch unless
  four times the width wraps around;
* `sameImage_iff`: both ways upload the same image when the pitch is a whole number of pixels, and
  for frames of one row.
-/

namespace RetroPark

/-- The bytes of a row, `width * 4u`. -/
def rowBytes (width : UInt32) : UInt32 := width * 4

/-- `copy_rgba8_rows`, with the buffer it leaves. -/
def copyRgba8Rows (src : Blob) (width height srcPitch : UInt32) (dst : Blob)
    (dstPitch : UInt32) : Blob :=
  if width = 0 ∨ height = 0 then dst
  else
    Strided.copy src (· * srcPitch.toNat) (rowBytes width).toNat dst dstPitch.toNat height.toNat

variable {width height pitch maxW maxH : UInt32}

theorem rowBytes_toNat (width : UInt32) : (rowBytes width).toNat = 4 * width.toNat % 2 ^ 32 := by
  rw [rowBytes, UInt32.toNat_mul, Nat.mul_comm]
  rfl

theorem rowBytes_toNat_of_lt (h : width.toNat < 2 ^ 30) :
    (rowBytes width).toNat = 4 * width.toNat := by
  rw [rowBytes_toNat, Nat.mod_eq_of_lt (by omega)]

theorem drivenFrameValid_iff :
    Runtime.drivenFrameValid width height pitch maxW maxH = true ↔
      width ≠ 0 ∧ height ≠ 0 ∧ width ≤ maxW ∧ height ≤ maxH ∧ rowBytes width ≤ pitch := by
  unfold Runtime.drivenFrameValid rowBytes
  split_ifs with hempty hlarge
  · simp only [Bool.or_eq_true, decide_eq_true_eq] at hempty
    refine iff_of_false not_false ?_
    rintro ⟨hw, hh, -⟩
    exact hempty.elim hw hh
  · simp only [Bool.or_eq_true, decide_eq_true_eq] at hlarge
    refine iff_of_false not_false ?_
    rintro ⟨-, -, hw, hh, -⟩
    exact hlarge.elim (fun h => absurd hw (UInt32.not_le.mpr h)) fun h =>
      absurd hh (UInt32.not_le.mpr h)
  · simp only [Bool.or_eq_true, decide_eq_true_eq, not_or] at hempty hlarge
    simp [hempty, UInt32.not_lt.mp hlarge.1, UInt32.not_lt.mp hlarge.2]

/-! ### Rows that fit -/

/-- An accepted frame has rows of four bytes a pixel, and each lies within its `pitch` bytes. -/
def FitsRows (width height pitch maxW maxH : UInt32) : Prop :=
  Runtime.drivenFrameValid width height pitch maxW maxH = true →
    4 * width.toNat ≤ pitch.toNat ∧ (rowBytes width).toNat = 4 * width.toNat ∧
      ∀ y < height.toNat, y * pitch.toNat + (rowBytes width).toNat ≤ (y + 1) * pitch.toNat

/-- The rows of an accepted frame fit if the width is below `2 ^ 30`. A wider frame has no pitch
that its rows would fit, so that it may not be accepted at all. -/
theorem accepted_fits_iff (width height pitch maxW maxH : UInt32) :
    FitsRows width height pitch maxW maxH ↔
      width.toNat < 2 ^ 30 ∨ height = 0 ∨ maxW < width ∨ maxH < height ∨
        pitch < rowBytes width := by
  constructor
  · intro hfits
    by_contra hcond
    simp only [not_or, UInt32.not_lt] at hcond
    obtain ⟨hwide, hheight, hmaxW, hmaxH, hpitch⟩ := hcond
    have hwidth : width ≠ 0 := by
      rintro rfl
      exact hwide (by decide)
    -- Such a frame is accepted, and then its pitch would have to be `2 ^ 32` or more.
    have hrow := (hfits (drivenFrameValid_iff.mpr ⟨hwidth, hheight, hmaxW, hmaxH, hpitch⟩)).1
    have hword := pitch.toNat_lt
    omega
  · intro hcond hvalid
    obtain ⟨-, hheight, hmaxW, hmaxH, hpitch⟩ := drivenFrameValid_iff.mp hvalid
    have hnarrow : width.toNat < 2 ^ 30 := by
      rcases hcond with h | h | h | h | h
      · exact h
      · exact absurd h hheight
      · exact absurd hmaxW (UInt32.not_le.mpr h)
      · exact absurd hmaxH (UInt32.not_le.mpr h)
      · exact absurd hpitch (UInt32.not_le.mpr h)
    have hbytes := rowBytes_toNat_of_lt hnarrow
    have hfit : 4 * width.toNat ≤ pitch.toNat := hbytes ▸ UInt32.le_iff_toNat_le.mp hpitch
    refine ⟨hfit, hbytes, fun y _ => ?_⟩
    rw [hbytes, Nat.add_mul, Nat.one_mul]
    omega

/-- A core that declares a width of `2 ^ 30` has a frame without bytes accepted. -/
theorem wide_frame_accepted :
    Runtime.drivenFrameValid 1073741824 1 0 1073741824 1 = true ∧ rowBytes 1073741824 = 0 ∧
      ¬FitsRows 1073741824 1 0 1073741824 1 := by
  refine ⟨by decide, by decide, fun h => ?_⟩
  exact absurd (h (by decide)).1 (by decide)

/-! ### One image in every backend -/

open Gl (GLBackend rows)

/-- The image that the OpenGL backend uploads is the one that is copied into a buffer of another
stride, for every buffer that holds the frame, and does not depend on the bytes between the rows. -/
structure SameImage (width height pitch : UInt32) : Prop where
  copied : ∀ (b : GLBackend) (src dst : Blob) (dstPitch : UInt32),
    Strided.Holds src pitch.toNat (width.toNat * 4) height.toNat →
    Strided.Holds dst dstPitch.toNat (width.toNat * 4) height.toNat →
    width.toNat * 4 ≤ dstPitch.toNat →
      (b.upload src width height pitch).frameTex =
        rows (copyRgba8Rows src width height pitch dst dstPitch) width.toNat height.toNat
          dstPitch.toNat
  padding : ∀ (b : GLBackend) (src src' : Blob),
    rows src width.toNat height.toNat pitch.toNat = rows src' width.toNat height.toNat pitch.toNat →
      (b.upload src width height pitch).frameTex = (b.upload src' width height pitch).frameTex

theorem rows_getElem? (data : Blob) {w h y : ℕ} (stride : ℕ) (hy : y < h) :
    (rows data w h stride)[y]? = some (Strided.slice data (y * stride) (w * 4)) := by
  simp [rows, Strided.slice, hy]

theorem rows_eq_iff {data data' : Blob} {w h stride stride' : ℕ} :
    rows data w h stride = rows data' w h stride' ↔
      ∀ y < h, Strided.slice data (y * stride) (w * 4) =
        Strided.slice data' (y * stride') (w * 4) := by
  simp [rows, Strided.slice]

/-- The copied image has the rows of the frame. -/
theorem rows_copyRgba8Rows {src dst : Blob} {dstPitch : UInt32} (hnarrow : width.toNat < 2 ^ 30)
    (hsrc : Strided.Holds src pitch.toNat (width.toNat * 4) height.toNat)
    (hdst : Strided.Holds dst dstPitch.toNat (width.toNat * 4) height.toNat)
    (hpitch : width.toNat * 4 ≤ dstPitch.toNat) :
    rows (copyRgba8Rows src width height pitch dst dstPitch) width.toNat height.toNat
      dstPitch.toNat =
      rows src width.toNat height.toNat pitch.toNat := by
  apply rows_eq_iff.mpr
  intro y hy
  unfold copyRgba8Rows
  split_ifs with hempty
  · -- There are no rows, or they have no bytes.
    rcases hempty with rfl | rfl
    · simp [Strided.slice]
    · exact absurd hy (Nat.not_lt_zero y)
  · rw [rowBytes_toNat_of_lt hnarrow, Nat.mul_comm 4]
    exact Strided.slice_copy hsrc hdst hpitch hy

/-- The rows of the upload are a whole number of pixels apart. -/
theorem upload_frameTex (b : GLBackend) (data : Blob) (hpitch : 4 ≤ pitch.toNat) :
    (b.upload data width height pitch).frameTex =
      rows data width.toNat height.toNat (pitch.toNat / 4 * 4) := by
  have hdiv : (pitch / 4).toNat = pitch.toNat / 4 := by simp
  have hrow : pitch / 4 ≠ 0 := by
    intro h
    have hzero := congrArg UInt32.toNat h
    rw [hdiv, UInt32.toNat_zero] at hzero
    omega
  simp only [GLBackend.upload, if_neg hrow, hdiv]
  split_ifs <;> rfl

/-- The first row starts where the frame starts, however far apart the rows are. -/
theorem rows_eq_of_whole (data : Blob) (h : pitch % 4 = 0 ∨ height = 1) :
    rows data width.toNat height.toNat (pitch.toNat / 4 * 4) =
      rows data width.toNat height.toNat pitch.toNat := by
  rcases h with hpitch | rfl
  · have hmod : pitch.toNat % 4 = 0 := by simpa using congrArg UInt32.toNat hpitch
    have hstride : pitch.toNat / 4 * 4 = pitch.toNat := by omega
    rw [hstride]
  · apply rows_eq_iff.mpr
    intro y hy
    obtain rfl : y = 0 := by
      have hy' : y < 1 := hy
      omega
    rw [Nat.zero_mul, Nat.zero_mul]

/-- A frame whose second row starts with a one, and no other one in it. -/
def secondRow (pitch room : ℕ) : Blob := List.replicate pitch 0 ++ 1 :: List.replicate room 0

theorem SameImage.whole (hsame : SameImage width height pitch) (hnarrow : width.toNat < 2 ^ 30)
    (hwidth : width ≠ 0) (hheight : height ≠ 0) (hpitch : width.toNat * 4 ≤ pitch.toNat) :
    pitch % 4 = 0 ∨ height = 1 := by
  by_contra hcond
  obtain ⟨hmod, hone⟩ := not_or.mp hcond
  have hw : 0 < width.toNat := Nat.pos_of_ne_zero fun h => hwidth (UInt32.toNat_inj.mp h)
  have hh : 2 ≤ height.toNat := by
    have h0 : height.toNat ≠ 0 := fun h => hheight (UInt32.toNat_inj.mp h)
    have h1 : height.toNat ≠ 1 := fun h => hone (UInt32.toNat_inj.mp h)
    omega
  have hmod' : pitch.toNat % 4 ≠ 0 := fun h => hmod (UInt32.toNat_inj.mp (by simpa using h))
  have hsrc :
    Strided.Holds (secondRow pitch.toNat ((height.toNat - 1) * pitch.toNat + width.toNat * 4))
      pitch.toNat (width.toNat * 4) height.toNat := by
    apply Strided.holds_of_last
    simp only [secondRow, List.length_append, List.length_cons, List.length_replicate]
    omega
  have hdst : Strided.Holds
      (List.replicate ((height.toNat - 1) * (rowBytes width).toNat + width.toNat * 4) (0 : UInt8))
      (rowBytes width).toNat (width.toNat * 4) height.toNat :=
    Strided.holds_of_last (by rw [List.length_replicate])
  have hroom : width.toNat * 4 ≤ (rowBytes width).toNat := by
    rw [rowBytes_toNat_of_lt hnarrow, Nat.mul_comm]
  have himage := hsame.copied {} _ _ (rowBytes width) hsrc hdst hroom
  rw [upload_frameTex _ _ (by omega), rows_copyRgba8Rows hnarrow hsrc hdst hroom] at himage
  -- The second row of the upload starts before the one.
  have hrow := rows_eq_iff.mp himage 1 hh
  have hfirst := congrArg (·[0]?) hrow
  simp only [Strided.slice, Nat.one_mul, List.getElem?_take, List.getElem?_drop, Nat.add_zero,
    if_pos (Nat.mul_pos hw (by decide : 0 < 4)), secondRow] at hfirst
  rw [List.getElem?_append_left (by rw [List.length_replicate]; omega),
    List.getElem?_append_right (by rw [List.length_replicate]), List.length_replicate, Nat.sub_self,
    List.getElem?_replicate, if_pos (by omega), List.getElem?_cons_zero] at hfirst
  exact absurd hfirst (by decide)

/-- For the frames that are accepted without a wrap-around, the backends upload the same image when
the pitch is a whole number of pixels or there is one row, and only then. -/
theorem sameImage_iff (hvalid : Runtime.drivenFrameValid width height pitch maxW maxH = true)
    (hwrap : 4 * width.toNat < 2 ^ 32) :
    SameImage width height pitch ↔ pitch % 4 = 0 ∨ height = 1 := by
  obtain ⟨hwidth, hheight, -, -, hfit⟩ := drivenFrameValid_iff.mp hvalid
  have hnarrow : width.toNat < 2 ^ 30 := by omega
  have hpitch : width.toNat * 4 ≤ pitch.toNat := by
    rw [Nat.mul_comm, ← rowBytes_toNat_of_lt hnarrow]
    exact UInt32.le_iff_toNat_le.mp hfit
  have hpos : 4 ≤ pitch.toNat := by
    have hw : 0 < width.toNat := Nat.pos_of_ne_zero fun h => hwidth (UInt32.toNat_inj.mp h)
    omega
  refine ⟨fun hsame => hsame.whole hnarrow hwidth hheight hpitch, fun hwhole => ⟨?_, ?_⟩⟩
  · intro b src dst dstPitch hsrc hdst hroom
    rw [upload_frameTex b src hpos, rows_eq_of_whole src hwhole,
      rows_copyRgba8Rows hnarrow hsrc hdst hroom]
  · intro b src src' hrows
    rw [upload_frameTex b src hpos, upload_frameTex b src' hpos, rows_eq_of_whole src hwhole,
      rows_eq_of_whole src' hwhole, hrows]

theorem sameImage_eight :
    Runtime.drivenFrameValid 1 2 8 1 2 = true ∧ 4 * (1 : UInt32).toNat < 2 ^ 32 ∧ SameImage 1 2 8 :=
  ⟨by decide, by decide,
    (sameImage_iff (by decide : Runtime.drivenFrameValid 1 2 8 1 2 = true) (by decide)).mpr
      (.inl (by decide))⟩

/-- Of two rows that are five bytes apart, the upload takes the second one a byte too early. -/
theorem odd_pitch_shears :
    Runtime.drivenFrameValid 1 2 5 1 2 = true ∧
      (GLBackend.upload [1, 2, 3, 4, 5, 6, 7, 8, 9] 1 2 5 {}).frameTex =
        [[1, 2, 3, 4], [5, 6, 7, 8]] ∧
      rows (copyRgba8Rows [1, 2, 3, 4, 5, 6, 7, 8, 9] 1 2 5 (List.replicate 8 0) 4) 1 2 4 =
        [[1, 2, 3, 4], [6, 7, 8, 9]] ∧
      ¬SameImage 1 2 5 := by
  refine ⟨by decide, by decide, by decide, fun h => ?_⟩
  have himage := h.copied {} [1, 2, 3, 4, 5, 6, 7, 8, 9] (List.replicate 8 0) 4
    (Strided.holds_of_last (by decide)) (Strided.holds_of_last (by decide)) (by decide)
  exact absurd himage (by decide)

end RetroPark
