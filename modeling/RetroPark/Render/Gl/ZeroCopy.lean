import Mathlib.Algebra.BigOperators.Fin
import Mathlib.Data.Rat.Cast.Order
import Mathlib.Tactic.FieldSimp
import Mathlib.Tactic.Ring
import RetroPark.Cores.LibretroShim.HwRenderGL
import RetroPark.Render.FramebufferCopy

/-!
# A core's texture, drawn and read back

A hardware-rendered core's frame reaches the screen in one of two ways. Without a shared context the
shim reads it back (`HwRenderGL::read_frame`) and `composite_driven` uploads it and draws it; with
one, `composite_external_gl` draws the core's texture itself. Positions are rational: a point of the
output, a texture coordinate and a position in a texture, each from the bottom left.

* `interpolate_vertex`: what the vertex shader says at the corners of its triangle, the rasterizer
  says at every point of the output;
* `zeroCopy_eq_readback`: both ways sample the core's texture at the same position, and the texture
  that is uploaded has the rows that were read back.
-/

namespace RetroPark.Gl

open LibretroShim (HwRenderGL)

/-! ### The shader -/

/-- `p` of the vertex shader, by `gl_VertexID`. -/
def vertex (id : ℕ) : ℚ × ℚ := (((id <<< 1 &&& 2 : ℕ) : ℚ), ((id &&& 2 : ℕ) : ℚ))

/-- `gl_Position` of the vertex shader. -/
def vertexPosition (p : ℚ × ℚ) : ℚ × ℚ := (p.1 * 2 - 1, p.2 * 2 - 1)

/-- `vUV` of the vertex shader. -/
def vertexUV (flipV : Bool) (uvScale p : ℚ × ℚ) : ℚ × ℚ :=
  let base : ℚ × ℚ := (p.1, if flipV then 1 - p.2 else p.2)
  (base.1 * uvScale.1, base.2 * uvScale.2)

/-- The weights of the three vertices at a point of the output, whose corners are at 0 and 1. -/
def weights (p : ℚ × ℚ) : Fin 3 → ℚ := ![1 - p.1 / 2 - p.2 / 2, p.1 / 2, p.2 / 2]

/-- What the rasterizer makes of the values at the three vertices. -/
def interpolate (p : ℚ × ℚ) (f : ℕ → ℚ × ℚ) : ℚ × ℚ := ∑ i : Fin 3, weights p i • f i

theorem vertices : vertex 0 = (0, 0) ∧ vertex 1 = (2, 0) ∧ vertex 2 = (0, 2) := by
  have h1 : vertex 1 = (((2 : ℕ) : ℚ), ((0 : ℕ) : ℚ)) := rfl
  have h2 : vertex 2 = (((0 : ℕ) : ℚ), ((2 : ℕ) : ℚ)) := rfl
  refine ⟨by simp [vertex], ?_, ?_⟩
  · simp [h1]
  · simp [h2]

/-- The fragment at a point of the output has the position of that point, and its texture
coordinate. -/
theorem interpolate_vertex (flipV : Bool) (uvScale p : ℚ × ℚ) :
    interpolate p (fun id => vertexPosition (vertex id)) = vertexPosition p ∧
      interpolate p (fun id => vertexUV flipV uvScale (vertex id)) = vertexUV flipV uvScale p := by
  obtain ⟨h0, h1, h2⟩ := vertices
  constructor
  · apply Prod.ext <;>
      simp [interpolate, Fin.sum_univ_three, weights, vertexPosition, h0, h1, h2] <;> ring
  · apply Prod.ext <;> cases flipV <;>
      simp [interpolate, Fin.sum_univ_three, weights, vertexUV, h0, h1, h2] <;> ring

/-! ### Draws -/

/-- A call of `GLCompositor::draw`, with the size of the texture it draws. -/
structure Draw where
  size : ℚ × ℚ
  flipV : Bool := true
  uvScale : ℚ × ℚ := (1, 1)

/-- The position in the texture that is sampled at a point of the output. -/
def Draw.position (d : Draw) (p : ℚ × ℚ) : ℚ × ℚ :=
  let uv := interpolate p fun id => vertexUV d.flipV d.uvScale (vertex id)
  (uv.1 * d.size.1, uv.2 * d.size.2)

theorem Draw.position_eq (d : Draw) (p : ℚ × ℚ) :
    d.position p =
      (p.1 * (d.uvScale.1 * d.size.1),
        (if d.flipV then 1 - p.2 else p.2) * (d.uvScale.2 * d.size.2)) := by
  unfold position
  rw [(interpolate_vertex _ _ _).2]
  apply Prod.ext <;> simp only [vertexUV, mul_assoc]

/-- The scale of a coordinate: the part of the texture that the frame fills, if it is not larger. -/
def uvScale (size : Int32) (n : UInt32) : ℚ :=
  if 0 < size ∧ n ≤ size.toUInt32 then n.toNat / size.toInt else 1

/-- What `composite_external_gl` draws, where the texture has the size that
`glGetTexLevelParameteriv` reports. -/
def externalDraw (texW texH : Int32) (w h : UInt32) (bottomLeftOrigin : Bool) : Draw where
  size := (texW.toInt, texH.toInt)
  flipV := !bottomLeftOrigin
  uvScale := (uvScale texW w, uvScale texH h)

/-- What `composite_driven` draws after the upload of a frame. -/
def drivenDraw (width height : UInt32) : Draw where
  size := (width.toNat, height.toNat)

theorem toInt_toInt32 {n : UInt32} (h : n.toNat < 2 ^ 31) : n.toInt32.toInt = n.toNat :=
  BitVec.toInt_eq_toNat_of_lt (by simpa using (by omega : 2 * n.toNat < 2 ^ 32))

/-- A frame that is no larger than the texture is drawn from its lower left part, and another one
from all of it. -/
theorem uvScale_mul {size : UInt32} (hpos : 0 < size.toNat) (hlt : size.toNat < 2 ^ 31)
    (n : UInt32) :
    uvScale size.toInt32 n * size.toInt32.toInt = (min n.toNat size.toNat : ℕ) := by
  have hint := toInt_toInt32 hlt
  have hpos' : 0 < size.toInt32 := by
    rw [Int32.lt_iff_toInt_lt, hint]
    exact Int.natCast_pos.mpr hpos
  have hne : ((size.toNat : ℤ) : ℚ) ≠ 0 := by
    rw [Int.cast_natCast]
    exact Nat.cast_ne_zero.mpr hpos.ne'
  unfold uvScale
  rw [UInt32.toUInt32_toInt32, hint]
  split_ifs with h
  · rw [div_mul_cancel₀ _ hne, Nat.min_eq_left (UInt32.le_iff_toNat_le.mp h.2)]
  · have hlarge : ¬n.toNat ≤ size.toNat := fun hle => h ⟨hpos', UInt32.le_iff_toNat_le.mpr hle⟩
    rw [one_mul, Nat.min_eq_right (by omega), Int.cast_natCast]

/-! ### Zero copy and readback -/

section Frame

variable (hw : HwRenderGL) (w h : UInt32)

/-- The draw of the core's texture itself. -/
def zeroCopyDraw : Draw := externalDraw hw.maxW.toInt32 hw.maxH.toInt32 w h hw.blo

/-- The draw of the frame that was read back. -/
def readbackDraw : Draw := drivenDraw (hw.readFrame w h).width (hw.readFrame w h).height

/-- The position in the core's texture of what is at position `q` of a frame of `height` rows that
was read back. -/
def behind (height : ℕ) (q : ℚ × ℚ) : ℚ × ℚ := (q.1, if hw.blo then height - q.2 else q.2)

/-- What lies a part `t` into row `y` of the frame lies in the row of the texture that it was read
from, as far into it, from the other side if the rows were turned. -/
theorem behind_row {height y : ℕ} (hy : y < height) (x t : ℚ) :
    behind hw height (x, y + t) = (x, hw.fboRow height y + if hw.blo then 1 - t else t) := by
  unfold behind HwRenderGL.fboRow
  cases hw.blo with
  | false => rfl
  | true =>
    have hrow : ((height - 1 - y : ℕ) : ℚ) = height - 1 - y := by
      rw [Nat.cast_sub (by omega), Nat.cast_sub (by omega), Nat.cast_one]
    simp only [if_true, hrow]
    ring_nf

theorem zeroCopyDraw_position (p : ℚ × ℚ) :
    (zeroCopyDraw hw w h).position p =
      (p.1 * (hw.readFrame w h).width.toNat,
        (if hw.blo then p.2 else 1 - p.2) * (hw.readFrame w h).height.toNat) := by
  have hx := uvScale_mul hw.maxW_pos hw.maxW_lt w
  have hy := uvScale_mul hw.maxH_pos hw.maxH_lt h
  rw [Draw.position_eq, HwRenderGL.readFrame_width, HwRenderGL.readFrame_height, ← hx, ← hy]
  unfold zeroCopyDraw externalDraw
  cases hw.blo <;> rfl

theorem readbackDraw_position (p : ℚ × ℚ) :
    (readbackDraw hw w h).position p =
      (p.1 * (hw.readFrame w h).width.toNat, (1 - p.2) * (hw.readFrame w h).height.toNat) := by
  rw [Draw.position_eq]
  simp [readbackDraw, drivenDraw]

/-- The upload of a frame that was read back has its rows, for its pitch is that of rows without
padding. -/
theorem upload_readFrame (b : GLBackend) (hpos : 0 < (hw.readFrame w h).width.toNat)
    (hlt : (hw.readFrame w h).width.toNat < 2 ^ 30) :
    (b.upload (hw.readFrame w h).data (hw.readFrame w h).width (hw.readFrame w h).height
        (hw.readFrame w h).pitch).frameTex =
      rows (hw.readFrame w h).data (hw.readFrame w h).width.toNat (hw.readFrame w h).height.toNat
        ((hw.readFrame w h).width.toNat * 4) := by
  have hpitch : (hw.readFrame w h).pitch.toNat = 4 * (hw.readFrame w h).width.toNat :=
    rowBytes_toNat_of_lt hlt
  rw [upload_frameTex b _ (by omega), hpitch, Nat.mul_div_cancel_left _ (by decide)]

/-- Both ways sample the core's texture at the same position. The frame that was read back has the
rows of the texture that it is sampled for, and the upload takes them as they are. -/
theorem zeroCopy_eq_readback :
    (∀ p, (zeroCopyDraw hw w h).position p =
      behind hw (hw.readFrame w h).height.toNat ((readbackDraw hw w h).position p)) ∧
      (∀ y < (hw.readFrame w h).height.toNat,
        (rows (hw.readFrame w h).data (hw.readFrame w h).width.toNat (hw.readFrame w h).height.toNat
            ((hw.readFrame w h).width.toNat * 4))[y]? =
          some (Strided.slice hw.color (hw.fboRow (hw.readFrame w h).height.toNat y * hw.stride)
            ((hw.readFrame w h).width.toNat * 4)) ∧
        ∀ x t, behind hw (hw.readFrame w h).height.toNat (x, y + t) =
          (x, hw.fboRow (hw.readFrame w h).height.toNat y + if hw.blo then 1 - t else t)) ∧
      ∀ b : GLBackend, 0 < (hw.readFrame w h).width.toNat →
        (hw.readFrame w h).width.toNat < 2 ^ 30 →
        (b.upload (hw.readFrame w h).data (hw.readFrame w h).width (hw.readFrame w h).height
            (hw.readFrame w h).pitch).frameTex =
          rows (hw.readFrame w h).data (hw.readFrame w h).width.toNat
            (hw.readFrame w h).height.toNat ((hw.readFrame w h).width.toNat * 4) := by
  refine ⟨fun p => ?_, fun y hy => ⟨?_, behind_row hw hy⟩, upload_readFrame hw w h⟩
  · rw [zeroCopyDraw_position, readbackDraw_position, behind]
    apply Prod.ext
    · rfl
    · -- Turning the rows of the frame undoes the flip of its draw.
      cases hw.blo with
      | false => rfl
      | true =>
        simp only [if_true]
        ring
  · rw [rows_getElem? _ _ hy, HwRenderGL.readFrame_row hy]

end Frame

end RetroPark.Gl
