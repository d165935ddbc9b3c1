import RetroPark.Abi
import RetroPark.Support.Strided

/-!
# Pixels of a libretro frame

`convert_to_rgba8` reads the pixels of a frame in the format the libretro core has announced, and
writes them one after another as RGBA8.

* `slice_convertToRgba8`: what is written at the place of a pixel is the colour of that pixel;
* `colour_eq_iff`: two pixels have one colour when they agree in the bits their format uses.
-/

namespace RetroPark.LibretroShim

/-- `RETRO_PIXEL_FORMAT_0RGB1555` -/
def pixelFormat0Rgb1555 : UInt32 := 0

/-- `RETRO_PIXEL_FORMAT_XRGB8888` -/
def pixelFormatXrgb8888 : UInt32 := 1

/-- `RETRO_PIXEL_FORMAT_RGB565` -/
def pixelFormatRgb565 : UInt32 := 2

/-- Five bits as eight. -/
def e5 (v : UInt32) : UInt8 := (v <<< 3 ||| v >>> 2).toUInt8

/-- Six bits as eight. -/
def e6 (v : UInt32) : UInt8 := (v <<< 2 ||| v >>> 4).toUInt8

/-- The little-endian word of `n` bytes at offset `o`. -/
def wordAt (src : Blob) (o : ℕ) : ℕ → UInt32
  | 0 => 0
  | n + 1 => wordAt src o n ||| (src.getD (o + n) 0).toUInt32 <<< UInt32.ofNat (8 * n)

/-- The bytes of a pixel, none in a format that is not known. -/
def bytesPerPixel (fmt : UInt32) : ℕ :=
  if fmt = pixelFormatXrgb8888 then 4
  else if fmt = pixelFormatRgb565 then 2
  else if fmt = pixelFormat0Rgb1555 then 2
  else 0

/-- Pixel `x` of the row that starts at offset `row`. -/
def sourcePixel (src : Blob) (fmt : UInt32) (row x : ℕ) : UInt32 :=
  wordAt src (row + x * bytesPerPixel fmt) (bytesPerPixel fmt)

/-- The red, green, blue and alpha of a pixel. -/
def colour (fmt p : UInt32) : Blob :=
  if fmt = pixelFormatXrgb8888 then
    [(p >>> 16 &&& 0xFF).toUInt8, (p >>> 8 &&& 0xFF).toUInt8, (p &&& 0xFF).toUInt8, 255]
  else if fmt = pixelFormatRgb565 then
    [e5 (p >>> 11 &&& 0x1F), e6 (p >>> 5 &&& 0x3F), e5 (p &&& 0x1F), 255]
  else if fmt = pixelFormat0Rgb1555 then
    [e5 (p >>> 10 &&& 0x1F), e5 (p >>> 5 &&& 0x1F), e5 (p &&& 0x1F), 255]
  else [0, 0, 0, 255]

/-- The loop over the pixels of a row, written from `out` on. The index `x*4` is a 32-bit number. -/
def convertRow (src : Blob) (fmt : UInt32) (row : ℕ) (dst : Blob) (out : ℕ) (w : ℕ) : Blob :=
  Strided.fill (fun x => colour fmt (sourcePixel src fmt row x))
    (fun x => out + (UInt32.ofNat x * 4).toNat) dst w

/-- The loop over the rows. -/
def convertRows (src : Blob) (w : ℕ) (srcPitch fmt : UInt32) (dst : Blob) : ℕ → Blob
  | 0 => dst
  | y + 1 =>
      convertRow src fmt (y * srcPitch.toNat) (convertRows src w srcPitch fmt dst y) (y * w * 4) w

/-- `convert_to_rgba8` -/
def convertToRgba8 (src : Blob) (w h srcPitch fmt : UInt32) (dst : Blob) : Blob :=
  convertRows src w.toNat srcPitch fmt dst h.toNat

/-! ### Where the pixels go -/

theorem length_colour (fmt p : UInt32) : (colour fmt p).length = 4 := by
  unfold colour
  split_ifs <;> rfl

variable {src dst : Blob} {w h : ℕ} {srcPitch fmt : UInt32}

/-- The index of a pixel in its row does not wrap around. -/
theorem pixelOffset {w x : ℕ} (hw : w ≤ 2 ^ 30) (hx : x < w) :
    (UInt32.ofNat x * 4).toNat = x * 4 := by
  rw [UInt32.toNat_mul, UInt32.toNat_ofNat']
  show x % 2 ^ 32 * 4 % 2 ^ 32 = x * 4
  omega

theorem fits_row (hw : w ≤ 2 ^ 30) {out : ℕ} (hout : out + w * 4 ≤ dst.length) :
    Strided.Fits dst (fun x => out + (UInt32.ofNat x * 4).toNat) 4 w := by
  intro x hx
  show out + (UInt32.ofNat x * 4).toNat + 4 ≤ dst.length
  rw [pixelOffset hw hx]
  omega

theorem length_convertRow (hw : w ≤ 2 ^ 30) {out row : ℕ} (hout : out + w * 4 ≤ dst.length) :
    (convertRow src fmt row dst out w).length = dst.length :=
  Strided.length_fill (fun _ _ => length_colour _ _) (fits_row hw hout)

/-- A row has the colours of its pixels. -/
theorem slice_convertRow (hw : w ≤ 2 ^ 30) {out row x : ℕ} (hout : out + w * 4 ≤ dst.length)
    (hx : x < w) :
    Strided.slice (convertRow src fmt row dst out w) (out + x * 4) 4 =
      colour fmt (sourcePixel src fmt row x) := by
  have happart : ∀ i j, i < j → j < w →
      out + (UInt32.ofNat i * 4).toNat + 4 ≤ out + (UInt32.ofNat j * 4).toNat := by
    intro i j hij hj
    rw [pixelOffset hw (hij.trans hj), pixelOffset hw hj]
    omega
  have hpixel :=
    Strided.slice_fill happart (fun x _ => length_colour fmt (sourcePixel src fmt row x))
    (fits_row hw hout) hx
  simp only [pixelOffset hw hx] at hpixel
  exact hpixel

/-- What ends before a row is left alone. -/
theorem slice_convertRow_before (hw : w ≤ 2 ^ 30) {out row o m : ℕ}
    (hout : out + w * 4 ≤ dst.length) (hbefore : o + m ≤ out) :
    Strided.slice (convertRow src fmt row dst out w) o m = Strided.slice dst o m :=
  Strided.slice_fill_before (fun _ _ => hbefore.trans (Nat.le_add_right _ _))
    (fun _ _ => length_colour _ _) (fits_row hw hout)

theorem rowEnd_le {y : ℕ} (hy : y < h) (w : ℕ) : y * w * 4 + w * 4 ≤ h * w * 4 := by
  have hrows : (y + 1) * w ≤ h * w := Nat.mul_le_mul_right w hy
  rw [Nat.add_mul, Nat.one_mul] at hrows
  omega

theorem length_convertRows (hw : w ≤ 2 ^ 30) (hdst : h * w * 4 ≤ dst.length) :
    (convertRows src w srcPitch fmt dst h).length = dst.length := by
  induction h with
  | zero => rfl
  | succ y ih =>
    have hlast := rowEnd_le (Nat.lt_add_one y) w
    have ih' := ih (by omega)
    rw [convertRows, length_convertRow hw (by omega), ih']

/-- Every pixel is written where the frame has it, and stays when the rows after it are written. -/
theorem slice_convertRows (hw : w ≤ 2 ^ 30) (hdst : h * w * 4 ≤ dst.length) {x y : ℕ} (hx : x < w)
    (hy : y < h) :
    Strided.slice (convertRows src w srcPitch fmt dst h) (y * w * 4 + x * 4) 4 =
      colour fmt (sourcePixel src fmt (y * srcPitch.toNat) x) := by
  induction h with
  | zero => exact absurd hy (Nat.not_lt_zero y)
  | succ k ih =>
    have hlast := rowEnd_le (Nat.lt_add_one k) w
    have hroom : k * w * 4 ≤ dst.length := by omega
    have hout : k * w * 4 + w * 4 ≤ (convertRows src w srcPitch fmt dst k).length := by
      rw [length_convertRows hw hroom]
      omega
    rw [convertRows]
    rcases Nat.lt_succ_iff_lt_or_eq.mp hy with hlt | rfl
    · have hbefore := rowEnd_le hlt w
      rw [slice_convertRow_before hw hout (by omega)]
      exact ih hroom hlt
    · exact slice_convertRow hw hout hx

/-- The bytes of a pixel are its colour. -/
theorem slice_convertToRgba8 {w h : UInt32} (hw : w.toNat ≤ 2 ^ 30)
    (hdst : h.toNat * w.toNat * 4 ≤ dst.length) {x y : ℕ} (hx : x < w.toNat) (hy : y < h.toNat) :
    Strided.slice (convertToRgba8 src w h srcPitch fmt dst) (y * (w.toNat * 4) + x * 4) 4 =
      colour fmt (sourcePixel src fmt (y * srcPitch.toNat) x) := by
  rw [← Nat.mul_assoc]
  exact slice_convertRows hw hdst hx hy

/-! ### What a colour tells of its pixel -/

/-- The bits of a pixel that its format uses. -/
def usedBits (fmt : UInt32) : UInt32 :=
  if fmt = pixelFormatXrgb8888 then 0xFFFFFF
  else if fmt = pixelFormatRgb565 then 0xFFFF
  else if fmt = pixelFormat0Rgb1555 then 0x7FFF
  else 0

/-- The `k` bits of a pixel from bit `i` on. -/
theorem field_toNat (p : UInt32) {i m : UInt32} {k : ℕ} (hi : i.toNat < 32)
    (hm : m.toNat = 2 ^ k - 1) : (p >>> i &&& m).toNat = p.toNat / 2 ^ i.toNat % 2 ^ k := by
  rw [UInt32.toNat_and, hm, Nat.and_two_pow_sub_one_eq_mod, UInt32.toNat_shiftRight,
    Nat.mod_eq_of_lt hi, Nat.shiftRight_eq_div_pow]

theorem mask_toNat (p : UInt32) {m : UInt32} {k : ℕ} (hm : m.toNat = 2 ^ k - 1) :
    (p &&& m).toNat = p.toNat % 2 ^ k := by
  rw [UInt32.toNat_and, hm, Nat.and_two_pow_sub_one_eq_mod]

/-- The high bits of the eight are the five. -/
theorem e5_div : ∀ n < 32, (e5 (UInt32.ofNat n)).toNat / 8 = n := by
  decide

/-- The high bits of the eight are the six. -/
theorem e6_div : ∀ n < 64, (e6 (UInt32.ofNat n)).toNat / 4 = n := by
  decide

theorem e5_inj {a b : UInt32} (ha : a.toNat < 32) (hb : b.toNat < 32) : e5 a = e5 b ↔ a = b := by
  refine ⟨fun h => UInt32.toNat_inj.mp ?_, congrArg e5⟩
  have ha' := e5_div a.toNat ha
  have hb' := e5_div b.toNat hb
  rw [UInt32.ofNat_toNat] at ha' hb'
  rw [← ha', h, hb']

theorem e6_inj {a b : UInt32} (ha : a.toNat < 64) (hb : b.toNat < 64) : e6 a = e6 b ↔ a = b := by
  refine ⟨fun h => UInt32.toNat_inj.mp ?_, congrArg e6⟩
  have ha' := e6_div a.toNat ha
  have hb' := e6_div b.toNat hb
  rw [UInt32.ofNat_toNat] at ha' hb'
  rw [← ha', h, hb']

theorem byte_inj {a b : UInt32} (ha : a.toNat < 256) (hb : b.toNat < 256) :
    a.toUInt8 = b.toUInt8 ↔ a = b := by
  refine ⟨fun h => UInt32.toNat_inj.mp ?_, congrArg _⟩
  have hbytes := congrArg UInt8.toNat h
  rw [UInt32.toNat_toUInt8, UInt32.toNat_toUInt8] at hbytes
  omega

/-- Two pixels of one format have the same colour when they agree in the bits the format uses:
widening the channels loses nothing. -/
theorem colour_eq_iff (fmt p q : UInt32) :
    colour fmt p = colour fmt q ↔ p &&& usedBits fmt = q &&& usedBits fmt := by
  have hlow8 : ∀ p : UInt32, (p &&& 0xFF).toNat = p.toNat % 2 ^ 8 :=
    fun p => mask_toNat p (by decide)
  have hlow5 : ∀ p : UInt32, (p &&& 0x1F).toNat = p.toNat % 2 ^ 5 :=
    fun p => mask_toNat p (by decide)
  unfold colour usedBits
  split_ifs with hX hR hO
  · have hred : ∀ p : UInt32, (p >>> 16 &&& 0xFF).toNat = p.toNat / 2 ^ 16 % 2 ^ 8 :=
      fun p => field_toNat p (by decide) (by decide)
    have hgreen : ∀ p : UInt32, (p >>> 8 &&& 0xFF).toNat = p.toNat / 2 ^ 8 % 2 ^ 8 :=
      fun p => field_toNat p (by decide) (by decide)
    have hall : ∀ p : UInt32, (p &&& 0xFFFFFF).toNat = p.toNat % 2 ^ 24 :=
      fun p => mask_toNat p (by decide)
    simp only [List.cons.injEq, and_true]
    rw [byte_inj (by rw [hred]; omega) (by rw [hred]; omega),
      byte_inj (by rw [hgreen]; omega) (by rw [hgreen]; omega),
      byte_inj (by rw [hlow8]; omega) (by rw [hlow8]; omega)]
    simp only [← UInt32.toNat_inj, hred, hgreen, hlow8, hall]
    omega
  · have hred : ∀ p : UInt32, (p >>> 11 &&& 0x1F).toNat = p.toNat / 2 ^ 11 % 2 ^ 5 :=
      fun p => field_toNat p (by decide) (by decide)
    have hgreen : ∀ p : UInt32, (p >>> 5 &&& 0x3F).toNat = p.toNat / 2 ^ 5 % 2 ^ 6 :=
      fun p => field_toNat p (by decide) (by decide)
    have hall : ∀ p : UInt32, (p &&& 0xFFFF).toNat = p.toNat % 2 ^ 16 :=
      fun p => mask_toNat p (by decide)
    simp only [List.cons.injEq, and_true]
    rw [e5_inj (by rw [hred]; omega) (by rw [hred]; omega),
      e6_inj (by rw [hgreen]; omega) (by rw [hgreen]; omega),
      e5_inj (by rw [hlow5]; omega) (by rw [hlow5]; omega)]
    simp only [← UInt32.toNat_inj, hred, hgreen, hlow5, hall]
    omega
  · have hred : ∀ p : UInt32, (p >>> 10 &&& 0x1F).toNat = p.toNat / 2 ^ 10 % 2 ^ 5 :=
      fun p => field_toNat p (by decide) (by decide)
    have hgreen : ∀ p : UInt32, (p >>> 5 &&& 0x1F).toNat = p.toNat / 2 ^ 5 % 2 ^ 5 :=
      fun p => field_toNat p (by decide) (by decide)
    have hall : ∀ p : UInt32, (p &&& 0x7FFF).toNat = p.toNat % 2 ^ 15 :=
      fun p => mask_toNat p (by decide)
    simp only [List.cons.injEq, and_true]
    rw [e5_inj (by rw [hred]; omega) (by rw [hred]; omega),
      e5_inj (by rw [hgreen]; omega) (by rw [hgreen]; omega),
      e5_inj (by rw [hlow5]; omega) (by rw [hlow5]; omega)]
    simp only [← UInt32.toNat_inj, hred, hgreen, hlow5, hall]
    omega
  · -- No bit is used, and all pixels are black.
    rw [UInt32.and_zero, UInt32.and_zero]
    exact iff_of_true rfl rfl

end RetroPark.LibretroShim
