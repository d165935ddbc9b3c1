import RetroPark.Pad

/-!
# What the libretro core reads of the pad

`shimMapInput` answers a libretro poll from an `rp_input_state`. A core may ask for the buttons of a
joypad, which the keyboard answers too, or for an analog stick. Libretro's sticks are positive to
the right and down, so that the vertical axis is negated, in 16 bits.
-/

namespace RetroPark.LibretroShim

/-! ### The numbers of `libretro.h` -/

/-- `RETRO_DEVICE_JOYPAD`. -/
def retroDeviceJoypad : UInt32 := 1

/-- `RETRO_DEVICE_ANALOG`. -/
def retroDeviceAnalog : UInt32 := 5

/-- `RETRO_DEVICE_ID_ANALOG_X`. -/
def retroDeviceIdAnalogX : UInt32 := 0

/-- `RETRO_DEVICE_ID_ANALOG_Y`. -/
def retroDeviceIdAnalogY : UInt32 := 1

/-- `RETRO_DEVICE_INDEX_ANALOG_LEFT` and `RETRO_DEVICE_INDEX_ANALOG_RIGHT`. -/
def retroDeviceIndexAnalog : Stick → UInt32
  | .left => 0
  | .right => 1

/-! ### The mapping -/

/-- A joypad button, from a key and a pad button. -/
def keyOrPad (input : InputState) (vk : Fin 256) (button : PadButton) : Int16 :=
  if input.keys.get vk ≠ 0 ∨ input.pad button = true then 1 else 0

/-- `shim_map_input` for the joypad. -/
def mapJoypad (input : InputState) (id : UInt32) : Int16 :=
  if id = 4 then keyOrPad input 0x26 .dpadUp -- `VK_UP`
  else if id = 5 then keyOrPad input 0x28 .dpadDown -- `VK_DOWN`
  else if id = 6 then keyOrPad input 0x25 .dpadLeft -- `VK_LEFT`
  else if id = 7 then keyOrPad input 0x27 .dpadRight -- `VK_RIGHT`
  else if id = 8 then keyOrPad input 0x58 .a -- the X key
  else if id = 0 then keyOrPad input 0x5A .b -- the Z key
  else if id = 3 then keyOrPad input 0x0D .start -- `VK_RETURN`
  else if id = 2 then keyOrPad input 0x10 .select -- `VK_SHIFT`
  else if id = 10 then if input.pad .l then 1 else 0
  else if id = 11 then if input.pad .r then 1 else 0
  else if id = 12 then if input.axis .leftTrigger > 8192 then 1 else 0
  else 0

/-- `shim_map_input`. -/
def shimMapInput (input : InputState) (device index id : UInt32) : Int16 :=
  if device = retroDeviceAnalog then
    let stick (s : Stick) : Int16 :=
      if id = retroDeviceIdAnalogX then input.axis s.x
      else if id = retroDeviceIdAnalogY then -input.axis s.y
      else 0
    if index = retroDeviceIndexAnalog .left then stick .left
    else if index = retroDeviceIndexAnalog .right then stick .right
    else 0
  else if device ≠ retroDeviceJoypad then 0
  else mapJoypad input id

variable (input : InputState) (s : Stick)

theorem shimMapInput_analogX :
    shimMapInput input retroDeviceAnalog (retroDeviceIndexAnalog s) retroDeviceIdAnalogX =
      input.axis s.x := by
  cases s <;> rfl

theorem shimMapInput_analogY :
    shimMapInput input retroDeviceAnalog (retroDeviceIndexAnalog s) retroDeviceIdAnalogY =
      -input.axis s.y := by
  cases s <;> rfl

/-! ### Negation in 16 bits -/

theorem toInt_neg_of_ne {y : Int16} (h : y ≠ Int16.minValue) : (-y).toInt = -y.toInt := by
  have hne : y.toBitVec ≠ BitVec.intMin 16 := fun heq => h (Int16.toBitVec.inj heq)
  exact BitVec.toInt_neg_of_ne_intMin hne

/-- Negation reverses the order of two positions unless the lower one is the lowest there is, which
it leaves where it is. -/
theorem neg_le_neg_iff_of_lt {y y' : Int16} (h : y < y') : -y' ≤ -y ↔ y ≠ Int16.minValue := by
  have hlt := Int16.lt_iff_toInt_lt.mp h
  have hne : y' ≠ Int16.minValue := by
    rintro rfl
    have hmin := y.minValue_le_toInt
    omega
  rw [Int16.le_iff_toInt_le, toInt_neg_of_ne hne]
  constructor
  · rintro hle rfl
    have hmax := y'.toInt_le
    rw [Int16.toInt_maxValue] at hmax
    have hlow : (-Int16.minValue).toInt = -2 ^ 15 := rfl
    rw [hlow] at hle
    omega
  · intro hy
    rw [toInt_neg_of_ne hy]
    omega

end RetroPark.LibretroShim
