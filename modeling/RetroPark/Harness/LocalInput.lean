import Mathlib.Data.Fin.VecNotation
import RetroPark.Cores.LibretroShim.ShimInput

/-!
# The local input of the windowed harness

`readLocalInput` merges the keyboard and an XInput gamepad into one `rp_input_state`: the keys as
they are, the gamepad as the abstract pad, and the arrow keys over its left stick. A gamepad's
sticks and the abstract pad's are both positive to the right and up.

`upStaysUp_iff` says for which keys and gamepads a libretro core reads the sticks the right way
round. The arrow keys move the left stick against its convention, and a stick that is pushed down
all the way is read as pushed up all the way (`up_reads_down`).
-/

namespace RetroPark.Harness

open LibretroShim

/-! ### Devices -/

/-- `XINPUT_GAMEPAD`. -/
structure XInputGamepad where
  buttons : UInt16 := 0
  leftTrigger : UInt8 := 0
  rightTrigger : UInt8 := 0
  thumbLX : Int16 := 0
  thumbLY : Int16 := 0
  thumbRX : Int16 := 0
  thumbRY : Int16 := 0
  deriving DecidableEq

/-- The horizontal position of a stick. -/
def XInputGamepad.x (gp : XInputGamepad) : Stick → Int16
  | .left => gp.thumbLX
  | .right => gp.thumbRX

/-- The vertical position of a stick. -/
def XInputGamepad.y (gp : XInputGamepad) : Stick → Int16
  | .left => gp.thumbLY
  | .right => gp.thumbRY

/-- What the keyboard answers during one call, which asks for every key and then again for the
arrows. -/
structure Keyboard where
  scanned : Fin 256 → Bool := fun _ => false
  up : Bool := false
  down : Bool := false
  left : Bool := false
  right : Bool := false

/-! ### Merging -/

/-- The pad button of each `XINPUT_GAMEPAD_*` bit. -/
def buttonMap : List (PadButton × UInt16) :=
  [(.a, 0x1000), (.b, 0x2000), (.x, 0x4000), (.y, 0x8000), (.l, 0x0100), (.r, 0x0200),
    (.select, 0x0020), (.start, 0x0010), (.l3, 0x0040), (.r3, 0x0080), (.dpadUp, 0x0001),
    (.dpadDown, 0x0002), (.dpadLeft, 0x0004), (.dpadRight, 0x0008)]

/-- `set`: put a button down that the gamepad has down. -/
def setButton (gp : XInputGamepad) (s : InputState) (button : PadButton × UInt16) : InputState :=
  if gp.buttons &&& button.2 ≠ 0 then s.press button.1 else s

/-- `xinput_to_pad`. -/
def xinputToPad (gp : XInputGamepad) (s : InputState) : InputState :=
  (((((((buttonMap.foldl (setButton gp) s).setAxis .leftX gp.thumbLX).setAxis .leftY
    gp.thumbLY).setAxis .rightX gp.thumbRX).setAxis .rightY gp.thumbRY).setAxis .leftTrigger
      (Int16.ofNat (gp.leftTrigger.toNat * 128))).setAxis .rightTrigger
        (Int16.ofNat (gp.rightTrigger.toNat * 128)))

/-- A held arrow key. -/
def arrow (held : Bool) (button : PadButton) (axis : PadAxis) (v : Int16) (s : InputState) :
    InputState :=
  if held then (s.press button).setAxis axis v else s

/-- The keyboard fallback of `read_local_input`. -/
def arrows (keyboard : Keyboard) (s : InputState) : InputState :=
  arrow keyboard.right .dpadRight .leftX 32767 <|
    arrow keyboard.left .dpadLeft .leftX (-32767) <|
      arrow keyboard.down .dpadDown .leftY 32767 <|
        arrow keyboard.up .dpadUp .leftY (-32767) s

/-- The static variables of `read_local_input`: a gamepad that was absent is asked for again in one
of 120 calls. -/
structure XInputPoll where
  probe : ℕ := 0
  connected : Bool := true
  deriving DecidableEq

/-- `read_local_input`, where `pad` is the gamepad that `XInputGetState` finds. -/
def readLocalInput (keyboard : Keyboard) (pad : Option XInputGamepad) (poll : XInputPoll) :
    InputState × XInputPoll :=
  let s : InputState :=
    { InputState.neutral with keys := Vector.ofFn fun vk => if keyboard.scanned vk then 1 else 0 }
  let probe := if poll.connected then poll.probe else poll.probe + 1
  if poll.connected || probe % 120 = 0 then
    match pad with
    | some gp => (arrows keyboard (xinputToPad gp s), { probe, connected := true })
    | none => (arrows keyboard s, { probe, connected := false })
  else (arrows keyboard s, { poll with probe })

/-! ### Sticks -/

section Axes

variable (keyboard : Keyboard) (gp : XInputGamepad) (s : InputState)

/-- Sticks pass through. -/
theorem axis_xinputToPad (stick : Stick) :
    (xinputToPad gp s).axis stick.x = gp.x stick ∧
      (xinputToPad gp s).axis stick.y = gp.y stick := by
  cases stick <;>
    simp [xinputToPad, Stick.x, Stick.y, XInputGamepad.x, XInputGamepad.y,
      InputState.axis_setAxis]

theorem axis_arrow (held : Bool) (button : PadButton) (i j : PadAxis) (v : Int16) :
    (arrow held button i v s).axis j = if held ∧ i = j then v else s.axis j := by
  cases held <;> simp [arrow, InputState.axis_setAxis]

/-- The arrows move the left stick alone, right over left and down over up. -/
theorem axis_arrows (i : PadAxis) :
    (arrows keyboard s).axis i =
      match i with
      | .leftX => if keyboard.right then 32767 else if keyboard.left then -32767 else s.axis .leftX
      | .leftY => if keyboard.down then 32767 else if keyboard.up then -32767 else s.axis .leftY
      | i => s.axis i := by
  cases i <;> simp [arrows, axis_arrow]

end Axes

/-- The state that a connected gamepad and the keys are merged into. -/
def merged (keyboard : Keyboard) (probe : ℕ) (gp : XInputGamepad) : InputState :=
  (readLocalInput keyboard (some gp) { probe, connected := true }).1

/-- What a libretro core reads of an analog stick. -/
def readStick (keyboard : Keyboard) (probe : ℕ) (gp : XInputGamepad) (stick : Stick) (id : UInt32) :
    Int16 :=
  shimMapInput (merged keyboard probe gp) retroDeviceAnalog (retroDeviceIndexAnalog stick) id

variable {keyboard : Keyboard} {probe : ℕ} {gp gp' : XInputGamepad}

theorem readStick_x (hleft : keyboard.left = false) (hright : keyboard.right = false)
    (stick : Stick) :
    readStick keyboard probe gp stick retroDeviceIdAnalogX = gp.x stick := by
  have hpad := fun s => (axis_xinputToPad gp s stick).1
  rw [readStick, shimMapInput_analogX]
  refine (axis_arrows keyboard _ _).trans ?_
  cases stick with
  | left => simpa [Stick.x, hleft, hright] using hpad _
  | right => exact hpad _

theorem readStick_y (hup : keyboard.up = false) (hdown : keyboard.down = false) (stick : Stick) :
    readStick keyboard probe gp stick retroDeviceIdAnalogY = -gp.y stick := by
  have hpad := fun s => (axis_xinputToPad gp s stick).2
  rw [readStick, shimMapInput_analogY]
  refine congrArg Neg.neg ((axis_arrows keyboard _ _).trans ?_)
  cases stick with
  | left => simpa [Stick.y, hup, hdown] using hpad _
  | right => exact hpad _

/-- Under a vertical arrow the left stick is at an end of its range. -/
theorem readStick_arrow (h : keyboard.up ≠ keyboard.down) :
    readStick keyboard probe gp .left retroDeviceIdAnalogY =
      if keyboard.up then 32767 else -32767 := by
  rw [readStick, shimMapInput_analogY]
  have haxis := axis_arrows keyboard (xinputToPad gp
    { InputState.neutral with keys := Vector.ofFn fun vk => if keyboard.scanned vk then 1 else 0 })
      .leftY
  refine (congrArg Neg.neg haxis).trans ?_
  cases hup : keyboard.up <;> cases hdown : keyboard.down
  · exact absurd (hup.trans hdown.symm) h
  · simp
  · simp
  · exact absurd (hup.trans hdown.symm) h

/-! ### Up -/

/-- A core reads the sticks of `gp` the right way round, and those that are lower than the sticks of
`gp'` on the gamepads are not read as higher; libretro's sticks are positive down. -/
structure UpStaysUp (keyboard : Keyboard) (probe : ℕ) (gp gp' : XInputGamepad) : Prop where
  horizontal : keyboard.left = false → keyboard.right = false → ∀ stick,
    readStick keyboard probe gp stick retroDeviceIdAnalogX = gp.x stick
  vertical : keyboard.up = false → keyboard.down = false → ∀ stick, gp.y stick < gp'.y stick →
    readStick keyboard probe gp' stick retroDeviceIdAnalogY ≤
      readStick keyboard probe gp stick retroDeviceIdAnalogY
  up : keyboard.up = true → keyboard.down = false →
    readStick keyboard probe gp .left retroDeviceIdAnalogY < 0
  down : keyboard.up = false → keyboard.down = true →
    0 < readStick keyboard probe gp .left retroDeviceIdAnalogY

/-- Up stays up if no vertical arrow is held alone and, without arrows, no stick of the lower
gamepad `gp` is at the low end of its range where that of `gp'` is above it. -/
theorem upStaysUp_iff (keyboard : Keyboard) (probe : ℕ) (gp gp' : XInputGamepad) :
    UpStaysUp keyboard probe gp gp' ↔
      keyboard.up = keyboard.down ∧
        (keyboard.up = false → ∀ stick, gp.y stick = -32768 → gp'.y stick = -32768) := by
  constructor
  · intro h
    -- An arrow that is held alone overrides the sticks, with the sign of the other direction.
    have hboth : keyboard.up = keyboard.down := by
      by_contra hne
      have hread : readStick keyboard probe gp .left retroDeviceIdAnalogY = _ := readStick_arrow hne
      have hdown : keyboard.down = !keyboard.up := Bool.eq_not.mpr (Ne.symm hne)
      cases hup : keyboard.up with
      | true =>
        have hneg := h.up hup (by rw [hdown, hup]; rfl)
        rw [hread, hup] at hneg
        exact absurd hneg (by decide)
      | false =>
        have hpos := h.down hup (by rw [hdown, hup]; rfl)
        rw [hread, hup] at hpos
        exact absurd hpos (by decide)
    refine ⟨hboth, fun hup stick hlow => ?_⟩
    have hdown : keyboard.down = false := hboth.symm.trans hup
    by_contra hhigh
    -- Negated, the lowest value stays the lowest, so no higher stick reads below it.
    have hlt : gp.y stick < gp'.y stick := by
      rw [hlow]
      have hmin := (gp'.y stick).minValue_le_toInt
      have hne : (gp'.y stick).toInt ≠ (-32768 : Int16).toInt :=
        fun heq => hhigh (Int16.toInt.inj heq)
      exact Int16.lt_iff_toInt_lt.mpr (lt_of_le_of_ne hmin hne.symm)
    have hle := h.vertical hup hdown stick hlt
    rw [readStick_y hup hdown, readStick_y hup hdown, neg_le_neg_iff_of_lt hlt] at hle
    exact hle hlow
  · rintro ⟨hboth, hlow⟩
    refine ⟨fun hleft hright stick => readStick_x hleft hright stick, fun hup hdown stick hlt => ?_,
      fun hup hdown => ?_, fun hup hdown => ?_⟩
    · rw [readStick_y hup hdown, readStick_y hup hdown, neg_le_neg_iff_of_lt hlt]
      intro hmin
      rw [hlow hup stick hmin] at hlt
      exact absurd hlt (Int16.not_lt.mpr (hmin ▸ Int16.le_refl _))
    · exact nomatch hup.symm.trans (hboth.trans hdown)
    · exact nomatch hup.symm.trans (hboth.trans hdown)

/-- The Up arrow over a centred gamepad is read as down, and a left stick that is down all the way
as up all the way. -/
theorem up_reads_down :
    readStick { up := true } 0 {} .left retroDeviceIdAnalogY = 32767 ∧
      ¬UpStaysUp { up := true } 0 {} {} ∧
      readStick {} 0 { thumbLY := -32768 } .left retroDeviceIdAnalogY = -32768 ∧
      ¬UpStaysUp {} 0 { thumbLY := -32768 } {} := by
  refine ⟨by decide +kernel, fun h => ?_, by decide +kernel, fun h => ?_⟩
  · exact absurd (h.up rfl rfl) (by decide +kernel)
  · exact absurd (h.vertical rfl rfl .left (by decide)) (by decide +kernel)

end RetroPark.Harness
