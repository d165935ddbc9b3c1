import RetroPark.Abi

/-!
# The abstract pad

The indices of `retropark_abi.h` into the pad part of an `rp_input_state`: one bit of `pad_buttons`
for each button and one entry of `pad_axes` for each axis. Sticks are positive to the right and up.

Writing an axis moves no other axis, and pressing a button moves none.
-/

namespace RetroPark

/-- The `RP_PAD_*` buttons. -/
inductive PadButton
  | a | b | x | y
  | l | r
  | select | start
  | l3 | r3
  | dpadUp | dpadDown | dpadLeft | dpadRight
  | guide
  deriving DecidableEq, Repr

/-- The index of a button's bit. -/
def PadButton.index : PadButton → UInt16
  | .a => 0
  | .b => 1
  | .x => 2
  | .y => 3
  | .l => 4
  | .r => 5
  | .select => 6
  | .start => 7
  | .l3 => 8
  | .r3 => 9
  | .dpadUp => 10
  | .dpadDown => 11
  | .dpadLeft => 12
  | .dpadRight => 13
  | .guide => 14

/-- The `RP_AXIS_*` axes. -/
inductive PadAxis
  | leftX | leftY | rightX | rightY
  | leftTrigger | rightTrigger
  deriving DecidableEq, Repr

/-- The index of an axis. -/
def PadAxis.index : PadAxis → Fin 8
  | .leftX => 0
  | .leftY => 1
  | .rightX => 2
  | .rightY => 3
  | .leftTrigger => 4
  | .rightTrigger => 5

theorem PadAxis.index_inj {i j : PadAxis} : i.index = j.index ↔ i = j := by
  cases i <;> cases j <;> simp [index]

/-- One of the two sticks. -/
inductive Stick
  | left
  | right
  deriving DecidableEq, Repr

/-- The horizontal axis of a stick. -/
def Stick.x : Stick → PadAxis
  | .left => .leftX
  | .right => .rightX

/-- The vertical axis of a stick. -/
def Stick.y : Stick → PadAxis
  | .left => .leftY
  | .right => .rightY

namespace InputState

/-- Whether a button is down. -/
def pad (s : InputState) (button : PadButton) : Bool :=
  s.padButtons &&& (1 <<< button.index) ≠ 0

/-- Put a button down. -/
def press (s : InputState) (button : PadButton) : InputState :=
  { s with padButtons := s.padButtons ||| (1 <<< button.index) }

/-- The position of an axis. -/
def axis (s : InputState) (i : PadAxis) : Int16 := s.padAxes.get i.index

/-- Move an axis. -/
def setAxis (s : InputState) (i : PadAxis) (v : Int16) : InputState :=
  { s with padAxes := s.padAxes.set i.index v }

variable (s : InputState) (button : PadButton) (i j : PadAxis) (v : Int16)

@[simp]
theorem axis_press : (s.press button).axis i = s.axis i := rfl

theorem axis_setAxis : (s.setAxis i v).axis j = if i = j then v else s.axis j := by
  have hindex : (i.index : ℕ) = j.index ↔ i = j := by rw [Fin.val_inj, PadAxis.index_inj]
  show (s.padAxes.set i.index v)[(j.index : ℕ)] = _
  rw [Vector.getElem_set]
  simp only [hindex]
  rfl

end InputState

end RetroPark
