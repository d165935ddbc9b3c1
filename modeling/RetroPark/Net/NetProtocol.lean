import RetroPark.Abi
import RetroPark.Support.Duplex

/-!
# Session messages

The two sides of a session and the two messages a running session exchanges, `Input` and `Checksum`,
after decoding. Anything else that arrives (a handshake message, or bytes no decoder accepts) is
skipped by both kinds of session, and is `other` here. Frame numbers are natural numbers: a session
would have to run for `2 ^ 64` frames to exceed the wire's field.
-/

namespace RetroPark.Net

/-- `rp::net::Input`. -/
structure Input where
  frame : ℕ
  port : UInt8
  state : InputState
  deriving DecidableEq

/-- `rp::net::Checksum`. -/
structure Checksum where
  frame : ℕ
  crc : UInt32
  deriving DecidableEq

/-- A message as a session reads it off its transport. -/
inductive Message
  | input (m : Input)
  | checksum (m : Checksum)
  | other
  deriving DecidableEq

/-! ### The two sides -/

/-- The side that hosts the session. -/
abbrev host : Duplex.Side := .left

/-- The side that joins it. -/
abbrev join : Duplex.Side := .right

/-- Whether a side is the host. -/
def isHost : Duplex.Side → Bool
  | .left => true
  | .right => false

/-- The port a side plays on. -/
def portOf : Duplex.Side → UInt32
  | .left => 0
  | .right => 1

/-- The inputs of port 0 and port 1 in frame `k`, given the inputs of each side. -/
def ports (inp : Duplex.Side → ℕ → InputState) (k : ℕ) : InputState × InputState :=
  (inp host k, inp join k)

end RetroPark.Net
