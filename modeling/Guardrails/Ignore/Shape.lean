import Guardrails.Text.Places

/-!
# Shapes of paths

A shape says what a piece of a path looks like, byte by byte.
-/

namespace Guardrails.Ignore

open Text (Places)

inductive Shape
  | one (accepts : UInt8 → Bool)
  | many (accepts : UInt8 → Bool)
  | sequence (parts : List Shape)
  | choice (parts : List Shape)

namespace Shape

mutual

/-- The places of a text behind a piece of this shape that starts at one of the given places. -/
def behind : Shape → List UInt8 → Places → Places
  | one accepts, text, places => places.step accepts text
  | many accepts, text, places => places.steps accepts text
  | sequence parts, text, places => behindAll parts text places
  | choice parts, text, places => behindAny parts text places

def behindAll : List Shape → List UInt8 → Places → Places
  | [], _, places => places
  | part :: parts, text, places => behindAll parts text (behind part text places)

def behindAny : List Shape → List UInt8 → Places → Places
  | [], text, _ => Places.nowhere text
  | part :: parts, text, places => (behind part text places).join (behindAny parts text places)

end

def isMatch (s : Shape) (text : List UInt8) : Bool :=
  (s.behind text (Places.front text)).hasEnd

/-! ## Building shapes -/

def empty : Shape := sequence []

def byte (b : UInt8) : Shape := one (· == b)

def ofChar (c : Char) : Shape :=
  sequence ((String.utf8EncodeChar c).map byte)

def anything : Shape := many fun _ => true

def slash : Shape := byte 0x2F

def isInName (b : UInt8) : Bool := b != 0x2F

end Shape
end Guardrails.Ignore
