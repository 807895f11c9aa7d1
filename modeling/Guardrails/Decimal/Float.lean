/-!
# The text of floating point numbers

The shortest decimal that reads back as a given binary floating point number, and of those the nearest.
The search is exact: for a growing number of digits it tries the two neighbours of the number on the grid
of decimals with so many digits.

Numbers are always written so that one sees that they are no integers: with a point, or in exponent form where they are
very large or very small.
-/

namespace Guardrails.Decimal

/-- The decimal `digits * 10 ^ exponent`. -/
structure Scaled where
  digits : Nat
  exponent : Int
  deriving DecidableEq, Repr

/-- The fraction `numerator / denominator`. -/
structure Fraction where
  numerator : Nat
  denominator : Nat

namespace Fraction

def le (a b : Fraction) : Bool :=
  a.numerator * b.denominator ≤ b.numerator * a.denominator

def lt (a b : Fraction) : Bool :=
  a.numerator * b.denominator < b.numerator * a.denominator

def distance (a b : Fraction) : Fraction :=
  let x := a.numerator * b.denominator
  let y := b.numerator * a.denominator
  ⟨x - y + (y - x), a.denominator * b.denominator⟩

/-- `n * base ^ exponent`. -/
def power (n base : Nat) (exponent : Int) : Fraction :=
  match exponent with
  | .ofNat e => ⟨n * base.pow e, 1⟩
  | .negSucc e => ⟨n, base.pow (e + 1)⟩

end Fraction

def Scaled.toFraction (d : Scaled) : Fraction :=
  .power d.digits 10 d.exponent

/-! ## Binary numbers -/

/-- A positive number `mantissa * 2 ^ exponent` with the numbers that are rounded to it. -/
structure Rounded where
  value : Fraction
  low : Fraction
  high : Fraction
  /-- Whether the two ends are rounded to it as well. -/
  hasEnds : Bool

def Rounded.holds (r : Rounded) (x : Fraction) : Bool :=
  if r.hasEnds then r.low.le x && x.le r.high else r.low.lt x && x.lt r.high

/-- The number with these biased exponent and fraction bits, where `exponent` is not the largest. -/
def Rounded.ofBits (exponent fraction : Nat) : Rounded :=
  let mantissa := if exponent = 0 then fraction else fraction + Nat.pow 2 52
  let q : Int := (if exponent = 0 then 1 else exponent : Nat) - 1075
  -- Just below a power of two the numbers lie twice as close.
  let below := if fraction = 0 && 1 < exponent then 1 else 2
  ⟨.power (4 * mantissa) 2 (q - 2), .power (4 * mantissa - below) 2 (q - 2),
    .power (4 * mantissa + 2) 2 (q - 2), mantissa % 2 = 0⟩

/-! ## The search -/

/-- How many powers of ten a fraction below 1 has to be multiplied by to reach 1. -/
def leadingZeros (x : Fraction) : Nat → Nat
  | 0 => 0
  | fuel + 1 =>
    if x.denominator ≤ x.numerator then 0
    else leadingZeros ⟨10 * x.numerator, x.denominator⟩ fuel + 1

def leadingExponent (x : Fraction) : Int :=
  if x.denominator ≤ x.numerator then
    (Nat.toDigits 10 (x.numerator / x.denominator)).length - 1
  else -(leadingZeros x 400)

/-- The neighbours of a number on the grid of the multiples of `10 ^ exponent`. -/
def neighbours (x : Fraction) (exponent : Int) : Scaled × Scaled :=
  let n := match exponent with
    | .ofNat e => x.numerator / (x.denominator * Nat.pow 10 e)
    | .negSucc e => x.numerator * Nat.pow 10 (e + 1) / x.denominator
  (⟨n, exponent⟩, ⟨n + 1, exponent⟩)

/-- The neighbour with that exponent that reads back, the nearer one if both do. -/
def hit? (r : Rounded) (exponent : Int) : Option Scaled :=
  let (below, above) := neighbours r.value exponent
  match r.holds below.toFraction, r.holds above.toFraction with
  | true, true =>
    if (r.value.distance above.toFraction).lt (r.value.distance below.toFraction) then some above
    else some below
  | true, false => some below
  | false, true => some above
  | false, false => none

/-- The shortest decimal that reads back. Seventeen digits always do. -/
def shortest (r : Rounded) : Scaled :=
  let leading := leadingExponent r.value
  ((List.range 17).findSome? fun n : Nat => hit? r (leading - n)).getD (neighbours r.value (leading - 16)).1

/-! ## Texts -/

/-- Without the zeros at its end, which count in the exponent instead. -/
def dropZeros (digits : List Char) (exponent : Int) : List Char × Int :=
  let kept := (digits.reverse.dropWhile (· == '0')).reverse
  (kept, exponent + (digits.length - kept.length : Nat))

/-- Positional form, with a digit on either side of the point. -/
def positional (digits : List Char) (exponent : Int) : List Char :=
  let point : Int := digits.length + exponent
  if 0 < point then
    let padded := digits ++ List.replicate (point.toNat - digits.length) '0'
    let fraction := padded.drop point.toNat
    padded.take point.toNat ++ '.' :: (if fraction.isEmpty then ['0'] else fraction)
  else '0' :: '.' :: (List.replicate (-point).toNat '0' ++ digits)

/-- Exponent form, with one digit before the point and no point behind a single digit. -/
def scientific (digits : List Char) (exponent : Int) : List Char :=
  (match digits with
    | first :: second :: rest => first :: '.' :: second :: rest
    | single => single) ++
    'e' :: (toString (digits.length + exponent - 1)).toList

/-- Positional form is used from `0.0001` to below `10 ^ 16`. -/
def isPositional (digits : List Char) (exponent : Int) : Bool :=
  let leading : Int := digits.length + exponent - 1
  leading ≥ -4 && leading < 16

def magnitude (d : Scaled) : List Char :=
  let (digits, exponent) := dropZeros (Nat.toDigits 10 d.digits) d.exponent
  if isPositional digits exponent then positional digits exponent else scientific digits exponent

def ofBits (bits : Nat) : String :=
  let exponent := bits / Nat.pow 2 52 % Nat.pow 2 11
  let fraction := bits % Nat.pow 2 52
  let sign := if bits / Nat.pow 2 63 = 1 then "-" else ""
  if exponent = Nat.pow 2 11 - 1 then if fraction = 0 then sign ++ "inf" else "NaN"
  else if exponent = 0 && fraction = 0 then sign ++ "0.0"
  else sign ++ String.ofList (magnitude (shortest (.ofBits exponent fraction)))

def ofFloat (x : Float) : String :=
  ofBits x.toBits.toNat

end Guardrails.Decimal
