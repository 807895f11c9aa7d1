import Guardrails.Toml.Value

/-!
# Numbers in TOML
-/

namespace Guardrails.Toml

/-! ## Digits -/

/-- Digits, between which single underscores may stand. -/
def digitsWith (isDigit : Char → Bool) : Reader (List Char)
  | c :: '_' :: rest =>
    if isDigit c then (digitsWith isDigit rest).map fun (ds, rest) => (c :: ds, rest) else none
  | c :: rest =>
    if isDigit c then
      match rest with
      | next :: _ =>
        if isDigit next then (digitsWith isDigit rest).map fun (ds, rest) => (c :: ds, rest)
        else some ([c], rest)
      | [] => some ([c], [])
    else none
  | [] => none

def sign : List Char → Bool × List Char
  | '-' :: rest => (true, rest)
  | '+' :: rest => (false, rest)
  | text => (false, text)

/-- The digits of a decimal number, which do not start with a zero unless that is all. -/
def decimalDigits : Reader (List Char)
  | '0' :: rest => some (['0'], rest)
  | text => digitsWith Char.isDigit text

/-! ## Integers -/

/-- An integer of 64 bits. -/
def bounded? (n : Int) : Option Value :=
  if -9223372036854775808 ≤ n && n ≤ 9223372036854775807 then some (.integer n) else none

def inBase (base : Nat) (isDigit : Char → Bool) : Reader Value := fun text => do
  let (digits, rest) ← digitsWith isDigit text
  return (← bounded? (valueOf base digits), rest)

def integer : Reader Value
  | '0' :: 'x' :: rest => inBase 16 (fun c => (hexDigit? c).isSome) rest
  | '0' :: 'o' :: rest => inBase 8 (fun c => '0' ≤ c && c ≤ '7') rest
  | '0' :: 'b' :: rest => inBase 2 (fun c => c == '0' || c == '1') rest
  | text => do
    let (isNegative, text) := sign text
    let (digits, rest) ← decimalDigits text
    let n : Int := valueOf 10 digits
    return (← bounded? (if isNegative then -n else n), rest)

/-! ## Floating point numbers -/

def fraction? : List Char → Option (Option (List Char) × List Char)
  | '.' :: rest => (digitsWith Char.isDigit rest).map fun (ds, rest) => (some ds, rest)
  | text => some (none, text)

def exponent? (text : List Char) : Option (Option Int × List Char) :=
  match text with
  | c :: rest =>
    if c == 'e' || c == 'E' then
      let (isNegative, rest) := sign rest
      (digitsWith Char.isDigit rest).map fun (ds, rest) =>
        let n : Int := valueOf 10 ds
        (some (if isNegative then -n else n), rest)
    else some (none, text)
  | [] => some (none, text)

/-- The number nearest to `digits * 10 ^ exponent`, where what is out of range is told apart early. -/
def nearest (digits : Nat) (exponent : Int) : Float :=
  let leading : Int := (Nat.toDigits 10 digits).length + exponent
  if digits = 0 || leading < -400 then 0.0
  else if leading > 400 then 1.0 / 0.0
  else match exponent with
    | .ofNat e => Float.ofScientific digits false e
    | .negSucc e => Float.ofScientific digits true (e + 1)

/-- A number with a fraction, an exponent or both. One too large is refused, unless it is negative. -/
def decimalFloat : Reader Value := fun text => do
  let (isNegative, text) := sign text
  let (whole, text) ← decimalDigits text
  let (fraction?, text) ← fraction? text
  let (exponent?, rest) ← exponent? text
  if fraction?.isNone && exponent?.isNone then none
  else
    let fraction := fraction?.getD []
    let x := nearest (valueOf 10 (whole ++ fraction)) (exponent?.getD 0 - fraction.length)
    if isNegative then some (.float (-x), rest)
    else if x.isInf then none else some (.float x, rest)

def specialFloat : Reader Value := fun text =>
  let (isNegative, text) := sign text
  let signed := fun x : Float => if isNegative then -x else x
  match text with
  | 'i' :: 'n' :: 'f' :: rest => some (.float (signed (1.0 / 0.0)), rest)
  | 'n' :: 'a' :: 'n' :: rest => some (.float (signed (0.0 / 0.0)), rest)
  | _ => none

def number : Reader Value := fun text =>
  if Moment.starts text then
    (Moment.read .document text).map fun (m, rest) => (.datetime m, rest)
  else
    let (_, unsigned) := sign text
    match unsigned.dropWhile fun c => c.isDigit || c == '_' with
    | 'i' :: _ | 'n' :: _ => specialFloat text
    | '.' :: _ | 'e' :: _ | 'E' :: _ => decimalFloat text
    | _ => integer text

end Guardrails.Toml
