import Guardrails.Json.Value

/-!
# Reading JSON

A text is read as one value, with nothing but blanks around it.
-/

namespace Guardrails.Json

/-- Takes a value off the front of a text. -/
abbrev Reader (α : Type) := List Char → Option (α × List Char)

namespace Reader

def isBlank (c : Char) : Bool :=
  c == ' ' || c == '\t' || c == '\n' || c == '\r'

def dropBlanks (text : List Char) : List Char :=
  text.dropWhile isBlank

/-! ## Numbers -/

def digits : Reader (List Char) := fun text =>
  let ds := text.takeWhile Char.isDigit
  if ds.isEmpty then none else some (ds, text.dropWhile Char.isDigit)

/-- A number without its sign: digits that do not start with a zero unless that is all. -/
def whole : Reader (List Char)
  | '0' :: c :: rest => if c.isDigit then none else some (['0'], c :: rest)
  | text => digits text

def fraction : Reader (List Char)
  | '.' :: rest => (digits rest).map fun (ds, rest) => ('.' :: ds, rest)
  | text => some ([], text)

def exponent : Reader (List Char)
  | c :: rest =>
    if c == 'e' || c == 'E' then
      let sign := (rest.take 1).filter fun d => d == '+' || d == '-'
      (digits (rest.drop sign.length)).map fun (ds, rest) => (c :: sign ++ ds, rest)
    else some ([], c :: rest)
  | [] => some ([], [])

/-- What a number without a fraction or an exponent can be at most, to be a natural one. -/
def maxNatural : Nat := Nat.pow 2 64 - 1

def number : Reader Json := fun text => do
  let (sign, text) := match text with
    | '-' :: rest => (['-'], rest)
    | _ => ([], text)
  let (ds, text) ← whole text
  let (fraction, text) ← fraction text
  let (exponent, rest) ← exponent text
  let n := ds.foldl (fun n c => 10 * n + (c.toNat - '0'.toNat)) 0
  if sign.isEmpty && fraction.isEmpty && exponent.isEmpty && n ≤ maxNatural then
    return (.natural n, rest)
  else return (.number (String.ofList (sign ++ ds ++ fraction ++ exponent)), rest)

/-! ## Strings -/

/-- A piece of a string: a character, or a unit of 16 bits written as an escape. -/
inductive Piece
  | char (c : Char)
  | unit (n : Nat)

def hexDigit? (c : Char) : Option Nat :=
  if c.isDigit then some (c.toNat - '0'.toNat)
  else if 'a' ≤ c && c ≤ 'f' then some (c.toNat - 'a'.toNat + 10)
  else if 'A' ≤ c && c ≤ 'F' then some (c.toNat - 'A'.toNat + 10)
  else none

def unitOf? (hex : List Char) : Option Nat :=
  hex.foldl (fun n? c => do return 16 * (← n?) + (← hexDigit? c)) (some 0)

def escaped? : Char → Option Char
  | '"' => some '"'
  | '\\' => some '\\'
  | '/' => some '/'
  | 'b' => some '\x08'
  | 'f' => some '\x0c'
  | 'n' => some '\n'
  | 'r' => some '\r'
  | 't' => some '\t'
  | _ => none

/-- Puts a piece in front of those that are read, if there is one. -/
def consTo? (p? : Option Piece) (read? : Option (List Piece × List Char)) :
    Option (List Piece × List Char) :=
  match p?, read? with
  | some p, some (ps, rest) => some (p :: ps, rest)
  | _, _ => none

def pieces : Reader (List Piece)
  | '"' :: rest => some ([], rest)
  | '\\' :: 'u' :: a :: b :: c :: d :: rest =>
    consTo? ((unitOf? [a, b, c, d]).map .unit) (pieces rest)
  | '\\' :: c :: rest => consTo? ((escaped? c).map .char) (pieces rest)
  | c :: rest => if c < ' ' then none else consTo? (some (.char c)) (pieces rest)
  | [] => none

def isHighHalf (n : Nat) : Bool := 0xD800 ≤ n && n < 0xDC00
def isLowHalf (n : Nat) : Bool := 0xDC00 ≤ n && n < 0xE000

/-- The characters that the pieces stand for, if the halves of surrogate pairs come in pairs. -/
def charsOf? : List Piece → Option (List Char)
  | [] => some []
  | .char c :: rest => (charsOf? rest).map (c :: ·)
  | .unit n :: rest =>
    if isHighHalf n then
      match rest with
      | .unit m :: rest =>
        if isLowHalf m then
          (charsOf? rest).map (Char.ofNat (0x10000 + (n - 0xD800) * 0x400 + (m - 0xDC00)) :: ·)
        else none
      | _ => none
    else if isLowHalf n then none
    else (charsOf? rest).map (Char.ofNat n :: ·)

def string : Reader Json := fun text =>
  (pieces text).map fun (ps, rest) =>
    match charsOf? ps with
    | some cs => (.string (String.ofList cs), rest)
    | none => (.brokenString, rest)

def key : Reader String
  | '"' :: text =>
    match string text with
    | some (.string k, rest) =>
      match dropBlanks rest with
      | ':' :: rest => some (k, rest)
      | _ => none
    | _ => none
  | _ => none

/-! ## Values -/

/-- What follows the word, when the text starts with it. -/
def word (w : String) (j : Json) : Reader Json := fun text =>
  if w.toList.isPrefixOf text then some (j, text.drop w.length) else none

mutual

def valueWith : Nat → Reader Json
  | 0, _ => none
  | fuel + 1, text =>
    match dropBlanks text with
    | '"' :: rest => string rest
    | '[' :: rest =>
      match dropBlanks rest with
      | ']' :: rest => some (.array [], rest)
      | rest => (itemsWith fuel rest).map fun (items, rest) => (.array items, rest)
    | '\x7b' :: rest =>
      match dropBlanks rest with
      | '\x7d' :: rest => some (.object [], rest)
      | rest => (entriesWith fuel rest).map fun (entries, rest) => (.object entries, rest)
    | 't' :: rest => word "rue" (.boolean true) rest
    | 'f' :: rest => word "alse" (.boolean false) rest
    | 'n' :: rest => word "ull" .null rest
    | text => number text

def itemsWith : Nat → Reader (List Json)
  | 0, _ => none
  | fuel + 1, text =>
    match valueWith fuel text with
    | some (j, rest) =>
      match dropBlanks rest with
      | ']' :: rest => some ([j], rest)
      | ',' :: rest => (itemsWith fuel rest).map fun (js, rest) => (j :: js, rest)
      | _ => none
    | none => none

def entriesWith : Nat → Reader (List (String × Json))
  | 0, _ => none
  | fuel + 1, text =>
    match key (dropBlanks text) with
    | some (k, rest) =>
      match valueWith fuel rest with
      | some (j, rest) =>
        match dropBlanks rest with
        | '\x7d' :: rest => some ([(k, j)], rest)
        | ',' :: rest => (entriesWith fuel rest).map fun (es, rest) => ((k, j) :: es, rest)
        | _ => none
      | none => none
    | none => none

end

end Reader

/-- The value that a text spells. Each item takes up a character and each bracket too, so there is always
fuel enough. -/
def ofText? (text : String) : Option Json :=
  let chars := text.toList
  match Reader.valueWith (2 * chars.length + 2) chars with
  | some (j, rest) => if (Reader.dropBlanks rest).isEmpty then some j else none
  | none => none

end Guardrails.Json
