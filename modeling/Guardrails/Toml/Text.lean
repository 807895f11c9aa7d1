/-!
# Texts in TOML

Blanks and comments, keys, and the four kinds of strings. A reader takes what it reads off the front of the
text and hands back the rest, and there is none where the text does not start with what it reads.
-/

namespace Guardrails.Toml

/-- Takes a value off the front of a text. -/
abbrev Reader (α : Type) := List Char → Option (α × List Char)

/-! ## Blanks, comments and line ends -/

def isBlank (c : Char) : Bool :=
  c == ' ' || c == '\t'

def dropBlanks (text : List Char) : List Char :=
  text.dropWhile isBlank

/-- The characters of comments and strings: no control characters but the tab. -/
def isPlain (c : Char) : Bool :=
  c == '\t' || (' ' ≤ c && c ≤ '~') || '\x80' ≤ c

def newline? : List Char → Option (List Char)
  | '\n' :: rest => some rest
  | '\r' :: '\n' :: rest => some rest
  | _ => none

def dropComment : List Char → List Char
  | '#' :: rest => rest.dropWhile isPlain
  | text => text

/-- What follows the end of a line, or of the text, with the comment that may stand before it. -/
def lineEnd? (text : List Char) : Option (List Char) :=
  match dropComment text with
  | [] => some []
  | rest => newline? rest

/-- What follows blanks, comments and line ends. Inside of brackets a comment does not end the text. -/
def dropLines : List Char → (isComment : Bool) → Option (List Char)
  | [], isComment => if isComment then none else some []
  | '\n' :: rest, _ => dropLines rest false
  | '\r' :: '\n' :: rest, _ => dropLines rest false
  | c :: rest, true => if isPlain c then dropLines rest true else none
  | '#' :: rest, false => dropLines rest true
  | '\r' :: _, false => none
  | c :: rest, false => if isBlank c then dropLines rest false else some (c :: rest)

/-! ## Digits and escapes -/

def hexDigit? (c : Char) : Option Nat :=
  if c.isDigit then some (c.toNat - '0'.toNat)
  else if 'a' ≤ c && c ≤ 'f' then some (c.toNat - 'a'.toNat + 10)
  else if 'A' ≤ c && c ≤ 'F' then some (c.toNat - 'A'.toNat + 10)
  else none

def valueOf (base : Nat) (digits : List Char) : Nat :=
  digits.foldl (fun n c => base * n + (hexDigit? c).getD 0) 0

def charOfHex? (digits : List Char) : Option Char := do
  let values ← digits.mapM hexDigit?
  let n := values.foldl (fun n d => 16 * n + d) 0
  if n.isValidChar then some (Char.ofNat n) else none

def escaped? : Char → Option Char
  | 'b' => some '\x08'
  | 't' => some '\t'
  | 'n' => some '\n'
  | 'f' => some '\x0c'
  | 'r' => some '\r'
  | '"' => some '"'
  | '\\' => some '\\'
  | _ => none

/-! ## Strings on one line -/

/-- Puts a character in front of what is read, if there is one. -/
def consTo? (c? : Option Char) (read? : Option (List Char × List Char)) :
    Option (List Char × List Char) :=
  match c?, read? with
  | some c, some (cs, rest) => some (c :: cs, rest)
  | _, _ => none

/-- The rest of a string in double quotes. -/
def basic : Reader (List Char)
  | '"' :: rest => some ([], rest)
  | '\\' :: 'u' :: a :: b :: c :: d :: rest => consTo? (charOfHex? [a, b, c, d]) (basic rest)
  | '\\' :: 'U' :: a :: b :: c :: d :: e :: f :: g :: h :: rest =>
    consTo? (charOfHex? [a, b, c, d, e, f, g, h]) (basic rest)
  | '\\' :: c :: rest => consTo? (escaped? c) (basic rest)
  | c :: rest => if isPlain c then consTo? (some c) (basic rest) else none
  | [] => none

/-- The rest of a string in single quotes. -/
def literal : Reader (List Char)
  | '\'' :: rest => some ([], rest)
  | c :: rest => if isPlain c then consTo? (some c) (literal rest) else none
  | [] => none

/-! ## Strings over several lines -/

def isLineEnd (text : List Char) : Bool :=
  (newline? (dropBlanks text)).isSome

/-- The rest of a string in three double quotes, where a backslash at the end of a line takes all blanks
and line ends after it away. Up to two quotes may stand before the closing ones. -/
def multiBasic (isSkipping : Bool) : Reader (List Char)
  | '"' :: '"' :: '"' :: '"' :: '"' :: rest => some (['"', '"'], rest)
  | '"' :: '"' :: '"' :: '"' :: rest => some (['"'], rest)
  | '"' :: '"' :: '"' :: rest => some ([], rest)
  | '\\' :: 'u' :: a :: b :: c :: d :: rest =>
    consTo? (charOfHex? [a, b, c, d]) (multiBasic false rest)
  | '\\' :: 'U' :: a :: b :: c :: d :: e :: f :: g :: h :: rest =>
    consTo? (charOfHex? [a, b, c, d, e, f, g, h]) (multiBasic false rest)
  | '\\' :: c :: rest =>
    if isLineEnd (c :: rest) then multiBasic true (c :: rest)
    else consTo? (escaped? c) (multiBasic false rest)
  | '\r' :: '\n' :: rest =>
    if isSkipping then multiBasic true rest else consTo? (some '\n') (multiBasic false rest)
  | c :: rest =>
    if isSkipping && (isBlank c || c == '\n') then multiBasic true rest
    else if isPlain c || c == '\n' then consTo? (some c) (multiBasic false rest)
    else none
  | [] => none

/-- The rest of a string in three single quotes. -/
def multiLiteral : Reader (List Char)
  | '\'' :: '\'' :: '\'' :: '\'' :: '\'' :: rest => some (['\'', '\''], rest)
  | '\'' :: '\'' :: '\'' :: '\'' :: rest => some (['\''], rest)
  | '\'' :: '\'' :: '\'' :: rest => some ([], rest)
  | '\r' :: '\n' :: rest => consTo? (some '\n') (multiLiteral rest)
  | c :: rest => if isPlain c || c == '\n' then consTo? (some c) (multiLiteral rest) else none
  | [] => none

/-- Without a line end at the very front. -/
def dropFirstNewline (text : List Char) : List Char :=
  (newline? text).getD text

def string : Reader String := fun text =>
  let read? := match text with
    | '"' :: '"' :: '"' :: rest => multiBasic false (dropFirstNewline rest)
    | '"' :: rest => basic rest
    | '\'' :: '\'' :: '\'' :: rest => multiLiteral (dropFirstNewline rest)
    | '\'' :: rest => literal rest
    | _ => none
  read?.map fun (cs, rest) => (String.ofList cs, rest)

/-! ## Keys -/

/-- The characters of keys without quotes. -/
def isKeyChar (c : Char) : Bool :=
  c.isAlphanum || c == '-' || c == '_'

/-- One part of a key, in quotes or not. -/
def simpleKey : Reader String
  | '"' :: rest => (basic rest).map fun (cs, rest) => (String.ofList cs, rest)
  | '\'' :: rest => (literal rest).map fun (cs, rest) => (String.ofList cs, rest)
  | text =>
    let name := text.takeWhile isKeyChar
    if name.isEmpty then none else some (String.ofList name, text.dropWhile isKeyChar)

/-- The parts of a key, for which there is room for `fuel`. Blanks may stand around each. -/
def keyParts : Nat → Reader (List String)
  | 0, _ => none
  | fuel + 1, text =>
    match simpleKey (dropBlanks text) with
    | none => none
    | some (part, rest) =>
      match dropBlanks rest with
      | '.' :: rest => (keyParts fuel rest).map fun (parts, rest) => (part :: parts, rest)
      | rest => some ([part], rest)

/-- How deep keys and values may be nested. -/
def depthLimit : Nat := 80

/-- A dotted key: the parts in front of the last one, and the last one. -/
def key : Reader (List String × String) := fun text =>
  match keyParts (depthLimit - 1) text with
  | some (parts, rest) => parts.getLast?.map fun last => ((parts.dropLast, last), rest)
  | none => none

end Guardrails.Toml
