import Guardrails.Text.Search

/-!
# Source text

The text of one file, addressed the way syntax trees and reports address it: by byte offsets in its
UTF-8 form, and by lines and columns.
-/

namespace Guardrails

structure Source where
  text : String
  deriving Inhabited

/-- A row and a column counted from 0; the column counts bytes. -/
structure Position where
  row : Nat
  column : Nat
  deriving DecidableEq, Repr

namespace Position

/-- The row as reports count it, from 1. -/
def line (p : Position) : Nat := p.row + 1

/-- The column as reports count it, from 1. -/
def reportColumn (p : Position) : Nat := p.column + 1

end Position

namespace Source

/-! ## Lines -/

/-- The pieces of the text between newlines; one more than there are newlines. -/
def segments (s : Source) : List (List Char) :=
  Text.splitChars '\n' s.text.toList

def dropReturn (line : List Char) : List Char :=
  if line.getLast? = some '\r' then line.dropLast else line

/-- The text of a line, counted from 1, without its terminator. -/
def lineText? (s : Source) : Nat → Option String
  | 0 => none
  | n + 1 => (Text.piece? '\n' n s.text.toList).map fun line => String.ofList (dropReturn line)

theorem lineText?_succ (s : Source) (n : Nat) :
    s.lineText? (n + 1) = s.segments[n]?.map fun line => String.ofList (dropReturn line) := by
  rw [lineText?, Text.piece?_eq_getElem?, segments]

/-- A carriage return is part of a terminator only where a newline follows it. -/
def linesOf : List (List Char) → List (List Char)
  | [] => []
  | [last] => if last.isEmpty then [] else [last]
  | line :: rest => dropReturn line :: linesOf rest

/-- The lines of the text. A newline at its end opens no further line. -/
def lines (s : Source) : List String :=
  (linesOf s.segments).map String.ofList

def lineCount (s : Source) : Nat :=
  (linesOf s.segments).length

/-! ## Offsets -/

def byteLength : List Char → Nat
  | [] => 0
  | c :: rest => c.utf8Size + byteLength rest

def byteCount (s : Source) : Nat :=
  byteLength s.text.toList

/-- Where a line starts, when the lines before it and their newlines are counted. -/
def startAfter : List (List Char) → Nat
  | [] => 0
  | line :: rest => byteLength line + 1 + startAfter rest

/-- The offset of a line and a column, both counted from 1, and 0 where there is no such line. -/
def offsetAt (s : Source) : Nat → Nat → Nat
  | 0, _ => 0
  | n + 1, column =>
    if n < s.segments.length then startAfter (s.segments.take n) + (column - 1) else 0

/-- The position that is reached from `p` after `offset` more bytes. -/
def advance (p : Position) : Nat → List Char → Position
  | 0, _ => p
  | offset + 1, [] => ⟨p.row, p.column + offset + 1⟩
  | offset + 1, c :: rest =>
    if c = '\n' then advance ⟨p.row + 1, 0⟩ offset rest
    else if c.utf8Size ≤ offset + 1 then
      advance ⟨p.row, p.column + c.utf8Size⟩ (offset + 1 - c.utf8Size) rest
    else ⟨p.row, p.column + offset + 1⟩

def positionAt (s : Source) (offset : Nat) : Position :=
  advance ⟨0, 0⟩ offset s.text.toList

/-! ## Slices -/

/-- Why a range of bytes is no text: it starts, or it ends, inside a character. -/
inductive Undecodable
  | startsInside
  | endsInside (index : Nat)
  deriving DecidableEq, Repr

def Undecodable.message : Undecodable → String
  | startsInside => "invalid utf-8 sequence of 1 bytes from index 0"
  | endsInside index => s!"incomplete utf-8 byte sequence from index {index}"

def isContinuation (b : UInt8) : Bool :=
  0x80 ≤ b && b < 0xC0

def slice (s : Source) (start stop : Nat) : Except Undecodable String :=
  let bytes := s.text.toUTF8.extract start stop
  match String.fromUTF8? bytes with
  | some text => .ok text
  | none =>
    if bytes.data[0]?.any isContinuation then .error .startsInside
    else
      let tail := bytes.data.toList.reverse.takeWhile isContinuation
      .error (.endsInside (bytes.size - tail.length - 1))

end Source
end Guardrails
