import Guardrails.FileTree
import Guardrails.Ignore.Depth
import Guardrails.Text.Search

/-!
# Ignore files

An ignore file has a pattern on each line. A pattern says of the paths below the directory of the file which
ones are left out, or with a `!` in front, which ones are kept after all. The last pattern that matches
decides.
-/

namespace Guardrails.Ignore

/-- A pattern with what follows for the paths that match it. -/
structure Line where
  tokens : List Token
  /-- Whether the paths are kept, and not left out. -/
  isKept : Bool
  onlyDirectories : Bool

namespace Line

/-! ## Reading -/

/-- Without the blanks at the end. A blank behind a backslash counts, and so do those before it. -/
def trimLine (line : List Char) : List Char :=
  if ['\\', ' '].isSuffixOf line then line else Text.trimRight line

/-- The pattern without a slash at its end, or the backslash before that, and whether there was one. -/
def cutDirectory (pattern : List Char) : List Char × Bool :=
  match pattern.reverse with
  | '/' :: '\\' :: front => (front.reverse, true)
  | '/' :: front => (front.reverse, true)
  | _ => (pattern, false)

/-- The pattern for paths relative to the directory of the file. Without a slash inside it is for names at any
depth. What ends in `**` is not for the directory itself. -/
def anchor (isAnchored : Bool) (pattern : List Char) : List Char :=
  let isDeep := "**/".toList.isPrefixOf pattern || pattern == "**".toList
  let pattern := if isAnchored || pattern.contains '/' || isDeep then pattern
    else "**/".toList ++ pattern
  if "/**".toList.isSuffixOf pattern then pattern ++ "/*".toList else pattern

def ofPattern (isKept isAnchored : Bool) (pattern : List Char) : Except PatternError Line :=
  let (pattern, onlyDirectories) := cutDirectory pattern
  (readPattern (anchor isAnchored pattern)).map (⟨·, isKept, onlyDirectories⟩)

def ofTrimmed : List Char → Except PatternError Line
  | '\\' :: '!' :: rest => ofPattern false false ('!' :: rest)
  | '\\' :: '#' :: rest => ofPattern false false ('#' :: rest)
  | '!' :: '/' :: rest => ofPattern true true rest
  | '!' :: rest => ofPattern true false rest
  | '/' :: rest => ofPattern false true rest
  | pattern => ofPattern false false pattern

/-- The pattern on a line as it is written, unless the line is blank or a comment. -/
def written? (line : List Char) : Option (List Char) :=
  if line.head? = some '#' || (trimLine line).isEmpty then none else some (trimLine line)

/-! ## Matching -/

def isMatch (l : Line) (names : List String) (isDirectory : Bool) : Bool :=
  (isDirectory || !l.onlyDirectories) &&
    (patternShape l.tokens).isMatch ("/".intercalate names).toUTF8.data.toList

end Line

/-! ## Complaints -/

/-- What is wrong with an ignore file. Lines count from 1. -/
inductive Complaint
  | badPattern (line : Nat) (written : String) (e : PatternError)
  | noText (line : Nat)
  /-- A pattern goes too deep. It has this number among those that are neither simple nor have an extension. -/
  | tooDeep (number : Nat)
  deriving DecidableEq, Repr

namespace Complaint

def line? : Complaint → Option Nat
  | badPattern line _ _ | noText line => some line
  | tooDeep _ => none

def cause : Complaint → String
  | badPattern _ written e => "error parsing glob '" ++ written ++ "': " ++ e.message
  | noText _ => FileTree.Unreadable.noText.message
  | tooDeep number => s!"error parsing pattern {number}"

end Complaint

/-! ## Files -/

/-- What an ignore file says, and what is wrong with it. -/
structure IgnoreFile where
  lines : List Line
  complaints : List Complaint

namespace IgnoreFile

def empty : IgnoreFile := ⟨[], []⟩

/-- The pieces between line ends, which may have a carriage return before the newline. -/
def splitLines : List UInt8 → List (List UInt8)
  | [] => [[]]
  | 0x0A :: rest => [] :: splitLines rest
  | 0x0D :: 0x0A :: rest => [] :: splitLines rest
  | b :: rest =>
    match splitLines rest with
    | [] => [[b]]
    | line :: lines => (b :: line) :: lines

/-- What a line says, without the byte order marks at the front of the first one. -/
def readLine (number : Nat) (line : List Char) : Except Complaint (Option Line) :=
  match Line.written? (if number = 1 then line.dropWhile (· == '\uFEFF') else line) with
  | none => .ok none
  | some written =>
    match Line.ofTrimmed written with
    | .ok l => .ok (some l)
    | .error e => .error (.badPattern number (String.ofList written) e)

/-- Reads the lines from number `number` on, up to the first one that is no text. -/
def readLines (number : Nat) : List (List UInt8) → IgnoreFile
  | [] => empty
  | line :: rest =>
    match String.fromUTF8? ⟨line.toArray⟩ with
    | none => ⟨[], [.noText number]⟩
    | some text =>
      let others := readLines (number + 1) rest
      match readLine number text.toList with
      | .ok l? => { others with lines := l?.toList ++ others.lines }
      | .error c => { others with complaints := c :: others.complaints }

/-- That a file stops being text does not count as a complaint where it is the only one. -/
def settleComplaints : List Complaint → List Complaint
  | [.noText _] => []
  | cs => cs

/-- The file with nothing to say where a pattern goes too deep. -/
def checkDepth (file : IgnoreFile) : IgnoreFile :=
  let patterns := file.lines.map (·.tokens)
  let isDeep := fun tokens => depthLimit < patternDepth tokens
  if patterns.any isDeep then
    let compound := patterns.filter fun tokens => !isSimple tokens && !hasExtension tokens
    ⟨[], file.complaints ++ [.tooDeep ((compound.findIdx? isDeep).getD 0)]⟩
  else file

def ofContent (content : ByteArray) : IgnoreFile :=
  let file := readLines 1 (splitLines content.data.toList)
  checkDepth { file with complaints := settleComplaints file.complaints }

end IgnoreFile

/-! ## Verdicts -/

inductive Verdict
  | leftOut
  | kept
  deriving DecidableEq, Repr

/-- What an ignore file decides about the path with these names below its directory, if anything. -/
def verdict? (lines : List Line) (names : List String) (isDirectory : Bool) : Option Verdict :=
  (lines.reverse.find? (·.isMatch names isDirectory)).map fun l =>
    if l.isKept then .kept else .leftOut

end Guardrails.Ignore
