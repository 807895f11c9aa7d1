import Guardrails.Path
import Guardrails.Text.Places

/-!
# Glob patterns

Patterns for whole paths, in which `?` stands for any character and `*` for any text, slashes included.
`**` stands for any directories and must be a whole component. `[a-c]` and `[!a-c]` stand for a character
in a set, or one outside of it.
-/

namespace Guardrails

open Text (Places)

namespace Glob

/-! ## Patterns -/

/-- Some characters of a set: those from `first` to `last`. -/
structure Range where
  first : Char
  last : Char
  deriving DecidableEq, Repr

def Range.contains (r : Range) (c : Char) : Bool :=
  r.first ≤ c && c ≤ r.last

inductive Token
  | char (c : Char)
  | anyChar
  | anyText
  /-- Any number of whole components. -/
  | anyDirectories
  | oneOf (set : List Range)
  | noneOf (set : List Range)
  deriving DecidableEq, Repr

/-- Why a pattern cannot be read. The positions count characters from 0. -/
inductive PatternError
  | tooManyStars (position : Nat)
  | partialComponent (position : Nat)
  | badSet (position : Nat)
  deriving DecidableEq, Repr

namespace PatternError

def position : PatternError → Nat
  | tooManyStars p | partialComponent p | badSet p => p

def cause : PatternError → String
  | tooManyStars _ => "wildcards are either regular `*` or recursive `**`"
  | partialComponent _ => "recursive wildcards must form a single path component"
  | badSet _ => "invalid range pattern"

def message (e : PatternError) : String :=
  s!"Pattern syntax error near position {e.position}: {e.cause}"

end PatternError

end Glob

structure Glob where
  tokens : List Glob.Token
  deriving Repr

namespace Glob

/-! ## Reading -/

/-- The ranges written between brackets. A dash counts only between two characters. -/
def rangesOf : List Char → List Range
  | first :: '-' :: last :: rest => ⟨first, last⟩ :: rangesOf rest
  | c :: rest => ⟨c, c⟩ :: rangesOf rest
  | [] => []

/-- The characters up to the closing bracket, which closes nothing where it comes first. -/
def bracketed? : List Char → Option (List Char)
  | [] => none
  | c :: rest => (Text.cutFirst? ']' rest).map fun (inside, _) => c :: inside

/-- The set behind an opening bracket, and how many characters it takes up with its closing bracket. -/
def set? (text : List Char) : Option (Token × Nat) :=
  match text with
  | '!' :: rest => (bracketed? rest).map fun inside => (.noneOf (rangesOf inside), inside.length + 2)
  | _ => (bracketed? text).map fun inside => (.oneOf (rangesOf inside), inside.length + 1)

/-- Two of these tokens in a row say no more than one, except at the very front, where they are kept. -/
def addDirectories (before : List Token) : List Token :=
  if 1 < before.length && before.head? = some .anyDirectories then before
  else .anyDirectories :: before

/-- Reads on at a position, with the tokens and the character before it, the last token first. -/
def readOn (before : List Token) (previous? : Option Char) (position : Nat) (text : List Char) :
    Except PatternError (List Token) :=
  match text with
  | [] => .ok before.reverse
  | '?' :: rest => readOn (.anyChar :: before) '?' (position + 1) rest
  | '*' :: '*' :: '*' :: _ => .error (.tooManyStars (position + 2))
  | '*' :: '*' :: rest =>
    if previous? = none ∨ previous? = some '/' then
      match rest with
      | '/' :: rest => readOn (addDirectories before) '/' (position + 3) rest
      | [] => .ok (addDirectories before).reverse
      | _ :: _ => .error (.partialComponent (position + 2))
    else .error (.partialComponent (position - 1))
  | '*' :: rest => readOn (.anyText :: before) '*' (position + 1) rest
  | '[' :: rest =>
    match set? rest with
    | some (token, length) => readOn (token :: before) ']' (position + 1 + length) (rest.drop length)
    | none => .error (.badSet position)
  | c :: rest => readOn (.char c :: before) c (position + 1) rest
termination_by text.length
decreasing_by all_goals (simp; try omega)

def ofString (text : String) : Except PatternError Glob :=
  (readOn [] none 0 text.toList).map (⟨·⟩)

/-! ## Matching -/

/-- The places of a text behind any number of whole components. The end of the text counts as one. -/
def behindDirectories (text : List Char) (places : Places) : Places :=
  let anywhere := places.steps (fun _ => true) text
  places.join ((anywhere.step (· == '/') text).join anywhere.atEnd)

def Token.behind (text : List Char) (places : Places) : Token → Places
  | .char d => places.step (· == d) text
  | .anyChar => places.step (fun _ => true) text
  | .anyText => places.steps (fun _ => true) text
  | .anyDirectories => behindDirectories text places
  | .oneOf set => places.step (fun c => set.any (·.contains c)) text
  | .noneOf set => places.step (fun c => !set.any (·.contains c)) text

def matchesText (g : Glob) (text : List Char) : Bool :=
  (g.tokens.foldl (Token.behind text) (Places.front text)).hasEnd

def isMatch (g : Glob) (p : Path) : Bool :=
  g.matchesText p.spelling.toList

end Glob
end Guardrails
