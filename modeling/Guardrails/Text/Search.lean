/-!
# Searching, splitting and trimming text

Substrings, the first and the last place of something, the pieces between separators, and white space, over lists
of characters, with a face over `String` where texts are whole.
-/

namespace Guardrails.Text

/-! ## Substrings -/

/-- The text before and after the first occurrence of `mark`. -/
def cut? (mark : List Char) : List Char → Option (List Char × List Char)
  | [] => if mark.isEmpty then some ([], []) else none
  | c :: rest =>
    if mark.isPrefixOf (c :: rest) then some ([], (c :: rest).drop mark.length)
    else (cut? mark rest).map fun (before, after) => (c :: before, after)

def contains (text needle : String) : Bool :=
  (cut? needle.toList text.toList).isSome

def startsWith (text start : String) : Bool :=
  start.toList.isPrefixOf text.toList

def endsWith (text ending : String) : Bool :=
  ending.toList.isSuffixOf text.toList

/-- What follows `start`, when the text starts with it. -/
def afterStart? (start text : List Char) : Option (List Char) :=
  if start.isPrefixOf text then some (text.drop start.length) else none

/-- What is left when `start` was taken off the front as often as it stands there. -/
def dropEach (start text : List Char) : List Char :=
  if _ : start ≠ [] ∧ start <+: text then dropEach start (text.drop start.length) else text
termination_by text.length
decreasing_by
  rename_i h
  have := List.length_pos_iff.2 h.1
  have := h.2.length_le
  grind

/-! ## Single characters -/

def cutFirst? (c : Char) (text : List Char) : Option (List Char × List Char) :=
  if c ∈ text then some (text.takeWhile (· != c), (text.dropWhile (· != c)).drop 1) else none

def cutLast? (c : Char) (text : List Char) : Option (List Char × List Char) :=
  (cutFirst? c text.reverse).map fun (after, before) => (before.reverse, after.reverse)

/-- The pieces between the separators; one more than there are separators. -/
def splitChars (separator : Char) : List Char → List (List Char)
  | [] => [[]]
  | c :: rest =>
    match splitChars separator rest with
    | [] => [[c]]
    | piece :: pieces => if c = separator then [] :: piece :: pieces else (c :: piece) :: pieces

theorem splitChars_ne_nil (separator : Char) (s : List Char) : splitChars separator s ≠ [] := by
  cases s with
  | nil => simp [splitChars]
  | cons c rest => unfold splitChars; split <;> simp; split <;> simp

@[simp]
theorem splitChars_cons_self (separator : Char) (rest : List Char) :
    splitChars separator (separator :: rest) = [] :: splitChars separator rest := by
  rw [splitChars]
  split
  · rename_i hrest
    exact absurd hrest (splitChars_ne_nil separator rest)
  · rename_i hrest
    rw [if_pos rfl, hrest]

theorem exists_splitChars_cons_of_ne {separator c : Char} (h : c ≠ separator) (rest : List Char) :
    ∃ piece pieces, splitChars separator rest = piece :: pieces ∧
      splitChars separator (c :: rest) = (c :: piece) :: pieces := by
  rw [splitChars]
  split
  · rename_i hrest
    exact absurd hrest (splitChars_ne_nil separator rest)
  · rename_i piece pieces hrest
    exact ⟨piece, pieces, hrest, if_neg h⟩

/-- The piece with this number, counted from 0, found without the pieces behind it. -/
def piece? (separator : Char) : Nat → List Char → Option (List Char)
  | 0, text => some (text.takeWhile (· != separator))
  | n + 1, text =>
    match text.dropWhile (· != separator) with
    | [] => none
    | _ :: rest => piece? separator n rest

theorem piece?_cons_of_ne {separator c : Char} (h : c ≠ separator) (n : Nat) (rest : List Char) :
    piece? separator n (c :: rest) =
      if n = 0 then (piece? separator 0 rest).map (c :: ·) else piece? separator n rest := by
  cases n <;> simp [piece?, h]

theorem piece?_eq_getElem? (separator : Char) (n : Nat) (text : List Char) :
    piece? separator n text = (splitChars separator text)[n]? := by
  induction text generalizing n with
  | nil => cases n <;> simp [piece?, splitChars]
  | cons c rest ih =>
    by_cases hc : c = separator
    · subst hc
      cases n <;> simp [piece?, ih]
    · obtain ⟨piece, pieces, hrest, hsplit⟩ := exists_splitChars_cons_of_ne hc rest
      rw [piece?_cons_of_ne hc, ih, ih, hrest, hsplit]
      cases n <;> simp

def split (separator : Char) (text : String) : List String :=
  (splitChars separator text.toList).map String.ofList

theorem split_ne_nil {separator : Char} (text : String) : split separator text ≠ [] := by
  unfold split
  simpa using splitChars_ne_nil separator text.toList

/-! ## White space -/

/-- The characters with the Unicode property White_Space. -/
def isBlank (c : Char) : Bool :=
  let n := c.toNat
  (0x09 ≤ n && n ≤ 0x0D) || n == 0x20 || n == 0x85 || n == 0xA0 || n == 0x1680 ||
    (0x2000 ≤ n && n ≤ 0x200A) || n == 0x2028 || n == 0x2029 || n == 0x202F || n == 0x205F ||
    n == 0x3000

def trimLeft (s : List Char) : List Char :=
  s.dropWhile isBlank

def trimRight (s : List Char) : List Char :=
  (s.reverse.dropWhile isBlank).reverse

def trimChars (s : List Char) : List Char :=
  trimRight (trimLeft s)

def trim (s : String) : String :=
  String.ofList (trimChars s.toList)

def trimEnd (s : String) : String :=
  String.ofList (trimRight s.toList)

end Guardrails.Text
