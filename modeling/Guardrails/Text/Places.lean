/-!
# Places in texts

A pattern is matched by following the places that its parts lead to. There is one place in front of each item
of a text, and one at its end. Two ways to the same place count as one, so that the work is bounded by the
length of the pattern times that of the text.
-/

namespace Guardrails.Text

/-- Whether each place of a text is reached. -/
abbrev Places := List Bool

namespace Places

variable {α : Type}

/-- Only the place in front of the text. -/
def front (text : List α) : Places :=
  true :: text.map fun _ => false

/-- The places one item further. -/
def step (accepts : α → Bool) (text : List α) (places : Places) : Places :=
  false :: List.zipWith (fun c isReached => isReached && accepts c) text places

/-- The places any number of items further, where the one at hand may be reached from before. -/
def stepsFrom (accepts : α → Bool) (isReached : Bool) : List α → Places → Places
  | _, [] => []
  | [], place :: _ => [place || isReached]
  | c :: text, place :: places =>
    (place || isReached) :: stepsFrom accepts ((place || isReached) && accepts c) text places

def steps (accepts : α → Bool) (text : List α) (places : Places) : Places :=
  stepsFrom accepts false text places

def nowhere (text : List α) : Places :=
  false :: text.map fun _ => false

def join (places others : Places) : Places :=
  List.zipWith (· || ·) places others

def hasEnd (places : Places) : Bool :=
  places.getLast? == some true

/-- Only the end, if it is reached. -/
def atEnd : Places → Places
  | [] => []
  | [place] => [place]
  | _ :: places => false :: atEnd places

end Places
end Guardrails.Text
