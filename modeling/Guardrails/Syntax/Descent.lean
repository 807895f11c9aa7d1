import Guardrails.Syntax.Cursor

/-!
# Descents

A descent hands out the places below a node one at a time, in document order. It moves a cursor that counts how
far below the node it is, and it is over once the cursor has come back up to the node. Searches inside a node
go through it.
-/

namespace Guardrails

def Focus.nextSibling? (f : Focus) : Option Focus :=
  match f.trail with
  | [] => none
  | edge :: rest => siblingOn? edge rest

/-- A cursor with its depth counted from the node that it goes through. -/
structure Descent extends Cursor where
  isOver : Bool

namespace Descent

/-- The descent into all that is strictly below a focus. -/
def below (f : Focus) : Descent := ⟨⟨f, 0⟩, false⟩

/-- Moves along to the next sibling, or up until there is one, but not out of what is below the node. -/
def climb (f : Focus) : Nat → Option Focus × Descent
  | 0 => (none, ⟨⟨f, 0⟩, true⟩)
  | depth + 1 =>
    match f.nextSibling? with
    | some sibling => (some sibling, ⟨⟨sibling, depth + 1⟩, false⟩)
    | none => climb (f.parent?.getD f) depth

/-- The next place, or none once there are no more, and the descent after it. -/
def next (d : Descent) : Option Focus × Descent :=
  if d.isOver then (none, d)
  else
    match d.firstChild? with
    | some child => (some child.focus, ⟨child, false⟩)
    | none => climb d.focus d.depth

theorem sizeFrom_of_climb {f g : Focus} {depth : Nat} {e : Descent} (h : climb f depth = (some g, e)) :
    e.focus.sizeFrom ≤ Focus.sizeAfter f.trail := by
  induction depth generalizing f with
  | zero => simp [climb] at h
  | succ depth ih =>
    obtain ⟨n, trail⟩ := f
    unfold climb at h
    cases trail with
    | nil => exact ih h
    | cons edge rest =>
      split at h
      · rename_i sibling hsibling
        cases h
        exact Nat.le_of_eq (Focus.sizeFrom_of_siblingOn? hsibling)
      · have := ih h
        simp only [Focus.parent?, Option.getD_some] at this
        rw [Focus.sizeAfter]
        omega

theorem sizeFrom_of_next {d e : Descent} {g : Focus} (h : d.next = (some g, e)) :
    e.focus.sizeFrom < d.focus.sizeFrom := by
  unfold next at h
  split at h
  · simp at h
  · split at h
    · rename_i child hchild
      cases h
      obtain ⟨f, hf, rfl⟩ := Option.map_eq_some_iff.1 hchild
      exact Focus.sizeFrom_of_firstChild? hf
    · have := sizeFrom_of_climb h
      have := d.focus.node.size_pos
      rw [Focus.sizeFrom.eq_def d.focus]
      omega

/-- All places that a descent hands out. -/
def toList (d : Descent) : List Focus :=
  match _ : d.next with
  | (none, _) => []
  | (some f, rest) => f :: rest.toList
termination_by d.focus.sizeFrom
decreasing_by
  rename_i h
  exact sizeFrom_of_next h

end Descent

/-- Every place strictly below a focus, in document order. -/
def Focus.descendants (f : Focus) : List Focus :=
  (Descent.below f).toList

end Guardrails
