import Guardrails.Syntax.Focus
import Guardrails.Violation

/-!
# Cursors

A cursor stands at one place of a tree and moves on in document order: down to the first child, or along to
the next sibling, or up until there is one. It counts on the way how deep it is.

A cursor is what looks for the first defect of a tree, where the tree shows that its text is not well formed.
-/

namespace Guardrails

namespace Focus

def firstChild? (f : Focus) : Option Focus :=
  match f.node.children with
  | [] => none
  | child :: _ => some ⟨child, ⟨f.node, 0⟩ :: f.trail⟩

/-- The next sibling of the node that the edge leads to. -/
def siblingOn? (edge : Edge) (rest : List Edge) : Option Focus :=
  edge.parent.children[edge.index + 1]?.map fun sibling =>
    ⟨sibling, ⟨edge.parent, edge.index + 1⟩ :: rest⟩

/-! ## What lies ahead -/

/-- The number of nodes behind the ones on a trail, in document order. -/
def sizeAfter : List Edge → Nat
  | [] => 0
  | edge :: rest => Node.sizes (edge.parent.children.drop (edge.index + 1)) + sizeAfter rest

/-- The number of nodes from a focus on, in document order. -/
def sizeFrom (f : Focus) : Nat :=
  f.node.size + sizeAfter f.trail

theorem sizeFrom_of_firstChild? {f child : Focus} (h : f.firstChild? = some child) :
    child.sizeFrom < f.sizeFrom := by
  unfold firstChild? at h
  split at h
  · simp at h
  · rename_i n rest hchildren
    simp only [Option.some.injEq] at h
    subst h
    rw [sizeFrom, sizeFrom, sizeAfter, Node.size_eq f.node, hchildren]
    simp only [Nat.zero_add, List.drop_succ_cons, List.drop_zero, Node.sizes]
    omega

theorem sizeFrom_of_siblingOn? {edge : Edge} {rest : List Edge} {sibling : Focus}
    (h : siblingOn? edge rest = some sibling) : sibling.sizeFrom = sizeAfter (edge :: rest) := by
  simp only [siblingOn?, Option.map_eq_some_iff] at h
  obtain ⟨n, hn, rfl⟩ := h
  obtain ⟨hlt, hget⟩ := List.getElem?_eq_some_iff.1 hn
  simp only [sizeFrom, sizeAfter, List.drop_eq_getElem_cons hlt, hget, Node.sizes]
  omega

end Focus

/-- A place in a tree, with its depth as it was counted on the way there. -/
structure Cursor where
  focus : Focus
  depth : Nat

namespace Cursor

def start (root : Node) : Cursor := ⟨.root root, 0⟩

def firstChild? (c : Cursor) : Option Cursor :=
  c.focus.firstChild?.map (⟨·, c.depth + 1⟩)

/-- The next sibling of the node at the end of a trail, or else of the nearest node around it that has
one. -/
def onwardOn? (depth : Nat) : List Edge → Option Cursor
  | [] => none
  | edge :: rest =>
    match Focus.siblingOn? edge rest with
    | some sibling => some ⟨sibling, depth⟩
    | none => onwardOn? (depth - 1) rest

/-- The next place in document order that is not below this one. -/
def onward? (c : Cursor) : Option Cursor :=
  onwardOn? c.depth c.focus.trail

/-- The next place in document order, which is below this one only if the cursor may enter it. -/
def next? (c : Cursor) (mayEnter : Bool) : Option Cursor :=
  match if mayEnter then c.firstChild? else none with
  | some child => some child
  | none => c.onward?

theorem sizeFrom_of_onwardOn? {depth : Nat} {trail : List Edge} {d : Cursor}
    (h : onwardOn? depth trail = some d) : d.focus.sizeFrom ≤ Focus.sizeAfter trail := by
  induction trail generalizing depth with
  | nil => simp [onwardOn?] at h
  | cons edge rest ih =>
    unfold onwardOn? at h
    split at h
    · rename_i sibling hsibling
      cases h
      exact Nat.le_of_eq (Focus.sizeFrom_of_siblingOn? hsibling)
    · have := ih h
      rw [Focus.sizeAfter]
      omega

theorem sizeFrom_of_next? {c d : Cursor} {mayEnter : Bool} (h : c.next? mayEnter = some d) :
    d.focus.sizeFrom < c.focus.sizeFrom := by
  unfold next? at h
  split at h
  · rename_i child hchild
    cases h
    split at hchild
    · obtain ⟨f, hf, rfl⟩ := Option.map_eq_some_iff.1 hchild
      exact Focus.sizeFrom_of_firstChild? hf
    · simp at hchild
  · have := sizeFrom_of_onwardOn? h
    have := c.focus.node.size_pos
    rw [Focus.sizeFrom.eq_def c.focus]
    omega

end Cursor

/-! ## Defects -/

def Node.isDefect (n : Node) : Bool :=
  n.isError || n.isMissing

/-- The first defect that a cursor comes to, which enters no node that is not marked as holding an error. -/
def Cursor.firstDefect? (c : Cursor) : Option Focus :=
  if c.focus.node.isDefect then some c.focus
  else match _ : c.next? c.focus.node.hasError with
    | some next => next.firstDefect?
    | none => none
termination_by c.focus.sizeFrom
decreasing_by
  rename_i h
  exact sizeFrom_of_next? h

/-- The first defect of a tree in document order. -/
def Node.firstDefect? (root : Node) : Option Node :=
  (Cursor.start root).firstDefect?.map (·.node)

/-- The failure for a tree that holds an error, which points at its first defect if there is one. -/
def ParseFailure.ofTree? (file : Path) (source : Source) (root : Node) : Option ParseFailure :=
  if root.hasError then
    some <| match root.firstDefect? with
      | some n =>
        let position := source.positionOf n
        let what := if n.isMissing then "missing `" ++ n.kind ++ "`" else "unexpected syntax"
        ⟨file, s!"{what} at line {position.line}, column {position.reportColumn}",
          some position.line, some position.reportColumn⟩
      | none => ⟨file, "syntax error", none, none⟩
  else none

/-- The failure for a text that no tree was made of. -/
def ParseFailure.withoutTree (file : Path) : ParseFailure :=
  ⟨file, "parser produced no tree", none, none⟩

end Guardrails
