import Guardrails.Proofs.Tree.Descent
import Guardrails.Proofs.Tree.Family
import Guardrails.Proofs.Tree.Tour
import Guardrails.Syntax.Cursor

/-!
# Searching for defects

The search for a defect enters only what is marked as holding an error. Where everything around a defect is marked,
it finds the one that comes first in document order, in no more rounds than the tree has nodes.
-/

namespace Guardrails

namespace Focus

theorem sizeFrom_pos (f : Focus) : 1 ≤ f.sizeFrom := by
  have := f.node.size_pos
  rw [sizeFrom]
  omega

/-! ## What is around a place -/

theorem ancestors_suffix_of_mem_subtree {f x : Focus} (h : x ∈ f.subtree) : f.ancestors <:+ x.ancestors := by
  induction f using subtree_induction with
  | h f ih =>
    rcases mem_subtree.1 h with rfl | ⟨c, hc, hx⟩
    · exact List.suffix_refl _
    · have hbelow := ih c hc hx
      rw [ancestors_of_mem_children hc] at hbelow
      exact (List.suffix_cons f f.ancestors).trans hbelow

theorem mem_ancestors_of_mem_below {f x : Focus} (h : x ∈ f.children.flatMap subtree) : f ∈ x.ancestors := by
  obtain ⟨c, hc, hx⟩ := List.mem_flatMap.1 h
  have hbelow := ancestors_suffix_of_mem_subtree hx
  rw [ancestors_of_mem_children hc] at hbelow
  exact hbelow.subset List.mem_cons_self

/-- Whether a place is the first one in a subtree that has a defect. -/
structure IsFirstDefect (root f : Focus) : Prop where
  mem : f ∈ root.subtree
  isDefect : f.node.isDefect = true
  first : ∀ g ∈ root.subtree, g.isBefore f = true → g.node.isDefect = false

theorem find?_isDefect_eq_some_iff {root f : Focus} :
    root.subtree.find? (·.node.isDefect) = some f ↔ root.IsFirstDefect f := by
  rw [find?_eq_some_iff_of_pairwise (fun _ _ h => by simp [isBefore_asymm h]) (subtree_pairwise root)]
  exact ⟨fun ⟨hmem, hdefect, hfirst⟩ => ⟨hmem, hdefect, hfirst⟩, fun h => ⟨h.mem, h.isDefect, h.first⟩⟩

end Focus

/-! ## One round of the search -/

namespace Cursor

variable {c d : Cursor}

/-- Whether everything around the defects that lie ahead is marked as holding an error. -/
def MarksAhead (c : Cursor) : Prop :=
  ∀ x ∈ c.focus.upcoming, x.node.isDefect = true → ∀ g ∈ x.ancestors, g.node.hasError = true

theorem upcoming_of_next? (c : Cursor) (mayEnter : Bool) :
    ∃ passed, c.focus.upcoming = c.focus :: (passed ++ match c.next? mayEnter with
      | some next => next.focus.upcoming
      | none => []) ∧
    ∀ x ∈ passed, mayEnter = false ∧ x ∈ c.focus.children.flatMap Focus.subtree := by
  have honward : Focus.after c.focus.trail = match c.onward? with
      | some next => next.focus.upcoming
      | none => [] := onwardOn?_eq c.depth c.focus.trail
  cases mayEnter with
  | false =>
    refine ⟨c.focus.children.flatMap Focus.subtree, ?_, fun x hx => ⟨rfl, hx⟩⟩
    rw [Focus.upcoming_eq, honward, next?_false]
  | true =>
    refine ⟨[], ?_, fun x hx => absurd hx List.not_mem_nil⟩
    rw [next?_true, firstChild?]
    cases hchild : c.focus.firstChild? with
    | none => simpa [honward] using Focus.upcoming_of_firstChild?_eq_none hchild
    | some child => simpa using Focus.upcoming_of_firstChild? hchild

/-- What is passed without being entered holds no defect if it is not marked. -/
theorem find?_upcoming (h : c.MarksAhead) (hdefect : c.focus.node.isDefect = false) :
    c.focus.upcoming.find? (·.node.isDefect) = match c.next? c.focus.node.hasError with
      | some next => next.focus.upcoming.find? (·.node.isDefect)
      | none => none := by
  obtain ⟨passed, heq, hpassed⟩ := upcoming_of_next? c c.focus.node.hasError
  have hnone : passed.find? (·.node.isDefect) = none := by
    rw [List.find?_eq_none]
    intro x hx hx'
    obtain ⟨hmark, hbelow⟩ := hpassed x hx
    have hmem : x ∈ c.focus.upcoming := by
      rw [heq]
      exact List.mem_cons_of_mem _ (List.mem_append_left _ hx)
    rw [h x hmem hx' c.focus (Focus.mem_ancestors_of_mem_below hbelow)] at hmark
    cases hmark
  rw [heq, List.find?_cons_of_neg (by simp [hdefect]), List.find?_append, hnone, Option.none_or]
  cases c.next? c.focus.node.hasError <;> rfl

theorem upcoming_subset_of_next? {mayEnter : Bool} (h : c.next? mayEnter = some d) :
    d.focus.upcoming ⊆ c.focus.upcoming := by
  obtain ⟨passed, heq, -⟩ := upcoming_of_next? c mayEnter
  rw [heq, h]
  exact fun x hx => List.mem_cons_of_mem _ (List.mem_append_right _ hx)

theorem MarksAhead.next {mayEnter : Bool} (h : c.MarksAhead) (hnext : c.next? mayEnter = some d) : d.MarksAhead :=
  fun x hx => h x (upcoming_subset_of_next? hnext hx)

/-! ## The whole search -/

theorem firstDefect?_eq (c : Cursor) :
    c.firstDefect? = if c.focus.node.isDefect then some c.focus
      else (c.next? c.focus.node.hasError).bind firstDefect? := by
  rw [firstDefect?]
  split
  · rfl
  · split <;> simp [*]

/-- The rounds of a search from a cursor on, their number, and what they come to. -/
inductive Searches : Cursor → Nat → Option Focus → Prop
  | found {c : Cursor} (hdefect : c.focus.node.isDefect = true) : Searches c 1 (some c.focus)
  | ended {c : Cursor} (hdefect : c.focus.node.isDefect = false) (hnext : c.next? c.focus.node.hasError = none) :
    Searches c 1 none
  | onward {c d : Cursor} {rounds : Nat} {found? : Option Focus} (hdefect : c.focus.node.isDefect = false)
    (hnext : c.next? c.focus.node.hasError = some d) (h : Searches d rounds found?) : Searches c (rounds + 1) found?

variable {rounds : Nat} {found? : Option Focus}

theorem exists_searches (c : Cursor) : ∃ rounds ≤ c.focus.sizeFrom, c.Searches rounds c.firstDefect? := by
  induction c using firstDefect?.induct with
  | case1 c hdefect =>
    rw [firstDefect?_eq, if_pos hdefect]
    exact ⟨1, c.focus.sizeFrom_pos, .found hdefect⟩
  | case2 c hdefect next hnext ih =>
    obtain ⟨rounds, hrounds, h⟩ := ih
    have hless := sizeFrom_of_next? hnext
    rw [firstDefect?_eq, if_neg hdefect, hnext]
    exact ⟨rounds + 1, by omega, .onward (by simpa using hdefect) hnext h⟩
  | case3 c hdefect hnext =>
    rw [firstDefect?_eq, if_neg hdefect, hnext]
    exact ⟨1, c.focus.sizeFrom_pos, .ended (by simpa using hdefect) hnext⟩

theorem Searches.mem_upcoming {f : Focus} (h : c.Searches rounds found?) (hf : found? = some f) :
    f ∈ c.focus.upcoming := by
  induction h with
  | @found c hdefect =>
    cases hf
    rw [Focus.upcoming_eq]
    exact List.mem_cons_self
  | ended hdefect hnext => cases hf
  | @onward c d rounds found? hdefect hnext h ih => exact upcoming_subset_of_next? hnext (ih hf)

/-- A search finds what a search through everything that lies ahead would find. -/
theorem Searches.eq_find? (h : c.Searches rounds found?) (hmarks : c.MarksAhead) :
    found? = c.focus.upcoming.find? (·.node.isDefect) := by
  induction h with
  | @found c hdefect => simp [Focus.upcoming_eq, hdefect]
  | ended hdefect hnext => rw [find?_upcoming hmarks hdefect, hnext]
  | onward hdefect hnext h ih => rw [find?_upcoming hmarks hdefect, hnext, ih (hmarks.next hnext)]

end Cursor

namespace Node

/-- Whether everything around a defect is marked as holding an error. -/
def MarksDefects (root : Node) : Prop :=
  ∀ f ∈ (Focus.root root).subtree, f.node.isDefect = true → ∀ g ∈ f.ancestors, g.node.hasError = true

instance (root : Node) : Decidable root.MarksDefects :=
  inferInstanceAs (Decidable (∀ f ∈ (Focus.root root).subtree, _ → ∀ g ∈ f.ancestors, _))

theorem MarksDefects.marksAhead {root : Node} (h : root.MarksDefects) : (Cursor.start root).MarksAhead := by
  simpa [Cursor.MarksAhead, Cursor.start, MarksDefects] using h

theorem searches_find? {root : Node} (h : root.MarksDefects) :
    ∃ rounds ≤ root.size,
      (Cursor.start root).Searches rounds ((Focus.root root).subtree.find? (·.node.isDefect)) := by
  obtain ⟨rounds, hrounds, hsearch⟩ := (Cursor.start root).exists_searches
  have heq := hsearch.eq_find? h.marksAhead
  rw [heq] at hsearch
  rw [Cursor.start, Focus.upcoming_root] at hsearch
  exact ⟨rounds, hrounds, hsearch⟩

theorem firstDefect?_start {root : Node} (h : root.MarksDefects) :
    (Cursor.start root).firstDefect? = (Focus.root root).subtree.find? (·.node.isDefect) := by
  obtain ⟨rounds, -, hsearch⟩ := (Cursor.start root).exists_searches
  rw [hsearch.eq_find? h.marksAhead, Cursor.start, Focus.upcoming_root]

theorem mem_of_firstDefect? {root n : Node} (h : root.firstDefect? = some n) : n ∈ root :: root.descendants := by
  obtain ⟨f, hf, rfl⟩ := Option.map_eq_some_iff.1 h
  obtain ⟨rounds, -, hsearch⟩ := (Cursor.start root).exists_searches
  have hmem := hsearch.mem_upcoming hf
  rw [Cursor.start, Focus.upcoming_root] at hmem
  exact Focus.node_mem_of_mem_subtree hmem

end Node
end Guardrails
