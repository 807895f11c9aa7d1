import Mathlib.Data.List.Forall2
import Guardrails.Proofs.Tree.Access
import Guardrails.Proofs.Tree.Descent
import Guardrails.Syntax.Access

/-!
# Nodes that are written alike

An expression may stand in two sources, at different places. What is read off its names and texts is the same in
both.
-/

namespace Guardrails

theorem map_eq_of_rel {α β γ : Type} {R : α → β → Prop} {f : α → γ} {g : β → γ} {a? : Option α} {b? : Option β}
    (h : Option.Rel R a? b?) (hfg : ∀ a b, a? = some a → R a b → f a = g b) : a?.map f = b?.map g := by
  cases h with
  | none => rfl
  | some hab => exact congrArg some (hfg _ _ rfl hab)

theorem rel_find? {α β : Type} {R S : α → β → Prop} {p : α → Bool} {q : β → Bool} {l : List α} {m : List β}
    (h : List.Forall₂ R l m) (hS : ∀ a b, R a b → S a b ∧ p a = q b) : Option.Rel S (l.find? p) (m.find? q) := by
  induction h with
  | nil => exact .none
  | @cons a b l m hab _ ih =>
    obtain ⟨hS, hpq⟩ := hS a b hab
    rw [List.find?_cons, List.find?_cons, ← hpq]
    cases p a with
    | true => exact .some hS
    | false => exact ih

namespace Node

/-- Whether two nodes, each in a source of its own, are written alike: node by node they have the same kinds and
texts. Where they stand does not count, nor what is around them. -/
inductive Alike (s t : Source) : Node → Node → Prop
  | intro {n m : Node} (kind : n.kind = m.kind) (isNamed : n.isNamed = m.isNamed) (text : s.textOf n = t.textOf m)
      (length : n.children.length = m.children.length)
      (field : ∀ (i : Nat) (c d : Node), n.children[i]? = some c → m.children[i]? = some d → c.field = d.field)
      (children : ∀ (i : Nat) (c d : Node), n.children[i]? = some c → m.children[i]? = some d → Alike s t c d) :
      Alike s t n m

namespace Alike

variable {s t : Source} {n m : Node}

theorem kind (h : Alike s t n m) : n.kind = m.kind := by
  cases h
  assumption

theorem isNamed (h : Alike s t n m) : n.isNamed = m.isNamed := by
  cases h
  assumption

theorem text (h : Alike s t n m) : s.textOf n = t.textOf m := by
  cases h
  assumption

theorem children (h : Alike s t n m) :
    List.Forall₂ (fun c d => c.field = d.field ∧ Alike s t c d) n.children m.children := by
  obtain ⟨-, -, -, hlength, hfield, hchildren⟩ := h
  refine List.forall₂_iff_get.2 ⟨hlength, fun i hn hm => ?_⟩
  have hc := List.getElem?_eq_getElem hn
  have hd := List.getElem?_eq_getElem hm
  exact ⟨hfield i _ _ hc hd, hchildren i _ _ hc hd⟩

theorem of_forall₂ (kind : n.kind = m.kind) (isNamed : n.isNamed = m.isNamed)
    (text : s.textOf n = t.textOf m)
    (children : List.Forall₂ (fun c d => c.field = d.field ∧ Alike s t c d) n.children m.children) :
    Alike s t n m := by
  obtain ⟨hlength, hmembers⟩ := List.forall₂_iff_get.1 children
  have hpair (i : Nat) (c d : Node) (hc : n.children[i]? = some c) (hd : m.children[i]? = some d) :
      c.field = d.field ∧ Alike s t c d := by
    obtain ⟨hn, rfl⟩ := List.getElem?_eq_some_iff.1 hc
    obtain ⟨hm, rfl⟩ := List.getElem?_eq_some_iff.1 hd
    exact hmembers i hn hm
  exact .intro kind isNamed text hlength (fun i c d hc hd => (hpair i c d hc hd).1)
    fun i c d hc hd => (hpair i c d hc hd).2

theorem isComment (h : Alike s t n m) : n.isComment = m.isComment := by
  rw [Node.isComment, Node.isComment, h.kind]

/-! ## Children -/

theorem find? (h : Alike s t n m) {p : Node → Bool} (hp : ∀ c d, c.field = d.field → Alike s t c d → p c = p d) :
    Option.Rel (Alike s t) (n.children.find? p) (m.children.find? p) :=
  rel_find? h.children fun c d hcd => ⟨hcd.2, hp c d hcd.1 hcd.2⟩

theorem child? (h : Alike s t n m) (field : String) : Option.Rel (Alike s t) (n.child? field) (m.child? field) :=
  h.find? fun c d hfield _ => by rw [hfield]

theorem inside? (h : Alike s t n m) : Option.Rel (Alike s t) n.inside? m.inside? := by
  rw [Node.inside?, Node.inside?, Node.namedChildren, Node.namedChildren, List.head?_filter, List.head?_filter]
  exact h.find? fun c d _ hcd => by rw [hcd.isNamed, hcd.isComment]

/-! ## Names -/

theorem map_textOf_child? (h : Alike s t n m) (field : String) :
    (n.child? field).map s.textOf = (m.child? field).map t.textOf :=
  map_eq_of_rel (h.child? field) fun _ _ _ hcd => hcd.text

theorem accessTail (h : Alike s t n m) : n.accessTail s = m.accessTail t := by
  induction n using children_induction generalizing m with
  | h n ih =>
    have hobject := map_eq_of_rel (h.child? "object") fun c d hc hcd =>
      ih c (List.mem_of_find?_eq_some hc) hcd
    have hinside := map_eq_of_rel h.inside? fun c d hc hcd =>
      ih c (mem_children_of_mem_namedChildren (List.mem_of_mem_head? hc)) hcd
    rw [accessTail_eq, accessTail_eq t m, ← h.kind, h.text, hobject, hinside, h.map_textOf_child? "property"]

theorem propertyName? (h : Alike s t n m) : n.propertyName? s = m.propertyName? t := by
  rw [Node.propertyName?, Node.propertyName?, h.kind, h.map_textOf_child? "property"]

theorem lastSegment? (h : Alike s t n m) : n.lastSegment? s = m.lastSegment? t := by
  rw [Node.lastSegment?, Node.lastSegment?, h.kind, h.text, h.propertyName?]

theorem calleeMatches (h : Alike s t n m) (names : List String) :
    n.calleeMatches s names = m.calleeMatches t names := by
  rw [Node.calleeMatches, Node.calleeMatches, h.accessTail]

theorem callee? (h : Alike s t n m) : Option.Rel (Alike s t) n.callee? m.callee? := by
  rw [Node.callee?, Node.callee?, h.kind]
  split
  · exact h.child? "function"
  · exact .none

theorem isEmptyLiteral (h : Alike s t n m) : n.isEmptyLiteral s = m.isEmptyLiteral t := by
  rw [Node.isEmptyLiteral, Node.isEmptyLiteral, Node.isStringLiteral, Node.isStringLiteral, h.kind, h.text]

end Alike
end Node
end Guardrails
