import Mathlib.Tactic.SplitIfs
import Guardrails.Proofs.Tree.Descent
import Guardrails.Proofs.Tree.Family

/-!
# Names that parameters bind

Which names the pattern of a parameter binds is told by its shape. The search for a parameter of some name goes
through the whole pattern, so that it also finds the names that are only used there, in a default inside the
pattern or in a computed key. The main statement says that it finds these and the bound names, and nothing else.
-/

namespace Guardrails

namespace Node

variable {s : Source} {name : String} {n c : Node}

/-! ## Patterns -/

/-- The kinds of the patterns that bind what their parts bind. -/
def compoundKinds : List String :=
  ["object_pattern", "array_pattern", "rest_pattern"]

/-- The kinds of the patterns that have a default on the right of what they bind. -/
def defaultKinds : List String :=
  ["assignment_pattern", "object_assignment_pattern"]

/-- The parts of a pattern in which it binds names. -/
def bindingParts (n : Node) : List Node :=
  if n.kind ∈ compoundKinds then n.children
  else if n.kind = "pair_pattern" then (n.child? "value").toList
  else if n.kind ∈ defaultKinds then (n.child? "left").toList
  else []

/-- Whether a pattern binds a name. -/
inductive Binds (s : Source) (name : String) : Node → Prop
  | self {n : Node} (hkind : n.kind = "identifier" ∨ n.kind = "shorthand_property_identifier_pattern")
      (htext : s.textOf n = name) : Binds s name n
  | part {n c : Node} (hc : c ∈ n.bindingParts) (h : Binds s name c) : Binds s name n

/-- Whether a name stands somewhere in a tree. -/
def Mentions (s : Source) (name : String) (n : Node) : Prop :=
  ∃ d ∈ n :: n.descendants, d.bindsHere s name = true

/-- Whether a name stands in a pattern beside the parts in which the pattern binds names. -/
inductive Strays (s : Source) (name : String) : Node → Prop
  | beside {n c : Node} (hc : c ∈ n.children) (hbeside : c ∉ n.bindingParts) (h : c.Mentions s name) :
      Strays s name n
  | part {n c : Node} (hc : c ∈ n.bindingParts) (h : Strays s name c) : Strays s name n

theorem bindsHere_iff : n.bindsHere s name = true ↔
    (n.kind = "identifier" ∨ n.kind = "shorthand_property_identifier_pattern") ∧ s.textOf n = name := by
  simp [bindsHere]

theorem bindingParts_subset (n : Node) : n.bindingParts ⊆ n.children := by
  intro c hc
  unfold bindingParts at hc
  split_ifs at hc
  · exact hc
  · exact List.mem_of_find?_eq_some (Option.mem_toList.1 hc)
  · exact List.mem_of_find?_eq_some (Option.mem_toList.1 hc)
  · cases hc

theorem binds_iff : n.Binds s name ↔ n.bindsHere s name = true ∨ ∃ c ∈ n.bindingParts, c.Binds s name := by
  constructor
  · rintro (⟨hkind, htext⟩ | ⟨hc, h⟩)
    · exact .inl (bindsHere_iff.2 ⟨hkind, htext⟩)
    · exact .inr ⟨_, hc, h⟩
  · rintro (h | ⟨c, hc, h⟩)
    · exact .self (bindsHere_iff.1 h).1 (bindsHere_iff.1 h).2
    · exact .part hc h

theorem binds_of_name (h : n.kind = "identifier" ∨ n.kind = "shorthand_property_identifier_pattern") :
    n.Binds s name ↔ s.textOf n = name := by
  have hparts : n.bindingParts = [] := by
    rcases h with h | h <;> simp [bindingParts, h, compoundKinds, defaultKinds]
  rw [binds_iff, bindsHere_iff, hparts]
  simp [h]

theorem binds_of_compound (h : n.kind ∈ compoundKinds) : n.Binds s name ↔ ∃ c ∈ n.children, c.Binds s name := by
  have hkind : n.bindsHere s name = false := by
    rw [Bool.eq_false_iff, ne_eq, bindsHere_iff]
    rintro ⟨hname | hname, -⟩ <;> exact absurd h (by rw [hname]; decide)
  rw [binds_iff, hkind, bindingParts, if_pos h]
  simp

theorem binds_of_default (h : n.kind ∈ defaultKinds) (hc : n.child? "left" = some c) :
    n.Binds s name ↔ c.Binds s name := by
  rw [binds_iff]
  simp only [defaultKinds, List.mem_cons, List.not_mem_nil, or_false] at h
  rcases h with h | h <;> simp [bindsHere, bindingParts, h, compoundKinds, defaultKinds, hc]

/-! ## What stands in a pattern -/

theorem mentions_iff : n.Mentions s name ↔ n.bindsHere s name = true ∨ ∃ c ∈ n.children, c.Mentions s name := by
  unfold Mentions
  rw [descendants_eq_flatMap]
  simp only [List.mem_cons, List.mem_flatMap]
  constructor
  · rintro ⟨d, rfl | ⟨c, hc, hd⟩, h⟩
    · exact .inl h
    · exact .inr ⟨c, hc, d, hd, h⟩
  · rintro (h | ⟨c, hc, d, hd, h⟩)
    · exact ⟨n, .inl rfl, h⟩
    · exact ⟨d, .inr ⟨c, hc, hd⟩, h⟩

theorem Mentions.of_mem_bindingParts (hc : c ∈ n.bindingParts) (h : c.Mentions s name) : n.Mentions s name :=
  mentions_iff.2 (.inr ⟨c, bindingParts_subset n hc, h⟩)

theorem Binds.mentions (h : n.Binds s name) : n.Mentions s name := by
  induction h with
  | self hkind htext => exact mentions_iff.2 (.inl (bindsHere_iff.2 ⟨hkind, htext⟩))
  | part hc _ ih => exact ih.of_mem_bindingParts hc

theorem Strays.mentions (h : n.Strays s name) : n.Mentions s name := by
  induction h with
  | beside hc _ h => exact mentions_iff.2 (.inr ⟨_, hc, h⟩)
  | part hc _ ih => exact ih.of_mem_bindingParts hc

/-- A name that stands in a pattern is bound by it, or stands beside the parts that bind. -/
theorem Mentions.binds_or_strays {n : Node} (h : n.Mentions s name) : n.Binds s name ∨ n.Strays s name := by
  rcases mentions_iff.1 h with h | ⟨c, hc, h⟩
  · exact .inl (binds_iff.2 (.inl h))
  · by_cases hpart : c ∈ n.bindingParts
    · exact h.binds_or_strays.imp (.part hpart) (.part hpart)
    · exact .inr (.beside hc hpart h)
termination_by n.size
decreasing_by exact size_lt_of_mem hc

/-! ## Parameters -/

/-- A parameter without the default on its outside. -/
def withoutDefault (parameter : Node) : Node :=
  if parameter.kind = "assignment_pattern" then (parameter.child? "left").getD parameter else parameter

theorem binds_withoutDefault {parameter : Node} :
    parameter.withoutDefault.Binds s name ↔ parameter.Binds s name := by
  unfold withoutDefault
  split_ifs with hkind
  · cases hleft : parameter.child? "left" with
    | none => rfl
    | some left => exact (binds_of_default (by rw [hkind]; decide) hleft).symm
  · rfl

theorem parameterMentions_iff {parameter : Node} : parameter.parameterMentions s name = true ↔
    parameter.Binds s name ∨ parameter.withoutDefault.Strays s name := by
  have hmentions : parameter.parameterMentions s name = true ↔ parameter.withoutDefault.Mentions s name := by
    simp only [parameterMentions, List.any_eq_true, beq_iff_eq]
    rfl
  rw [hmentions, ← binds_withoutDefault]
  exact ⟨Mentions.binds_or_strays, fun h => h.elim Binds.mentions Strays.mentions⟩

end Node

namespace Focus

variable {s : Source} {f : Focus} {name : String}

/-- Whether a parameter of a function around a place binds a name. -/
def IsBound (s : Source) (f : Focus) (name : String) : Prop :=
  ∃ g ∈ f.ancestors, g.node.isFunction = true ∧ ∃ p ∈ g.node.parameters, p.Binds s name

/-- Whether a name stands in a parameter of a function around a place without being bound there. -/
def IsStray (s : Source) (f : Focus) (name : String) : Prop :=
  ∃ g ∈ f.ancestors, g.node.isFunction = true ∧ ∃ p ∈ g.node.parameters, p.withoutDefault.Strays s name

/-- A name is taken for a parameter exactly if a function around the place binds it, or uses it in a parameter: in
a default inside the pattern, in a computed key, or in whatever else binds nothing. -/
theorem isParameterInScope_iff : f.isParameterInScope s name = true ↔ f.IsBound s name ∨ f.IsStray s name := by
  simp only [isParameterInScope, List.any_eq_true, List.mem_filter, Node.parameterMentions_iff, IsBound, IsStray]
  constructor
  · rintro ⟨g, ⟨hg, hfunction⟩, p, hp, h | h⟩
    · exact .inl ⟨g, hg, hfunction, p, hp, h⟩
    · exact .inr ⟨g, hg, hfunction, p, hp, h⟩
  · rintro (⟨g, hg, hfunction, p, hp, h⟩ | ⟨g, hg, hfunction, p, hp, h⟩)
    · exact ⟨g, ⟨hg, hfunction⟩, p, hp, .inl h⟩
    · exact ⟨g, ⟨hg, hfunction⟩, p, hp, .inr h⟩

/-- The source `function f({ win = window }) { g(); }`, with the place of the call. -/
def defaulted : Source × Focus :=
  let call := Node.plain "call_expression" "" 31 34
    [.plain "identifier" "function" 31 32 [], .plain "arguments" "arguments" 32 34 []]
  let statement := Node.plain "expression_statement" "" 31 35 [call]
  let body := Node.plain "statement_block" "body" 29 37 [statement]
  let pattern := Node.plain "object_pattern" "" 11 27 [.plain "object_assignment_pattern" "" 13 25
    [.plain "shorthand_property_identifier_pattern" "left" 13 16 [], .plain "identifier" "right" 19 25 []]]
  let function := Node.plain "function_declaration" "" 0 37 [.plain "identifier" "name" 9 10 [],
    .plain "formal_parameters" "parameters" 10 28 [pattern], body]
  (⟨"function f(\x7b win = window \x7d) \x7b g(); \x7d"⟩,
    ⟨call, [⟨statement, 0⟩, ⟨body, 0⟩, ⟨function, 2⟩, ⟨.plain "program" "" 0 37 [function], 0⟩]⟩)

theorem isParameterInScope_defaulted : defaulted.2.isParameterInScope defaulted.1 "window" = true := by
  unfold isParameterInScope Node.parameterMentions
  simp only [Node.descendants_eq]
  rfl

theorem not_isBound_defaulted : ¬ defaulted.2.IsBound defaulted.1 "window" := by
  rintro ⟨g, hg, hfunction, p, hp, h⟩
  have honly : g ∈ defaulted.2.ancestors.filter (·.node.isFunction) := List.mem_filter.2 ⟨hg, hfunction⟩
  obtain rfl := List.mem_singleton.1 honly
  obtain rfl := List.mem_singleton.1 hp
  rw [Node.binds_of_compound (by decide)] at h
  obtain ⟨c, hc, h⟩ := h
  obtain rfl := List.mem_singleton.1 hc
  rw [Node.binds_of_default (by decide) rfl, Node.binds_of_name (.inr rfl)] at h
  exact absurd h (by decide)

/-- Not every name that is taken for a parameter is one. -/
theorem not_isParameterInScope_iff_isBound :
    ¬ ∀ (s : Source) (f : Focus) (name : String), f.isParameterInScope s name = true ↔ f.IsBound s name :=
  fun h => not_isBound_defaulted ((h _ _ _).1 isParameterInScope_defaulted)

end Focus
end Guardrails
