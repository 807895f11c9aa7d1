import Guardrails.Proofs.Tree.Family

/-!
# Accesses, case by case

What the path of an access is for each kind of node, and that parentheses around it change nothing. What an access is
made on need not have a name, and then its path is that of an access on nothing.
-/

namespace Guardrails

namespace Node

theorem accessPath?_eq (s : Source) (n : Node) : n.accessPath? s =
    match n.kind with
    | "member_expression" => (n.child? "property").bind fun property =>
      ((n.child? "object").bind (accessPath? s)).map (· ++ [s.textOf property])
    | "parenthesized_expression" => n.inside?.bind (accessPath? s)
    | "identifier" | "this" | "property_identifier" | "shorthand_property_identifier" =>
      some [s.textOf n]
    | _ => none := by
  rw [accessPath?]
  by_cases hmember : n.kind = "member_expression"
  · simp only [hmember]
    split
    · simp [*]
    · cases hproperty : n.child? "property" <;> cases hobject : n.child? "object" <;> simp_all
  by_cases hparentheses : n.kind = "parenthesized_expression"
  · simp only [hparentheses]
    split <;> simp [*]
  · split <;> simp_all

theorem accessTail_eq (s : Source) (n : Node) : n.accessTail s =
    match n.kind with
    | "member_expression" =>
      ((n.child? "object").map (accessTail s)).getD [] ++ ((n.child? "property").map s.textOf).toList
    | "parenthesized_expression" => (n.inside?.map (accessTail s)).getD []
    | "identifier" | "this" => [s.textOf n]
    | _ => [] := by
  rw [accessTail]
  by_cases hmember : n.kind = "member_expression"
  · simp only [hmember]
    split <;> simp [*]
  by_cases hparentheses : n.kind = "parenthesized_expression"
  · simp only [hparentheses]
    split <;> simp [*]
  · split <;> simp_all

theorem rootIdentifier?_eq (n : Node) : n.rootIdentifier? =
    match n.kind with
    | "identifier" | "this" => some n
    | "member_expression" | "subscript_expression" => (n.child? "object").bind rootIdentifier?
    | "call_expression" => (n.child? "function").bind rootIdentifier?
    | "parenthesized_expression" | "non_null_expression" => n.inside?.bind rootIdentifier?
    | _ => none := by
  rw [rootIdentifier?]
  split
  case h_3 | h_4 | h_5 | h_6 | h_7 => split <;> simp [*]
  all_goals simp [*]

theorem accessTail_identifier {n : Node} (s : Source) (h : n.kind = "identifier") :
    n.accessTail s = [s.textOf n] := by
  rw [accessTail_eq, h]
  rfl

theorem accessTail_member {n object property : Node} (s : Source) (h : n.kind = "member_expression")
    (hobject : n.child? "object" = some object) (hproperty : n.child? "property" = some property) :
    n.accessTail s = object.accessTail s ++ [s.textOf property] := by
  rw [accessTail_eq, h, hobject, hproperty]
  rfl

end Node

theorem Focus.Wraps.accessTail {f g : Focus} (h : f.Wraps g) (s : Source) :
    f.node.accessTail s = g.node.accessTail s := by
  induction h with
  | refl f => rfl
  | parentheses hkind hinside h ih =>
    rw [Node.accessTail_eq, hkind, ← ih, inside?_node hinside]
    rfl

namespace Node

/-! ## Parentheses -/

/-- Whether a node is another one with parentheses around it, or without any. -/
inductive Wraps : Node → Node → Prop
  | refl (n : Node) : Wraps n n
  | parentheses {n inside m : Node} (hkind : n.kind = "parenthesized_expression")
      (hinside : n.inside? = some inside) (h : Wraps inside m) : Wraps n m

theorem accessTail_parentheses {n inside : Node} (s : Source) (hkind : n.kind = "parenthesized_expression")
    (hinside : n.inside? = some inside) : n.accessTail s = inside.accessTail s := by
  rw [accessTail_eq, hkind, hinside]
  rfl

theorem Wraps.eq_of_kind_ne {n m : Node} (h : n.Wraps m) (hkind : n.kind ≠ "parenthesized_expression") : n = m := by
  cases h with
  | refl => rfl
  | parentheses hparentheses => exact absurd hparentheses hkind

theorem Wraps.accessTail {n m : Node} (h : n.Wraps m) (s : Source) : n.accessTail s = m.accessTail s := by
  induction h with
  | refl n => rfl
  | parentheses hkind hinside h ih => rw [accessTail_parentheses s hkind hinside, ih]

/-! ## Receivers and their names -/

def accessKinds : List String := ["identifier", "this", "member_expression", "parenthesized_expression"]

/-- Whether an access has no name in it: what it is made on is a call, an element, a literal and the like. The
third case is that of an access that was not parsed to its end. -/
inductive IsNameless : Node → Prop
  | other {n : Node} (hkind : n.kind ∉ accessKinds) : IsNameless n
  | parentheses {n : Node} (hkind : n.kind = "parenthesized_expression")
      (h : ∀ inside, n.inside? = some inside → IsNameless inside) : IsNameless n
  | unfinished {n : Node} (hkind : n.kind = "member_expression") (hproperty : n.child? "property" = none)
      (h : ∀ object, n.child? "object" = some object → IsNameless object) : IsNameless n

/-- Whether an access is read as one name, and as which: that of an identifier, or that of a property of something
that has no name. -/
inductive ReadsAs (s : Source) : Node → String → Prop
  | plain {n : Node} (hkind : n.kind = "identifier" ∨ n.kind = "this") : ReadsAs s n (s.textOf n)
  | access {n property : Node} (hkind : n.kind = "member_expression")
      (hproperty : n.child? "property" = some property)
      (h : ∀ object, n.child? "object" = some object → object.IsNameless) : ReadsAs s n (s.textOf property)
  | parentheses {n inside : Node} {name : String} (hkind : n.kind = "parenthesized_expression")
      (hinside : n.inside? = some inside) (h : ReadsAs s inside name) : ReadsAs s n name
  | unfinished {n object : Node} {name : String} (hkind : n.kind = "member_expression")
      (hproperty : n.child? "property" = none) (hobject : n.child? "object" = some object)
      (h : ReadsAs s object name) : ReadsAs s n name

theorem accessTail_plain {n : Node} (s : Source) (hkind : n.kind = "identifier" ∨ n.kind = "this") :
    n.accessTail s = [s.textOf n] := by
  rcases hkind with hkind | hkind <;> simp [accessTail_eq s n, hkind]

theorem accessTail_other {n : Node} (s : Source) (hkind : n.kind ∉ accessKinds) : n.accessTail s = [] := by
  simp only [accessKinds, List.mem_cons, List.not_mem_nil, or_false, not_or] at hkind
  rw [accessTail_eq]
  simp [hkind]

theorem accessTail_of_property {n property : Node} (s : Source) (hkind : n.kind = "member_expression")
    (hproperty : n.child? "property" = some property) :
    n.accessTail s = ((n.child? "object").map (accessTail s)).getD [] ++ [s.textOf property] := by
  rw [accessTail_eq, hkind, hproperty]
  rfl

theorem accessTail_of_unfinished {n : Node} (s : Source) (hkind : n.kind = "member_expression")
    (hproperty : n.child? "property" = none) :
    n.accessTail s = ((n.child? "object").map (accessTail s)).getD [] := by
  rw [accessTail_eq, hkind, hproperty]
  exact List.append_nil _

theorem accessTail_eq_nil_iff (s : Source) (n : Node) : n.accessTail s = [] ↔ n.IsNameless := by
  constructor
  · intro htail
    -- The path is empty only where the recursion ends at a node that has no name, and adds no property on the way.
    induction n using accessTail.induct s with
    | case1 n hkind ih =>
      cases hproperty : n.child? "property" with
      | none =>
        rw [accessTail_of_unfinished s hkind hproperty] at htail
        exact .unfinished hkind hproperty fun object hobject => ih object hobject (by simpa [hobject] using htail)
      | some property => simp [accessTail_of_property s hkind hproperty] at htail
    | case2 n hkind inside hinside ih =>
      rw [accessTail_parentheses s hkind hinside] at htail
      exact .parentheses hkind fun m hm => Option.some.inj (hinside.symm.trans hm) ▸ ih htail
    | case3 n hkind hinside => exact .parentheses hkind fun m hm => by simp [hinside] at hm
    | case4 n hkind => simp [accessTail_plain s (.inl hkind)] at htail
    | case5 n hkind => simp [accessTail_plain s (.inr hkind)] at htail
    | case6 n hmember hparentheses hidentifier hthis => exact .other (by simp_all [accessKinds])
  · intro h
    induction h with
    | other hkind => exact accessTail_other s hkind
    | @parentheses n hkind h ih =>
      simp only [accessTail_eq s n, hkind]
      cases hinside : n.inside? with
      | none => rfl
      | some inside => exact ih inside hinside
    | @unfinished n hkind hproperty h ih =>
      rw [accessTail_of_unfinished s hkind hproperty]
      cases hobject : n.child? "object" with
      | none => rfl
      | some object => exact ih object hobject

theorem accessTail_object_eq_nil_iff (s : Source) (n : Node) :
    ((n.child? "object").map (accessTail s)).getD [] = [] ↔
      ∀ object, n.child? "object" = some object → object.IsNameless := by
  cases n.child? "object" with
  | none => simp
  | some object => simp [accessTail_eq_nil_iff]

theorem accessTail_eq_singleton_iff (s : Source) (n : Node) (name : String) :
    n.accessTail s = [name] ↔ n.ReadsAs s name := by
  constructor
  · intro htail
    induction n using accessTail.induct s with
    | case1 n hkind ih =>
      cases hproperty : n.child? "property" with
      | none =>
        rw [accessTail_of_unfinished s hkind hproperty] at htail
        cases hobject : n.child? "object" with
        | none => simp [hobject] at htail
        | some object => exact .unfinished hkind hproperty hobject (ih object hobject (by simpa [hobject] using htail))
      | some property =>
        rw [accessTail_of_property s hkind hproperty] at htail
        obtain ⟨hobject, rfl⟩ : _ = [] ∧ s.textOf property = name := by simpa [List.append_eq_cons_iff] using htail
        exact .access hkind hproperty ((accessTail_object_eq_nil_iff s n).1 hobject)
    | case2 n hkind inside hinside ih =>
      rw [accessTail_parentheses s hkind hinside] at htail
      exact .parentheses hkind hinside (ih htail)
    | case3 n hkind hinside => simp [accessTail_eq s n, hkind, hinside] at htail
    | case4 n hkind =>
      rw [accessTail_plain s (.inl hkind)] at htail
      exact List.singleton_inj.1 htail ▸ .plain (.inl hkind)
    | case5 n hkind =>
      rw [accessTail_plain s (.inr hkind)] at htail
      exact List.singleton_inj.1 htail ▸ .plain (.inr hkind)
    | case6 n hmember hparentheses hidentifier hthis =>
      rw [accessTail_other s (by simp_all [accessKinds])] at htail
      cases htail
  · intro h
    induction h with
    | plain hkind => exact accessTail_plain s hkind
    | access hkind hproperty h =>
      rw [accessTail_of_property s hkind hproperty, (accessTail_object_eq_nil_iff s _).2 h, List.nil_append]
    | parentheses hkind hinside h ih => rw [accessTail_parentheses s hkind hinside, ih]
    | unfinished hkind hproperty hobject h ih =>
      rw [accessTail_of_unfinished s hkind hproperty, hobject, Option.map_some, Option.getD_some, ih]

/-! ## Accesses on an identifier -/

/-- Whether an access begins at an identifier, and every access on the way has a property. -/
inductive IsRooted : Node → Prop
  | identifier {n : Node} (hkind : n.kind = "identifier") : IsRooted n
  | access {n object property : Node} (hkind : n.kind = "member_expression")
      (hobject : n.child? "object" = some object) (hproperty : n.child? "property" = some property)
      (h : IsRooted object) : IsRooted n
  | parentheses {n inside : Node} (hkind : n.kind = "parenthesized_expression")
      (hinside : n.inside? = some inside) (h : IsRooted inside) : IsRooted n

/-- Whether a node is an identifier with this name, but for parentheses. -/
def IsIdentifier (s : Source) (n : Node) (name : String) : Prop :=
  ∃ m, n.Wraps m ∧ m.kind = "identifier" ∧ s.textOf m = name

/-- Whether a node is the access to a property with this name, but for parentheses. -/
def IsAccessOn (s : Source) (n object : Node) (name : String) : Prop :=
  ∃ m property, n.Wraps m ∧ m.kind = "member_expression" ∧ m.child? "object" = some object ∧
    m.child? "property" = some property ∧ s.textOf property = name

theorem IsRooted.accessTail_ne_nil {n : Node} (h : n.IsRooted) (s : Source) : n.accessTail s ≠ [] := by
  induction h with
  | identifier hkind => simp [accessTail_identifier s hkind]
  | access hkind hobject hproperty h ih => simp [accessTail_member s hkind hobject hproperty]
  | parentheses hkind hinside h ih => rwa [accessTail_parentheses s hkind hinside]

theorem IsRooted.isIdentifier {n : Node} {s : Source} {name : String} (h : n.IsRooted)
    (htail : n.accessTail s = [name]) : n.IsIdentifier s name := by
  induction h with
  | @identifier n hkind =>
    rw [accessTail_identifier s hkind] at htail
    exact ⟨n, .refl n, hkind, List.singleton_inj.1 htail⟩
  | access hkind hobject hproperty h ih =>
    rw [accessTail_member s hkind hobject hproperty] at htail
    exact absurd (by simpa using congrArg List.dropLast htail) (h.accessTail_ne_nil s)
  | parentheses hkind hinside h ih =>
    obtain ⟨m, hwraps, hm⟩ := ih (accessTail_parentheses s hkind hinside ▸ htail)
    exact ⟨m, .parentheses hkind hinside hwraps, hm⟩

theorem IsIdentifier.accessTail {n : Node} {s : Source} {name : String} (h : n.IsIdentifier s name) :
    n.accessTail s = [name] := by
  obtain ⟨m, hwraps, hkind, rfl⟩ := h
  rw [hwraps.accessTail, accessTail_identifier s hkind]

theorem IsAccessOn.accessTail {n object : Node} {s : Source} {name : String} (h : n.IsAccessOn s object name) :
    n.accessTail s = object.accessTail s ++ [name] := by
  obtain ⟨m, property, hwraps, hkind, hobject, hproperty, rfl⟩ := h
  rw [hwraps.accessTail, accessTail_member s hkind hobject hproperty]

theorem IsRooted.isAccessOn {n : Node} {s : Source} {front : List String} {name : String} (h : n.IsRooted)
    (hfront : front ≠ []) (htail : n.accessTail s = front ++ [name]) :
    ∃ object, n.IsAccessOn s object name ∧ object.IsRooted ∧ object.accessTail s = front := by
  induction h with
  | identifier hkind =>
    rw [accessTail_identifier s hkind] at htail
    exact absurd (by simpa using congrArg List.dropLast htail.symm) hfront
  | access hkind hobject hproperty h ih =>
    rw [accessTail_member s hkind hobject hproperty] at htail
    obtain ⟨rfl, hname⟩ := List.append_inj' htail rfl
    exact ⟨_, ⟨_, _, .refl _, hkind, hobject, hproperty, List.singleton_inj.1 hname⟩, h, rfl⟩
  | parentheses hkind hinside h ih =>
    obtain ⟨object, ⟨m, property, hwraps, hm⟩, hobject⟩ := ih (accessTail_parentheses s hkind hinside ▸ htail)
    exact ⟨object, ⟨m, property, .parentheses hkind hinside hwraps, hm⟩, hobject⟩

end Node

end Guardrails
