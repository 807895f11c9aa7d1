import Mathlib
import Guardrails.Proofs.Tree.Access
import Guardrails.Proofs.Tree.Descent

/-!
# Paths of accesses

An access is read as a whole path, by the names at its end, by the identifier that it starts from, and by its last
name alone. Each of these readings goes inwards from the access and stops at other kinds of nodes than the others,
but they agree as far as they go.
-/

namespace Guardrails.Node

variable {s : Source} {n m start : Node} {path : List String}

/-! ## Where an access starts -/

/-- Whether the way inwards from an access, to what it is made on and into parentheses, comes to its end at a node. -/
inductive StartsAt : Node → Node → Prop
  | here {n : Node} (hmember : n.kind ≠ "member_expression") (hparentheses : n.kind ≠ "parenthesized_expression") :
      StartsAt n n
  | access {n object start : Node} (hkind : n.kind = "member_expression") (hobject : n.child? "object" = some object)
      (h : StartsAt object start) : StartsAt n start
  | parentheses {n inside start : Node} (hkind : n.kind = "parenthesized_expression")
      (hinside : n.inside? = some inside) (h : StartsAt inside start) : StartsAt n start

theorem StartsAt.eq {start' : Node} (h : n.StartsAt start) (h' : n.StartsAt start') : start = start' := by
  induction h with
  | here hmember hparentheses =>
    cases h' with
    | here => rfl
    | access hkind => exact absurd hkind hmember
    | parentheses hkind => exact absurd hkind hparentheses
  | access hkind hobject h ih =>
    cases h' with
    | here hmember => exact absurd hkind hmember
    | access hkind' hobject' h' => exact ih (Option.some.inj (hobject'.symm.trans hobject) ▸ h')
    | parentheses hkind' => simp [hkind] at hkind'
  | parentheses hkind hinside h ih =>
    cases h' with
    | here hmember hparentheses => exact absurd hkind hparentheses
    | access hkind' => simp [hkind] at hkind'
    | parentheses hkind' hinside' h' => exact ih (Option.some.inj (hinside'.symm.trans hinside) ▸ h')

theorem exists_startsAt (h : n.accessPath? s = some path) : ∃ start, n.StartsAt start := by
  induction n using children_induction generalizing path with
  | h n ih =>
    by_cases hmember : n.kind = "member_expression"
    · rw [accessPath?_eq, hmember] at h
      obtain ⟨property, -, h⟩ := Option.bind_eq_some_iff.1 h
      obtain ⟨front, hfront, -⟩ := Option.map_eq_some_iff.1 h
      obtain ⟨object, hobject, hfront⟩ := Option.bind_eq_some_iff.1 hfront
      obtain ⟨start, hstart⟩ := ih object (List.mem_of_find?_eq_some hobject) hfront
      exact ⟨start, .access hmember hobject hstart⟩
    by_cases hparentheses : n.kind = "parenthesized_expression"
    · rw [accessPath?_eq, hparentheses] at h
      obtain ⟨inside, hinside, h⟩ := Option.bind_eq_some_iff.1 h
      have hmem := mem_children_of_mem_namedChildren (List.mem_of_mem_head? hinside)
      obtain ⟨start, hstart⟩ := ih inside hmem h
      exact ⟨start, .parentheses hparentheses hinside hstart⟩
    · exact ⟨n, .here hmember hparentheses⟩

/-! ## The readings from there on -/

/-- Behind where an access starts, its path and the names at its end go on alike. -/
theorem StartsAt.exists_names (h : n.StartsAt start) (s : Source) : ∃ names,
    n.accessTail s = start.accessTail s ++ names ∧
      ∀ path, n.accessPath? s = some path → (start.accessPath? s).map (· ++ names) = some path := by
  induction h with
  | here => exact ⟨[], by simp, fun path hpath => by simp [hpath]⟩
  | @access n object start hkind hobject h ih =>
    obtain ⟨names, htail, hpath⟩ := ih
    cases hproperty : n.child? "property" with
    | none =>
      refine ⟨names, ?_, fun path h => ?_⟩
      · rw [accessTail_of_unfinished s hkind hproperty, hobject, Option.map_some, Option.getD_some, htail]
      · simp [accessPath?_eq s n, hkind, hproperty] at h
    | some property =>
      refine ⟨names ++ [s.textOf property], ?_, fun path h => ?_⟩
      · rw [accessTail_member s hkind hobject hproperty, htail, List.append_assoc]
      · simp only [accessPath?_eq s n, hkind, hproperty, hobject, Option.bind_some] at h
        obtain ⟨front, hfront, rfl⟩ := Option.map_eq_some_iff.1 h
        obtain ⟨first, hfirst, rfl⟩ := Option.map_eq_some_iff.1 (hpath front hfront)
        rw [hfirst, Option.map_some, List.append_assoc]
  | parentheses hkind hinside h ih =>
    obtain ⟨names, htail, hpath⟩ := ih
    refine ⟨names, ?_, fun path h => hpath path ?_⟩
    · rw [accessTail_parentheses s hkind hinside, htail]
    · rwa [accessPath?_eq, hkind, hinside] at h

theorem StartsAt.accessPath?_eq_singleton (h : n.StartsAt start) (hpath : start.accessPath? s = some path) :
    path = [s.textOf start] := by
  induction h with
  | here hmember hparentheses =>
    rw [accessPath?_eq] at hpath
    split at hpath <;> simp_all
  | access hkind hobject h ih => exact ih hpath
  | parentheses hkind hinside h ih => exact ih hpath

theorem StartsAt.accessTail_eq_nil (h : n.StartsAt start)
    (hstart : ¬ (start.kind = "identifier" ∨ start.kind = "this")) : start.accessTail s = [] := by
  induction h with
  | here hmember hparentheses => exact accessTail_other s (by simp_all [accessKinds])
  | access hkind hobject h ih => exact ih hstart
  | parentheses hkind hinside h ih => exact ih hstart

theorem StartsAt.rootIdentifier? (h : n.StartsAt start) (hstart : start.kind = "identifier" ∨ start.kind = "this") :
    n.rootIdentifier? = some start := by
  induction h with
  | here => rcases hstart with hkind | hkind <;> simp [rootIdentifier?_eq, hkind]
  | access hkind hobject h ih =>
    rw [rootIdentifier?_eq, hkind, hobject]
    exact ih hstart
  | parentheses hkind hinside h ih =>
    rw [rootIdentifier?_eq, hkind, hinside]
    exact ih hstart

theorem lastSegment?_eq_getLast? (s : Source)
    (h : n.kind = "identifier" ∨ n.kind = "member_expression" ∧ (n.child? "property").isSome = true) :
    ∃ name, n.lastSegment? s = some name ∧ (n.accessTail s).getLast? = some name := by
  unfold lastSegment?
  rcases h with hkind | ⟨hkind, hproperty⟩
  · refine ⟨s.textOf n, by simp [hkind], ?_⟩
    rw [accessTail_identifier s hkind]
    rfl
  · obtain ⟨property, hproperty⟩ := Option.isSome_iff_exists.1 hproperty
    refine ⟨s.textOf property, ?_, ?_⟩
    · simp [hkind, propertyName?, hproperty]
    · rw [accessTail_of_property s hkind hproperty]
      exact List.getLast?_concat

/-- An access that has a path starts at one node, whose text comes first in it. The names at its end are the end of
the path, and all of it where the access starts at an identifier, which is then found as its root. The name that is
called is the last of the names at the end. -/
theorem readings_agree (s : Source) (n : Node) :
    (∀ path, n.accessPath? s = some path → ∃ start, (∀ m, n.StartsAt m ↔ m = start) ∧
      path.head? = some (s.textOf start) ∧ n.accessTail s <:+ path ∧
      (start.kind = "identifier" ∨ start.kind = "this" →
        n.accessTail s = path ∧ n.rootIdentifier? = some start)) ∧
    (n.kind = "identifier" ∨ n.kind = "member_expression" ∧ (n.child? "property").isSome = true →
      ∃ name, n.lastSegment? s = some name ∧ (n.accessTail s).getLast? = some name) := by
  refine ⟨fun path hpath => ?_, lastSegment?_eq_getLast? s⟩
  obtain ⟨start, hstart⟩ := exists_startsAt hpath
  obtain ⟨names, htail, hnames⟩ := hstart.exists_names s
  obtain ⟨first, hfirst, rfl⟩ := Option.map_eq_some_iff.1 (hnames path hpath)
  obtain rfl := hstart.accessPath?_eq_singleton hfirst
  refine ⟨start, fun m => ⟨fun hm => hm.eq hstart, fun hm => hm ▸ hstart⟩, rfl, ?_, fun hkind => ⟨?_, ?_⟩⟩
  · rw [htail]
    by_cases hkind : start.kind = "identifier" ∨ start.kind = "this"
    · exact (accessTail_plain s hkind).symm ▸ List.suffix_rfl
    · exact (hstart.accessTail_eq_nil hkind).symm ▸ List.suffix_append _ _
  · rw [htail, accessTail_plain s hkind]
  · exact hstart.rootIdentifier? hkind

/-- The source `(window).app.state`, with the node of `window` and that of the access. -/
def stateOnWindow : Source × Node × Node :=
  let window := Node.plain "identifier" "" 1 7 []
  let app := Node.plain "member_expression" "object" 0 12
    [.plain "parenthesized_expression" "object" 0 8 [window], .plain "property_identifier" "property" 9 12 []]
  (⟨"(window).app.state"⟩, window,
    .plain "member_expression" "" 0 18 [app, .plain "property_identifier" "property" 13 18 []])

theorem readings_stateOnWindow :
    let (s, window, n) := stateOnWindow
    n.accessPath? s = some ["window", "app", "state"] ∧ n.accessTail s = ["window", "app", "state"] ∧
      n.rootIdentifier? = some window ∧ n.lastSegment? s = some "state" := by
  have hpath : stateOnWindow.2.2.accessPath? stateOnWindow.1 = some ["window", "app", "state"] := by
    cbv
  have hwindow : stateOnWindow.2.2.StartsAt stateOnWindow.2.1 :=
    .access rfl rfl (.access rfl rfl (.parentheses rfl rfl (.here (by decide) (by decide))))
  obtain ⟨hwhole, hlast⟩ := readings_agree stateOnWindow.1 stateOnWindow.2.2
  obtain ⟨start, hstarts, -, -, hplain⟩ := hwhole _ hpath
  obtain rfl := (hstarts _).1 hwindow
  obtain ⟨htail, hroot⟩ := hplain (.inl rfl)
  obtain ⟨name, hname, hend⟩ := hlast (.inr ⟨rfl, rfl⟩)
  rw [htail] at hend
  cases hend
  exact ⟨hpath, htail, hroot, hname⟩

end Guardrails.Node
