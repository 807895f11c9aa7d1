import Mathlib.Tactic.MkIffOfInductiveProp
import Guardrails.Proofs.Rules.Globals
import Guardrails.Proofs.Text.Lines
import Guardrails.Rules.Builtin

/-!
# What messages quote

The messages of the built-in checkers are made of fixed texts, options, and texts from the source. Nearly all of
the latter are names, which have no line break in them. Longer texts are quoted in three places: an access to a
console, what an event is dispatched on, and the name of a service. Those may have some.
-/

namespace Guardrails

/-! ## Violations on one line -/

theorem Location.isOneLine_display (l : Location) : IsOneLine l.display ↔ IsOneLine l.file.spelling := by
  unfold display
  split
  · simp +decide only [isOneLine_append, isOneLine_toString, isOneLine_toString_string, and_true]
  · exact .rfl

theorem Severity.isOneLine_name (s : Severity) : IsOneLine s.name := by
  cases s <;> decide

theorem Rule.isOneLine_code (r : Rule) : IsOneLine r.code := by
  cases r <;> decide

theorem Rule.isOneLine_name (r : Rule) : IsOneLine r.name := by
  cases r <;> decide

theorem Violation.isOneLine_display (v : Violation) : IsOneLine v.display ↔
    IsOneLine v.location.file.spelling ∧ IsOneLine v.code ∧ IsOneLine v.message := by
  simp +decide only [display, isOneLine_append, isOneLine_toString_string, Location.isOneLine_display,
    Severity.isOneLine_name, and_true, and_assoc]

/-- Whether all of some violations are shown on one line each. -/
def AreOneLine (vs : List Violation) : Prop :=
  ∀ v ∈ vs, IsOneLine v.display

namespace AreOneLine

variable {ctx : FileContext} {r : Rule} {n : Node}

theorem nil : AreOneLine [] :=
  fun _ hv => absurd hv List.not_mem_nil

theorem atNode {message : String} (hfile : IsOneLine ctx.relative.spelling) (h : IsOneLine message) :
    AreOneLine [(ctx.violationAt r n message).withHint] := by
  intro v hv
  obtain rfl := List.mem_singleton.1 hv
  exact (Violation.isOneLine_display _).2 ⟨hfile, r.isOneLine_code, h⟩

theorem ofFile {message suggestion : String} (hfile : IsOneLine ctx.relative.spelling) (h : IsOneLine message) :
    AreOneLine [(ctx.fileViolation r message).withSuggestion suggestion] := by
  intro v hv
  obtain rfl := List.mem_singleton.1 hv
  exact (Violation.isOneLine_display _).2 ⟨hfile, r.isOneLine_code, h⟩

theorem map {names : List String} (message : String → String) (hfile : IsOneLine ctx.relative.spelling)
    (h : ∀ name ∈ names, IsOneLine (message name)) :
    AreOneLine (names.map fun name => (ctx.violationAt r n (message name)).withHint) := by
  intro v hv
  obtain ⟨name, hname, rfl⟩ := List.mem_map.1 hv
  exact (Violation.isOneLine_display _).2 ⟨hfile, r.isOneLine_code, h name hname⟩

end AreOneLine

/-! ## Options on one line -/

/-- The texts of an option: its own, or those in its array. -/
def Toml.Value.texts : Value → List String
  | string text => [text]
  | array items => items.filterMap (·.string?)
  | _ => []

/-- Whether no text in the options of a rule has a line break. -/
def RuleSection.IsOneLine (s : RuleSection) : Prop :=
  ∀ key v, s.option? key = some v → ∀ text ∈ v.texts, Guardrails.IsOneLine text

/-- Whether no text in the options of any rule has a line break. -/
def Config.HasOneLineOptions (c : Config) : Prop :=
  ∀ r, (c.options r).IsOneLine

namespace RuleSection.IsOneLine

variable {s : RuleSection} {key : String}

theorem names {default : List String} (h : s.IsOneLine) (hdefault : ∀ t ∈ default, Guardrails.IsOneLine t) :
    ∀ t ∈ s.names key default, Guardrails.IsOneLine t := by
  intro t ht
  unfold RuleSection.names at ht
  split at ht
  · rename_i items hitems
    obtain ⟨v, hv, harray⟩ := Option.bind_eq_some_iff.1 hitems
    cases v with
    | array members =>
      cases harray
      exact h key _ hv t ht
    | _ => cases harray
  · exact hdefault t ht

theorem text {default : String} (h : s.IsOneLine) (hdefault : Guardrails.IsOneLine default) :
    Guardrails.IsOneLine (((s.option? key).bind (·.string?)).getD default) := by
  cases htext : (s.option? key).bind (·.string?) with
  | none => exact hdefault
  | some t =>
    obtain ⟨v, hv, hstring⟩ := Option.bind_eq_some_iff.1 htext
    cases v with
    | string own =>
      cases hstring
      exact h key _ hv t List.mem_cons_self
    | _ => cases hstring

end RuleSection.IsOneLine

theorem isOneLine_of_filter {names : List String} {found? : Option String} {name : String}
    (hnames : ∀ t ∈ names, IsOneLine t) (h : found?.filter (names.contains ·) = some name) : IsOneLine name :=
  hnames name (List.contains_iff_mem.1 (Option.filter_eq_some_iff.1 h).2)

/-! ## Texts of nodes on one line -/

namespace Node

/-- The kinds of the nodes that are names. -/
def nameKinds : List String :=
  ["identifier", "this", "property_identifier", "private_property_identifier"]

/-- Whether a node is on one line if it is a name, and whether names stand where the grammar has them: behind the dot
of an access, and where a function is declared. -/
@[mk_iff]
structure IsLexical (s : Source) (n : Node) : Prop where
  name : n.kind ∈ nameKinds → IsOneLine (s.textOf n)
  property : n.kind = "member_expression" → ∀ p ∈ n.child? "property", p.kind ∈ nameKinds
  declared : n.kind = "function_declaration" → ∀ p ∈ n.child? "name", p.kind ∈ nameKinds

instance (s : Source) (n : Node) : Decidable (n.IsLexical s) :=
  decidable_of_iff' _ (isLexical_iff s n)

theorem mem_nameKinds_of_identifier {n : Node} (h : (n.kind == "identifier") = true) : n.kind ∈ nameKinds := by
  rw [eq_of_beq h]
  decide

end Node

/-- Whether the longer texts that messages quote are on one line at a node: an access to a console, what an event is
dispatched on, and the name of a service that is looked up. -/
@[mk_iff]
structure FileContext.QuotesOnLine (ctx : FileContext) (config : Config) (n : Node) : Prop where
  console : n.kind = "member_expression" → ∀ object ∈ n.child? "object", object.kind = "identifier" →
    (ForbiddenGlobals.ofConfig config).use? (ctx.textOf object) = some .console → IsOneLine (ctx.textOf n)
  receiver : (EventBus.ofConfig config).dispatches ctx n = true → ∀ function ∈ n.child? "function",
    ∀ receiver ∈ function.child? "object", IsOneLine (ctx.textOf receiver)
  service : (NoServiceLocator.ofConfig config).isLookup ctx n = true →
    ∀ name ∈ NoServiceLocator.target? ctx n, IsOneLine name

instance (ctx : FileContext) (config : Config) (n : Node) : Decidable (ctx.QuotesOnLine config n) :=
  decidable_of_iff' _ (ctx.quotesOnLine_iff config n)

/-- Whether what may be quoted from a node is on one line. -/
structure FileContext.FitsLine (ctx : FileContext) (config : Config) (n : Node) : Prop where
  lexical : n.IsLexical ctx.source
  quotes : ctx.QuotesOnLine config n

theorem Node.isOneLine_of_mem_accessTail {ctx : FileContext} {config : Config} {n : Node} {name : String}
    (h : n.Throughout (ctx.FitsLine config)) (hname : name ∈ n.accessTail ctx.source) : IsOneLine name := by
  have hlexical := h.self.lexical
  rw [accessTail_eq] at hname
  split at hname
  · rename_i hkind
    rcases List.mem_append.1 hname with hname | hname
    · cases hobject : n.child? "object" with
      | none =>
        rw [hobject] at hname
        exact absurd hname List.not_mem_nil
      | some object =>
        rw [hobject] at hname
        exact isOneLine_of_mem_accessTail (h.of_child? hobject) hname
    · -- what stands behind the dot is a name
      obtain ⟨p, hp, rfl⟩ := Option.map_eq_some_iff.1 (Option.mem_toList.1 hname)
      exact (h.of_child? hp).self.lexical.name (hlexical.property hkind p hp)
  · cases hinside : n.inside? with
    | none =>
      rw [hinside] at hname
      exact absurd hname List.not_mem_nil
    | some inside =>
      rw [hinside] at hname
      have hmem : inside ∈ n.children := mem_children_of_mem_namedChildren (List.mem_of_mem_head? hinside)
      exact isOneLine_of_mem_accessTail (h.of_mem_children hmem) hname
  · rename_i hkind
    rw [List.mem_singleton.1 hname]
    exact hlexical.name (by simp [hkind, nameKinds])
  · rename_i hkind
    rw [List.mem_singleton.1 hname]
    exact hlexical.name (by simp [hkind, nameKinds])
  · exact absurd hname List.not_mem_nil
termination_by n.size
decreasing_by
  · exact size_lt_of_child? hobject
  · exact size_lt_of_inside? hinside

theorem FileContext.isOneLine_of_text {ctx : FileContext} {config : Config} {n : Node} {text : String}
    (h : n.Throughout (ctx.FitsLine config)) (hkind : n.kind ∈ Node.nameKinds) (htext : ctx.text n = .ok text) :
    IsOneLine text := by
  rw [← textOf_of_text htext]
  exact h.self.lexical.name hkind

end Guardrails
