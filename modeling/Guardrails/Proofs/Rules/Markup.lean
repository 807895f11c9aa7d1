import Guardrails.Proofs.Rules.Comments
import Guardrails.Proofs.Tree.Alike
import Guardrails.Proofs.Tree.Descent

/-!
# Markup in parentheses

Parentheses around a value do not change whether it may be written as markup, but for one kind of value: an empty
literal is looked for before the parentheses are removed.
-/

namespace Guardrails.SanitizeHtml

open Node

variable {x : SanitizeHtml} {ctx ctx' : FileContext} {value inside inside' : Node} {message message' : String}

/-! ## Writes -/

/-- Whether a node writes a value as markup, which is reported by a message unless the value is safe. -/
inductive Writes (x : SanitizeHtml) (ctx : FileContext) (n value : Node) : String → Prop
  | assigns {left : Node} {property : String} (hkind : n.kind = "assignment_expression")
      (hleft : n.child? "left" = some left) (hsink : x.sinkProperty? ctx left = some property)
      (hvalue : n.child? "right" = some value) : Writes x ctx n value ("unsanitized write to `" ++ property ++ "`")
  | appends {left operator : Node} {property : String} (hkind : n.kind = "augmented_assignment_expression")
      (hoperator : n.child? "operator" = some operator) (htext : ctx.text operator = .ok "+=")
      (hleft : n.child? "left" = some left) (hsink : x.sinkProperty? ctx left = some property)
      (hvalue : n.child? "right" = some value) : Writes x ctx n value ("unsanitized write to `" ++ property ++ "`")
  | passes {method : String} (hkind : n.kind = "call_expression") (hmethod : n.calledMethod? ctx.source = some method)
      (hsink : method ∈ x.sinkMethods) (hvalue : n.callArguments[1]? = some value) :
      Writes x ctx n value ("unsanitized markup passed to `" ++ method ++ "`")

theorem writeFindings_of_sink {n left : Node} {property : String} (hleft : n.child? "left" = some left)
    (hsink : x.sinkProperty? ctx left = some property) (hvalue : n.child? "right" = some value) :
    x.writeFindings ctx n =
      if x.isSafe ctx value then [] else report ctx n ("unsanitized write to `" ++ property ++ "`") := by
  unfold writeFindings
  simp only [hleft, hvalue, hsink]

theorem Writes.foundAt {f : Focus} (h : Writes x ctx f.node value message) :
    foundAt x.findings ctx f = if x.isSafe ctx value then [] else report ctx f.node message := by
  unfold Guardrails.foundAt findings assignmentFindings
  cases h with
  | assigns hkind hleft hsink hvalue =>
    rw [if_neg (by simp [hkind]), if_neg (by simp [hkind]), writeFindings_of_sink hleft hsink hvalue]
    rfl
  | appends hkind hoperator htext hleft hsink hvalue =>
    rw [if_neg (by simp [hkind]), if_pos (by simp [hkind]), hoperator]
    simp only [htext, bind, Except.bind, beq_self_eq_true, if_true, writeFindings_of_sink hleft hsink hvalue]
    rfl
  | @passes method hkind hmethod hsink hvalue =>
    have hlisted : (some method).filter (x.sinkMethods.contains ·) = some method := by simp [hsink]
    rw [if_pos (by simp [hkind]), callFindings, hmethod, hlisted, hvalue]
    rfl

theorem Writes.foundAt_eq_nil_iff {f : Focus} (h : Writes x ctx f.node value message) :
    Guardrails.foundAt x.findings ctx f = [] ↔ x.isSafe ctx value = true := by
  rw [h.foundAt]
  cases x.isSafe ctx value <;> simp [report]

/-! ## Parentheses -/

theorem firstNamed?_of_no_comment {n : Node} (h : ∀ c ∈ n.children, c.isComment = false) :
    firstNamed? n = n.inside? := by
  rw [firstNamed?, Node.inside?, Node.namedChildren, ← List.head?_filter]
  refine congrArg List.head? (List.filter_congr fun c hc => ?_)
  rw [h c hc, Bool.not_false, Bool.and_true]

theorem unwrap_of_wraps (h : value.Wraps inside) (hcomments : value.Throughout (·.isComment = false)) :
    unwrap value = unwrap inside := by
  induction h with
  | refl n => rfl
  | @parentheses n first m hkind hinside h ih =>
    have hchildren : ∀ c ∈ n.children, c.isComment = false := fun c hc => (hcomments.of_mem_children hc).self
    have hmem : first ∈ n.children := mem_children_of_mem_namedChildren (List.mem_of_mem_head? hinside)
    rw [unwrap_of_firstNamed? hkind ((firstNamed?_of_no_comment hchildren).trans hinside),
      ih (hcomments.of_mem_children hmem)]

/-- Parentheses are no literal, and what is in them is looked at only if it is a call. -/
theorem isSafe_of_parentheses (hkind : value.kind = "parenthesized_expression") (hwraps : value.Wraps inside)
    (hcomments : value.Throughout (·.isComment = false)) :
    x.isSafe ctx value = (x.isSafe ctx inside && !inside.isEmptyLiteral ctx.source) := by
  have hliteral : value.isEmptyLiteral ctx.source = false := by
    simp [Node.isEmptyLiteral, Node.isStringLiteral, hkind]
  rw [isSafe, isSafe, hliteral, Bool.false_or, unwrap_of_wraps hwraps hcomments]
  cases hempty : inside.isEmptyLiteral ctx.source with
  | false => simp
  | true =>
    -- An empty literal is no call, so that the second test does not accept it either.
    have hinside : inside.kind = "string" ∨ inside.kind = "template_string" := by
      simpa [Node.isStringLiteral] using (Bool.and_eq_true_iff.1 hempty).1
    have hcallee : (unwrap inside).callee? = none := by
      rw [unwrap_of_kind_ne (by rcases hinside with h | h <;> simp [h]), Node.callee?]
      rcases hinside with h | h <;> simp [h]
    rw [hcallee]
    rfl

/-! ## One value in two sources -/

theorem rel_firstNamed? {s t : Source} {n m : Node} (h : Alike s t n m) :
    Option.Rel (Alike s t) (firstNamed? n) (firstNamed? m) :=
  h.find? fun _ _ _ hcd => hcd.isNamed

theorem alike_unwrap {s t : Source} {n m : Node} (h : Alike s t n m) : Alike s t (unwrap n) (unwrap m) := by
  induction n using children_induction generalizing m with
  | h n ih =>
    rw [unwrap_eq, unwrap_eq m, ← h.kind]
    split_ifs with hkind
    · have hmem (first : Node) (hfirst : firstNamed? n = some first) : first ∈ n.children :=
        List.mem_of_find?_eq_some hfirst
      have hrel := rel_firstNamed? h
      generalize firstNamed? n = first?, firstNamed? m = first?' at hrel hmem ⊢
      cases hrel with
      | none => exact h
      | some hfirst => exact ih _ (hmem _ rfl) hfirst
    · exact h

theorem isSanitizer_of_alike {n m : Node} (h : Alike ctx.source ctx'.source n m) :
    x.isSanitizer ctx n = x.isSanitizer ctx' m := by
  rw [isSanitizer, isSanitizer, h.lastSegment?, h.calleeMatches]

theorem isSafe_of_alike {n m : Node} (h : Alike ctx.source ctx'.source n m) : x.isSafe ctx n = x.isSafe ctx' m := by
  have hcallee := (alike_unwrap h).callee?
  rw [isSafe, isSafe, h.isEmptyLiteral]
  generalize (unwrap n).callee? = callee?, (unwrap m).callee? = callee?' at hcallee ⊢
  cases hcallee with
  | none => rw [Option.any_none, Option.any_none]
  | some hfunction => rw [Option.any_some, Option.any_some, isSanitizer_of_alike hfunction]

/-! ## Values in parentheses -/

theorem isSafe_of_wraps (hwraps : value.Wraps inside) (hcomments : value.Throughout (·.isComment = false)) :
    x.isSafe ctx value = true ↔
      x.isSafe ctx inside = true ∧ (value = inside ∨ inside.isEmptyLiteral ctx.source = false) := by
  have hcases := hwraps
  cases hcases with
  | refl => simp
  | parentheses hkind _ _ =>
    rw [isSafe_of_parentheses hkind hwraps hcomments]
    have hne : value = inside → inside.isEmptyLiteral ctx.source = false := by
      rintro rfl
      simp [Node.isEmptyLiteral, Node.isStringLiteral, hkind]
    simpa using fun _ => hne

/-- A value in parentheses is as safe as the value that another source has without them, and is reported where that
would be reported. An empty literal is the exception, which is reported as soon as there are parentheses. -/
theorem found_of_wraps (hwraps : value.Wraps inside) (hcomments : value.Throughout (·.isComment = false))
    (halike : Alike ctx.source ctx'.source inside inside') :
    (∀ bound root, (FileAnalysis.ofWalk [x.checker] bound ctx root).violations =
      ((Focus.root root).lookedAt x.checker.kinds x.findings ctx bound).flatMap (foundAt x.findings ctx)) ∧
      (x.isSafe ctx value = true ↔
        x.isSafe ctx' inside' = true ∧ (value = inside ∨ inside.isEmptyLiteral ctx.source = false)) ∧
      (∀ function, inside.callee? = some function → x.isSanitizer ctx function = true → x.isSafe ctx value = true) ∧
      ∀ (f g : Focus) (message message' : String), Writes x ctx f.node value message →
        Writes x ctx' g.node inside' message' →
          (foundAt x.findings ctx f = [] ↔
            foundAt x.findings ctx' g = [] ∧ (value = inside ∨ inside.isEmptyLiteral ctx.source = false)) ∧
          (foundAt x.findings ctx f = [] ∨ foundAt x.findings ctx f = report ctx f.node message) := by
  have hsafe : x.isSafe ctx value = true ↔ _ := isSafe_of_wraps hwraps hcomments
  refine ⟨fun bound root => Walk.violations_of_looks (Checker.looks_ofFindings _ _ _ _) bound ctx root, ?_, ?_, ?_⟩
  · rw [hsafe, isSafe_of_alike halike]
  · intro function hcallee hsanitizer
    have hkind : inside.kind = "call_expression" := by
      by_contra hkind
      simp [Node.callee?, hkind] at hcallee
    have hliteral : inside.isEmptyLiteral ctx.source = false := by
      simp [Node.isEmptyLiteral, Node.isStringLiteral, hkind]
    have hcall : x.isSafe ctx inside = true := by
      rw [isSafe, unwrap_of_kind_ne (by simp [hkind]), hcallee, Option.any_some, hsanitizer, Bool.or_true]
    exact hsafe.2 ⟨hcall, .inr hliteral⟩
  · intro f g message message' hwrite hwrite'
    constructor
    · rw [hwrite.foundAt_eq_nil_iff, hwrite'.foundAt_eq_nil_iff, hsafe, isSafe_of_alike halike]
    · rw [hwrite.foundAt]
      exact ite_eq_or_eq _ _ _

/-- The call `sanitize(html)` at this offset. -/
def sanitizing (field : String) (i : Nat) : Node :=
  .plain "call_expression" field i (i + 14) [.plain "identifier" "function" i (i + 8) [],
    .plain "arguments" "arguments" (i + 8) (i + 14) [.plain "identifier" "" (i + 9) (i + 13) []]]

/-- The source `el.innerHTML = ((sanitize(html)));`, with the value that is written. -/
def nestedCall : FileContext × Node :=
  (.ofFile ⟨"/app"⟩ ⟨"/app/a.js"⟩ "el.innerHTML = ((sanitize(html)));",
    .plain "parenthesized_expression" "right" 15 33
      [.plain "parenthesized_expression" "" 16 32 [sanitizing "" 17]])

/-- The source `el.innerHTML = sanitize(html);`, with the value that is written. -/
def bareCall : FileContext × Node :=
  (.ofFile ⟨"/app"⟩ ⟨"/app/a.js"⟩ "el.innerHTML = sanitize(html);", sanitizing "right" 15)

theorem wraps_nestedCall : nestedCall.2.Wraps (sanitizing "" 17) :=
  .parentheses rfl rfl (.parentheses rfl rfl (.refl _))

theorem alike_sanitizing : Alike nestedCall.1.source bareCall.1.source (sanitizing "" 17) bareCall.2 := by
  have hleaf (n m : Node) (hn : n.children = []) (hm : m.children = []) (hkind : n.kind = m.kind)
      (hnamed : n.isNamed = m.isNamed) (htext : nestedCall.1.source.textOf n = bareCall.1.source.textOf m) :
      Alike nestedCall.1.source bareCall.1.source n m :=
    .of_forall₂ hkind hnamed htext (by rw [hn, hm]; exact .nil)
  refine .of_forall₂ rfl rfl (by decide +kernel)
    (.cons ⟨rfl, hleaf _ _ rfl rfl rfl rfl (by decide +kernel)⟩ (.cons ⟨rfl, ?_⟩ .nil))
  exact .of_forall₂ rfl rfl (by decide +kernel) (.cons ⟨rfl, hleaf _ _ rfl rfl rfl rfl (by decide +kernel)⟩ .nil)

theorem writes_nestedCall :
    Writes standard nestedCall.1 (Focus.root (assignment nestedCall.2)).node nestedCall.2
      "unsanitized write to `innerHTML`" := by
  obtain ⟨left, hleft, hsink⟩ : ∃ left, (assignment nestedCall.2).child? "left" = some left ∧
      standard.sinkProperty? nestedCall.1 left = some "innerHTML" := ⟨_, rfl, rfl⟩
  exact .assigns rfl hleft hsink rfl

theorem writes_bareCall :
    Writes standard bareCall.1 (Focus.root (assignment bareCall.2)).node bareCall.2
      "unsanitized write to `innerHTML`" := by
  obtain ⟨left, hleft, hsink⟩ : ∃ left, (assignment bareCall.2).child? "left" = some left ∧
      standard.sinkProperty? bareCall.1 left = some "innerHTML" := ⟨_, rfl, rfl⟩
  exact .assigns rfl hleft hsink rfl

theorem found_of_nestedCall :
    standard.isSafe nestedCall.1 nestedCall.2 = true ∧
      foundAt standard.findings nestedCall.1 (.root (assignment nestedCall.2)) = [] ∧
      foundAt standard.findings bareCall.1 (.root (assignment bareCall.2)) = [] := by
  have hcomments : nestedCall.2.Throughout (·.isComment = false) := by
    rw [Node.Throughout, Node.descendants_eq]
    decide
  obtain ⟨-, -, hsanitized, hfound⟩ := found_of_wraps (x := standard) wraps_nestedCall hcomments alike_sanitizing
  have hsafe : standard.isSafe nestedCall.1 nestedCall.2 = true := hsanitized _ rfl rfl
  have hsilent := writes_nestedCall.foundAt_eq_nil_iff.2 hsafe
  exact ⟨hsafe, hsilent, ((hfound _ _ _ _ writes_nestedCall writes_bareCall).1.1 hsilent).1⟩

/-- The source ``el.innerHTML = ((``));``, with the value that is written. -/
def nestedLiteral : FileContext × Node :=
  (.ofFile ⟨"/app"⟩ ⟨"/app/a.js"⟩ "el.innerHTML = ((``));", .plain "parenthesized_expression" "right" 15 21
    [.plain "parenthesized_expression" "" 16 20 [.plain "template_string" "" 17 19 []]])

/-- An empty literal in parentheses is not safe. -/
theorem not_isSafe_eq_of_wraps : ¬ ∀ (x : SanitizeHtml) (ctx : FileContext) (value inside : Node),
    value.Wraps inside → value.Throughout (·.isComment = false) → x.isSafe ctx value = x.isSafe ctx inside := by
  intro h
  have hwraps : nestedLiteral.2.Wraps (.plain "template_string" "" 17 19 []) :=
    .parentheses rfl rfl (.parentheses rfl rfl (.refl _))
  have hcomments : nestedLiteral.2.Throughout (·.isComment = false) := by
    rw [Node.Throughout, Node.descendants_eq]
    decide
  have hempty : (Node.plain "template_string" "" 17 19 []).isEmptyLiteral nestedLiteral.1.source = true := rfl
  have hsame := h standard nestedLiteral.1 _ _ hwraps hcomments
  rw [isSafe_of_parentheses rfl hwraps hcomments, isSafe, hempty] at hsame
  exact Bool.false_ne_true hsame

end Guardrails.SanitizeHtml
