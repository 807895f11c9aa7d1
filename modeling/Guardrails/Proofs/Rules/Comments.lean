import Guardrails.Proofs.Rules.Removal
import Guardrails.Proofs.Walk.Alone

/-!
# Comments

A walk finds in a tree with comments what it finds in the tree without them. There are two exceptions: comments of
one kind count as named children, and parentheses around written markup may begin with a comment.
-/

namespace Guardrails

namespace Checker

theorem comment_not_mem_kinds {config : Config} {c : Checker} (h : c ∈ builtin config) :
    "comment" ∉ c.kinds ∧ "html_comment" ∉ c.kinds := by
  simp only [builtin, List.mem_cons, List.not_mem_nil, or_false] at h
  rcases h with rfl | rfl | rfl | rfl | rfl | rfl | rfl | rfl | rfl | rfl | rfl | rfl | rfl | rfl | rfl | rfl
  all_goals exact of_decide_eq_true rfl

theorem exists_follows_without {config : Config} {c : Checker} (h : c ∈ builtin config) (ctx : FileContext)
    {kinds : List String} {covers : Focus → Prop} (hkept : ∀ f, covers f → f.IsKept kinds)
    (hclear : c.name = "sanitize-html" → ∀ f, covers f → SanitizeHtml.IsClear kinds f.node) :
    ∃ image, c.Follows ctx ctx covers (Focus.without kinds) image := by
  simp only [builtin, List.mem_cons, List.not_mem_nil, or_false] at h
  rcases h with rfl | rfl | rfl | rfl | rfl | rfl | rfl | rfl | rfl | rfl | rfl | rfl | rfl | rfl | rfl | rfl
  · exact ⟨_, FactoryExport.follows _ ctx hkept⟩
  · exact ⟨_, follows_ofFindings fun f hf _ => ForbiddenGlobals.findings_without _ (hkept f hf)⟩
  · exact ⟨_, follows_ofFindings fun f hf hkind =>
      TopLevelEffects.findings_without (hkept f hf) (List.mem_singleton.1 hkind)⟩
  · exact ⟨_, ListenerCleanup.follows _ ctx hkept⟩
  · exact ⟨_, follows_ofFindings fun f hf _ => ErrorCapture.findings_without _ (hkept f hf)⟩
  · exact ⟨_, follows_ofFindings fun f hf _ => SanitizeHtml.findings_without _ (hkept f hf) (hclear rfl f hf)⟩
  · exact ⟨_, follows_ofFindings fun f hf _ => ReadinessGate.findings_without _ (hkept f hf)⟩
  · exact ⟨_, follows_ofFindings fun f hf _ => NoSharedStateMutation.findings_without _ (hkept f hf)⟩
  · exact ⟨_, EventBus.follows _ ctx hkept⟩
  · exact ⟨_, follows_ofFindings fun f hf _ => NavigationService.findings_without _ (hkept f hf)⟩
  · exact ⟨_, follows_ofFindings fun f hf _ => ApiClient.findings_without _ (hkept f hf)⟩
  · exact ⟨_, follows_ofFindings fun f hf _ => AnalyticsConsent.findings_without _ (hkept f hf)⟩
  · exact ⟨_, NotifierMetadata.follows _ ctx hkept⟩
  · exact ⟨_, follows_ofFindings fun f hf _ => TrackedListeners.findings_without _ (hkept f hf)⟩
  · exact ⟨_, follows_ofFindings fun f hf _ => NoServiceLocator.findings_without _ (hkept f hf)⟩
  · exact ⟨_, follows_ofFindings fun _ _ _ => rfl⟩

end Checker

namespace Walk

/-- What the built-in checkers find stays the same when comments are taken out of a tree. Those that count as named
children must not stand in lists, and where markup is looked at no comment may be taken for what is written. -/
theorem ofWalk_without {config : Config} {cs : List Checker} {kinds : List String} {root : Node}
    (hbuiltin : ∀ c ∈ cs, c ∈ Checker.builtin config) (hroot : root.stays kinds = true)
    (hloose : ∀ d ∈ root.descendants, d.kind ∈ kinds → d.IsLoose)
    (hlist : ∀ d ∈ root :: root.descendants, d.isList = true → ∀ c ∈ d.children, c.kind ∈ kinds → c.isComment = true)
    (hclear : ∀ c ∈ cs, c.name = "sanitize-html" → ∀ d ∈ root :: root.descendants, SanitizeHtml.IsClear kinds d)
    (bound : Nat) (ctx : FileContext) :
    (FileAnalysis.ofWalk cs bound ctx (root.without kinds)).violations =
        (FileAnalysis.ofWalk cs bound ctx root).violations ∧
      (FileAnalysis.ofWalk cs bound ctx (root.without kinds)).faults =
        (FileAnalysis.ofWalk cs bound ctx root).faults := by
  have htidy : root.Tidy kinds := Focus.tidy_of_descendants (f := Focus.root root) hloose hlist
  have hmem : ∀ f ∈ (Focus.root root).within bound, f ∈ (Focus.root root).subtree :=
    fun f hf => List.mem_of_mem_filter hf
  let covers (f : Focus) : Prop :=
    f.IsKept kinds ∧ ∀ c ∈ cs, c.name = "sanitize-html" → SanitizeHtml.IsClear kinds f.node
  have hkeeps : Focus.Keeps covers (Focus.without kinds) :=
    ⟨fun f _ => Node.kind_without kinds f.node, fun f _ => Node.start_without kinds f.node,
      fun f _ => Focus.depth_without kinds f⟩
  have hfollows : ∀ c ∈ cs, ∃ image, c.Follows ctx ctx covers (Focus.without kinds) image :=
    fun c hc => Checker.exists_follows_without (hbuiltin c hc) ctx (fun f hf => hf.1)
      fun hname f hf => hf.2 c hc hname
  have hcovers : ∀ f ∈ (Focus.root root).within bound, f.stays kinds = true → covers f := by
    intro f hf hstays
    refine ⟨(Focus.IsKept.root htidy hroot).descendants f (hmem f hf) hstays, ?_⟩
    intro c hc hname
    exact hclear c hc hname f.node (Focus.node_mem_of_mem_subtree (hmem f hf))
  -- What is missing is a comment, since the root stays, and no checker asks for comments.
  have hunwanted : ∀ f ∈ (Focus.root root).within bound, f.stays kinds = false →
      ∀ c ∈ cs, f.node.kind ∉ c.kinds := by
    intro f hf hdropped c hc
    have hkind : f.node.kind = "comment" ∨ f.node.kind = "html_comment" := by
      rcases List.mem_cons.1 (Focus.node_mem_of_mem_subtree (hmem f hf)) with heq | hbelow
      · rw [Focus.stays, heq] at hdropped
        cases hroot.symm.trans hdropped
      · exact (hloose f.node hbelow (by simpa [Focus.stays, Node.stays] using hdropped)).kind
    obtain ⟨hcomment, hhtml⟩ := Checker.comment_not_mem_kinds (hbuiltin c hc)
    rcases hkind with hkind | hkind
    · rw [hkind]
      exact hcomment
    · rw [hkind]
      exact hhtml
  exact run_of_follows ⟨rfl, rfl⟩ hkeeps hfollows (Focus.within_without htidy hroot bound) hcovers hunwanted
    (Focus.isChain_within_stays hroot hloose bound)

/-- In a list the other kind of comment counts: with `<!-- html comment` above `let a;` something is found, without it
nothing is. -/
example :
    let ctx := FileContext.ofFile ⟨"/app"⟩ ⟨"/app/a.js"⟩ "<!-- html comment\nlet a;"
    let root := Node.plain "program" "" 0 24 [.plain "html_comment" "" 0 17 [],
      .plain "lexical_declaration" "" 18 24 [.plain "variable_declarator" "" 22 23
        [.plain "identifier" "name" 22 23 []]]]
    (FileAnalysis.ofWalk [TopLevelEffects.checker] 4096 ctx root).violations.map (·.message) =
        ["top-level statement runs on import"] ∧
      (FileAnalysis.ofWalk [TopLevelEffects.checker] 4096 ctx (root.without ["html_comment"])).violations = [] := by
  decide +kernel

end Walk

/-! ## Comments in parentheses -/

def Node.commentKinds : List String := ["comment", "html_comment"]

namespace SanitizeHtml

def standard : SanitizeHtml := .ofConfig .default

/-- The tree of a write of a value to `el.innerHTML`. -/
def assignment (value : Node) : Node :=
  .plain "assignment_expression" "" 0 value.stop [.plain "member_expression" "left" 0 12
    [.plain "identifier" "object" 0 2 [], .plain "property_identifier" "property" 3 12 []], value]

def writing (value : Node) : Node :=
  .plain "program" "" 0 (value.stop + 1)
    [.plain "expression_statement" "" 0 (value.stop + 1) [assignment value]]

/-- The source `el.innerHTML = (html /* c */);`, with its tree. -/
def commentBehind : FileContext × Node :=
  (.ofFile ⟨"/app"⟩ ⟨"/app/a.js"⟩ "el.innerHTML = (html /* c */);",
    writing (.plain "parenthesized_expression" "right" 15 29
      [.plain "identifier" "" 16 20 [], .plain "comment" "" 21 28 []]))

theorem isClear_commentBehind : ∀ d ∈ commentBehind.2 :: commentBehind.2.descendants, IsClear Node.commentKinds d := by
  have hwritten : (commentBehind.2 :: commentBehind.2.descendants).flatMap written =
      [.plain "parenthesized_expression" "right" 15 29
        [.plain "identifier" "" 16 20 [], .plain "comment" "" 21 28 []]] := by
    rw [Node.descendants_eq]
    rfl
  intro d hd value hvalue
  have hmem := List.mem_flatMap_of_mem hd hvalue
  rw [hwritten] at hmem
  obtain rfl := List.mem_singleton.1 hmem
  rw [unwrap_of_firstNamed? rfl rfl, unwrap_of_kind_ne (by decide)]
  rfl

theorem violations_commentBehind :
    let (ctx, root) := commentBehind
    (∀ d ∈ root.descendants, d.kind ∈ Node.commentKinds → d.IsLoose) ∧
      (∀ d ∈ root :: root.descendants, IsClear Node.commentKinds d) ∧
      (FileAnalysis.ofWalk (Checker.builtin .default) 4096 ctx (root.without Node.commentKinds)).violations =
        (FileAnalysis.ofWalk (Checker.builtin .default) 4096 ctx root).violations := by
  have hloose : ∀ d ∈ commentBehind.2.descendants, d.kind ∈ Node.commentKinds → d.IsLoose := by
    rw [Node.descendants_eq]
    decide
  have hlist : ∀ d ∈ commentBehind.2 :: commentBehind.2.descendants, d.isList = true →
      ∀ c ∈ d.children, c.kind ∈ Node.commentKinds → c.isComment = true := by
    rw [Node.descendants_eq]
    decide
  exact ⟨hloose, isClear_commentBehind, (Walk.ofWalk_without (fun _ hc => hc) rfl hloose hlist
    (fun _ _ _ => isClear_commentBehind) 4096 commentBehind.1).1⟩

/-- The source `el.innerHTML = (/* c */ sanitize(html));`, with the value that is written. -/
def commentBefore : FileContext × Node :=
  (.ofFile ⟨"/app"⟩ ⟨"/app/a.js"⟩ "el.innerHTML = (/* c */ sanitize(html));",
    .plain "parenthesized_expression" "right" 15 39 [.plain "comment" "" 16 23 [],
      .plain "call_expression" "" 24 38 [.plain "identifier" "function" 24 32 [],
        .plain "arguments" "arguments" 32 38 [.plain "identifier" "" 33 37 []]]])

theorem isSafe_commentBefore : standard.isSafe commentBefore.1 commentBefore.2 = false := by
  have hcomment : unwrap commentBefore.2 = .plain "comment" "" 16 23 [] :=
    (unwrap_of_firstNamed? rfl rfl).trans (unwrap_of_kind_ne (by decide))
  rw [isSafe, hcomment]
  rfl

theorem isSafe_without_commentBefore :
    standard.isSafe commentBefore.1 (commentBefore.2.without Node.commentKinds) = true := by
  have hcall : (unwrap (commentBefore.2.without Node.commentKinds)).callee? =
      some (.plain "identifier" "function" 24 32 []) := by
    rw [unwrap_of_firstNamed? rfl rfl, unwrap_of_kind_ne (by decide)]
    rfl
  rw [isSafe, hcall]
  rfl

theorem violations_writing {value : Node}
    (h : value = commentBefore.2 ∨ value = commentBefore.2.without Node.commentKinds) :
    (FileAnalysis.ofWalk [standard.checker] 4096 commentBefore.1 (writing value)).violations =
      if standard.isSafe commentBefore.1 value then []
      else report commentBefore.1 (assignment value) "unsanitized write to `innerHTML`" := by
  have hlooks : standard.checker.Looks standard.findings := Checker.looks_ofFindings _ _ _ _
  rw [Walk.violations_of_looks hlooks, ← List.append_nil (ite _ _ _)]
  rcases h with rfl | rfl
  · rfl
  · rfl

/-- A comment that parentheses begin with may change what is found. -/
theorem violations_without_ne : ¬ ∀ (config : Config) (c : Checker) (bound : Nat) (ctx : FileContext)
    (root : Node), c ∈ Checker.builtin config → root.stays Node.commentKinds = true →
      (∀ d ∈ root.descendants, d.kind ∈ Node.commentKinds → d.IsLoose) →
      (FileAnalysis.ofWalk [c] bound ctx (root.without Node.commentKinds)).violations =
        (FileAnalysis.ofWalk [c] bound ctx root).violations := by
  intro h
  have hbuiltin : standard.checker ∈ Checker.builtin .default := by
    simp [Checker.builtin, standard]
  have hloose : ∀ d ∈ (writing commentBefore.2).descendants, d.kind ∈ Node.commentKinds → d.IsLoose := by
    rw [Node.descendants_eq]
    decide
  have hsame := h .default standard.checker 4096 commentBefore.1 (writing commentBefore.2) hbuiltin rfl hloose
  have hwithout : (writing commentBefore.2).without Node.commentKinds =
      writing (commentBefore.2.without Node.commentKinds) := rfl
  rw [hwithout, violations_writing (.inr rfl), violations_writing (.inl rfl), isSafe_without_commentBefore,
    isSafe_commentBefore] at hsame
  cases hsame

end SanitizeHtml

end Guardrails
