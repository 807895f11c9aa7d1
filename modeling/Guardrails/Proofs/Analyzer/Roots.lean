import Guardrails.Analyzer
import Guardrails.Proofs.Path.Joining
import Guardrails.Proofs.Tree.Family
import Guardrails.Proofs.Walk.Attribution
import Guardrails.Proofs.Walk.Following
import Guardrails.Rules.Builtin

/-!
# Where the root is

What is found in a file hangs on where the file is only in two ways: by its path seen from the root, which
violations carry, and by whether its full path is taken for that of a test.
-/

namespace Guardrails

/-- Whether a checker does the same for two files that differ in their full paths alone. -/
structure Checker.IgnoresPath (c : Checker) : Prop where
  start : ∀ (ctx : FileContext) path, c.start { ctx with path } = c.start ctx
  visit : ∀ (ctx : FileContext) path state f k, c.visit { ctx with path } state f k = c.visit ctx state f k
  finish : ∀ (ctx : FileContext) path state k, c.finish { ctx with path } state k = c.finish ctx state k

theorem Checker.ignoresPath_of_mem_builtin {config : Config} {c : Checker} (h : c ∈ builtin config) :
    c.IgnoresPath := by
  simp only [builtin, List.mem_cons, List.not_mem_nil, or_false] at h
  rcases h with rfl | rfl | rfl | rfl | rfl | rfl | rfl | rfl | rfl | rfl | rfl | rfl | rfl | rfl | rfl | rfl
  all_goals exact ⟨fun _ _ => rfl, fun _ _ _ _ _ => rfl, fun _ _ _ _ => rfl⟩

theorem Checker.IgnoresPath.follows {c : Checker} (h : c.IgnoresPath) (ctx : FileContext) (path : Path) :
    c.Follows ctx { ctx with path } (fun _ => True) id id where
  start := by
    rw [h.start]
    cases c.start ctx <;> rfl
  visit := by
    intro state f k _ _
    rw [id, id, h.visit]
    unfold Reply.mapValue
    rcases c.visit ctx state f k with ⟨reports, result⟩
    cases result <;> rfl
  finish := by
    intro state k
    rw [id, h.finish]

namespace Walk

theorem ofWalk_of_ignoresPath {cs : List Checker} (h : ∀ c ∈ cs, c.IgnoresPath) (bound : Nat) (ctx : FileContext)
    (path : Path) (root : Node) :
    FileAnalysis.ofWalk cs bound { ctx with path } root = FileAnalysis.ofWalk cs bound ctx root := by
  have hlike : FileContext.LooksLike { ctx with path } ctx := ⟨rfl, rfl⟩
  have hkeeps : Focus.Keeps (fun _ => True) id := ⟨fun _ _ => rfl, fun _ _ => rfl, fun _ _ => rfl⟩
  have hplaces : (Focus.root root).within bound =
      (((Focus.root root).within bound).filter fun _ => true).map id := by simp
  obtain ⟨hviolations, hfaults⟩ := run_of_follows hlike hkeeps (fun c hc => ⟨id, (h c hc).follows ctx path⟩)
    hplaces (fun _ _ _ => trivial) (by simp) ((Focus.isChain_within bound root).imp (by simp))
  have hlimited := (depthLimited_run_eq cs bound { ctx with path } root).trans
    (depthLimited_run_eq cs bound ctx root).symm
  unfold FileAnalysis.ofWalk
  simp only [hviolations, hfaults, hlimited]

end Walk

namespace Analyzer

/-- A file below a root is analyzed as it is below every other root, as long as its full path is taken for that of
a test below both of them or below none. -/
theorem analyzeSource_join {a : Analyzer} {config : Config} {root root' p : Path}
    (hbuiltin : ∀ c ∈ a.checkers, c ∈ Checker.builtin config) (hroot : root.isAbsolute = true)
    (hroot' : root'.isAbsolute = true) (hp : p.isAbsolute = false) (text : String) (tree : Node) :
    root'.relativeTo (root'.join p) = root.relativeTo (root.join p) ∧
      ((root'.join p).isTest = (root.join p).isTest →
        { a with root := root' }.analyzeSource (root'.join p) text tree =
          { a with root }.analyzeSource (root.join p) text tree) ∧
      (p.fileName?.isSome = true → (root.join p).isTest = (root.hasTestDirectory || p.isTest)) := by
  have hrelative : root'.relativeTo (root'.join p) = root.relativeTo (root.join p) := by
    rw [Path.relativeTo_join hroot' hp, Path.relativeTo_join hroot hp]
  refine ⟨hrelative, ?_, Path.isTest_join hroot hp⟩
  intro htest
  have hcontext : FileContext.ofFile root' (root'.join p) text =
      { FileContext.ofFile root (root.join p) text with path := root'.join p } := by
    unfold FileContext.ofFile
    rw [hrelative, htest]
  have hwalk := Walk.ofWalk_of_ignoresPath
    (fun c hc => Checker.ignoresPath_of_mem_builtin (hbuiltin c hc)) a.maxDepth
    (FileContext.ofFile root (root.join p) text) (root'.join p) tree
  unfold analyzeSource
  simp only [hcontext, hwalk]
  rfl

/-- The tree of `console.log('x');`. -/
def logging : Node :=
  .plain "program" "" 0 17 [.plain "expression_statement" "" 0 17 [.plain "call_expression" "" 0 16
    [.plain "member_expression" "function" 0 11
      [.plain "identifier" "object" 0 7 [], .plain "property_identifier" "property" 8 11 []],
     .plain "arguments" "arguments" 11 16 [.plain "string" "" 12 15 []]]]]

/-- The analysis of that module in a project below a root. -/
def analysisBelow (root : Path) (checkers : List Checker) : Except ParseFailure FileAnalysis :=
  Analyzer.analyzeSource ⟨root, [], checkers, [], [], 4096, .default⟩ (root.join ⟨"static/js/module.js"⟩)
    "console.log('x');" logging

theorem analysisBelow_eq :
    ((Path.mk "/srv/app").join ⟨"static/js/module.js"⟩).isTest =
        ((Path.mk "/repo").join ⟨"static/js/module.js"⟩).isTest ∧
      analysisBelow ⟨"/srv/app"⟩ (Checker.builtin .default) = analysisBelow ⟨"/repo"⟩ (Checker.builtin .default) ∧
      ((Path.mk "/repo").join ⟨"static/js/module.js"⟩).isTest =
        ((Path.mk "/repo").hasTestDirectory || (Path.mk "static/js/module.js").isTest) := by
  have htest : ((Path.mk "/srv/app").join ⟨"static/js/module.js"⟩).isTest =
      ((Path.mk "/repo").join ⟨"static/js/module.js"⟩).isTest := rfl
  have hjoin := @analyzeSource_join ⟨⟨"/repo"⟩, [], Checker.builtin .default, [], [], 4096, .default⟩ .default
    ⟨"/repo"⟩ ⟨"/srv/app"⟩ ⟨"static/js/module.js"⟩ (fun _ hc => hc) rfl rfl rfl "console.log('x');" logging
  exact ⟨htest, hjoin.2.1 htest, hjoin.2.2 rfl⟩

def factory : Checker :=
  (FactoryExport.ofConfig .default).checker

theorem length_analysisBelow :
    (analysisBelow ⟨"/srv/tests"⟩ [factory]).toOption.map (·.violations.length) = some 0 ∧
      (analysisBelow ⟨"/repo"⟩ [factory]).toOption.map (·.violations.length) = some 1 := by
  simp only [analysisBelow, analyzeSource, FileAnalysis.ofWalk, Walk.run_eq]
  exact ⟨rfl, rfl⟩

/-- A directory on the way to the root may change what is found. -/
theorem analyzeSource_ne : ¬ ∀ (a : Analyzer) (config : Config) (root root' p : Path) (text : String)
    (tree : Node), (∀ c ∈ a.checkers, c ∈ Checker.builtin config) → root.isAbsolute = true →
      root'.isAbsolute = true → p.isAbsolute = false →
      { a with root := root' }.analyzeSource (root'.join p) text tree =
        { a with root }.analyzeSource (root.join p) text tree := by
  intro h
  have hbuiltin : ∀ c ∈ [factory], c ∈ Checker.builtin .default := by
    intro c hc
    obtain rfl := List.mem_singleton.1 hc
    exact List.mem_cons_self
  have hsame : analysisBelow ⟨"/srv/tests"⟩ [factory] = analysisBelow ⟨"/repo"⟩ [factory] :=
    h ⟨⟨"/repo"⟩, [], [factory], [], [], 4096, .default⟩ .default ⟨"/repo"⟩ ⟨"/srv/tests"⟩
      ⟨"static/js/module.js"⟩ "console.log('x');" logging hbuiltin rfl rfl rfl
  obtain ⟨htests, hrepo⟩ := length_analysisBelow
  rw [hsame, hrepo] at htests
  cases htests

end Analyzer
end Guardrails
