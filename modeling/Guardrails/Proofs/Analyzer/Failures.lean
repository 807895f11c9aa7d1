import Guardrails.Analyzer
import Guardrails.Proofs.Tree.Defects

/-!
# Rejected trees

A tree that is marked as holding an error is not analyzed, whatever the checkers are. The failure that is reported
instead points at the first defect of the tree, if one can be seen in it.
-/

namespace Guardrails

theorem ParseFailure.ofTree?_of_hasError {root : Node} (file : Path) (s : Source) (h : root.hasError = true) :
    ∃ message, ofTree? file s root = some ⟨file, message,
      root.firstDefect?.map fun n => (s.positionOf n).row + 1,
      root.firstDefect?.map fun n => (s.positionOf n).column + 1⟩ := by
  rw [ofTree?, if_pos h]
  cases root.firstDefect? with
  | none => exact ⟨_, rfl⟩
  | some n => exact ⟨_, rfl⟩

namespace Analyzer

variable {a : Analyzer} {path : Path} {text : String} {root : Node}

theorem analyzeSource_of_some {failure : ParseFailure}
    (h : ParseFailure.ofTree? (a.root.relativeTo path) ⟨text⟩ root = some failure) :
    a.analyzeSource path text root = .error failure := by
  have hctx : ParseFailure.ofTree? (FileContext.ofFile a.root path text).relative
      (FileContext.ofFile a.root path text).source root = some failure := h
  simp only [analyzeSource, hctx]

theorem analyzeSource_of_none (h : ParseFailure.ofTree? (a.root.relativeTo path) ⟨text⟩ root = none) :
    a.analyzeSource path text root =
      let ctx := FileContext.ofFile a.root path text
      let analysis := FileAnalysis.ofWalk a.checkers a.maxDepth ctx root
      .ok { analysis with violations := settle a.config ctx analysis.violations } := by
  have hctx : ParseFailure.ofTree? (FileContext.ofFile a.root path text).relative
      (FileContext.ofFile a.root path text).source root = none := h
  simp only [analyzeSource, hctx]

/-- Where everything around a defect is marked as holding an error, the search for one ends, in no more rounds than
the tree has nodes, with the one that comes first in document order, and without one only where there is none. A
marked tree is rejected at the start of this defect, or without a position, whatever the checkers are. -/
theorem analyzeSource_of_marksDefects (h : root.MarksDefects) :
    ∃ first? : Option Focus,
      (Cursor.start root).firstDefect? = first? ∧
      (∃ rounds ≤ root.size, (Cursor.start root).Searches rounds first?) ∧
      (Focus.root root).subtree.find? (·.node.isDefect) = first? ∧
      (∀ f, first? = some f ↔ (Focus.root root).IsFirstDefect f) ∧
      (first? = none ↔ ∀ f ∈ (Focus.root root).subtree, f.node.isDefect = false) ∧
      (root.hasError = true → ∀ (a : Analyzer) (path : Path) (text : String), ∃ failure : ParseFailure,
        (∀ checkers, { a with checkers }.analyzeSource path text root = .error failure) ∧
        failure.line? = first?.map (fun f => (Source.positionOf ⟨text⟩ f.node).row + 1) ∧
        failure.column? = first?.map (fun f => (Source.positionOf ⟨text⟩ f.node).column + 1)) ∧
      (root.hasError = false → ∀ (a : Analyzer) (path : Path) (text : String),
        ∃ analysis, a.analyzeSource path text root = .ok analysis) := by
  have hfirst := Node.firstDefect?_start h
  refine ⟨_, hfirst, Node.searches_find? h, rfl, fun f => Focus.find?_isDefect_eq_some_iff, ?_, ?_, ?_⟩
  · simp [List.find?_eq_none]
  · intro herror a path text
    obtain ⟨message, hfailure⟩ := ParseFailure.ofTree?_of_hasError (a.root.relativeTo path) ⟨text⟩ herror
    rw [Node.firstDefect?, hfirst, Option.map_map, Option.map_map] at hfailure
    exact ⟨_, fun checkers => analyzeSource_of_some hfailure, rfl, rfl⟩
  · intro hclean a path text
    have hparsed : ParseFailure.ofTree? (a.root.relativeTo path) ⟨text⟩ root = none := by
      simp [ParseFailure.ofTree?, hclean]
    exact ⟨_, analyzeSource_of_none hparsed⟩

/-- The tree of `a b;` and `f(;` on two lines. The first statement is marked without a defect that could be seen, and
in the second one there are two. -/
def unfinished : Node :=
  let marked kind start stop children : Node := ⟨kind, true, false, false, true, "", start, stop, children⟩
  marked "program" 0 8 [
    marked "expression_statement" 0 4 [.plain "identifier" "" 0 1 [], .plain "identifier" "" 2 3 []],
    marked "expression_statement" 5 8 [
      marked "call_expression" 5 7
        [.plain "identifier" "function" 5 6 [], ⟨"ERROR", true, true, false, true, "", 6, 7, []⟩],
      ⟨")", false, false, true, true, "", 7, 7, []⟩]]

theorem analyzeSource_unfinished :
    unfinished.MarksDefects ∧ unfinished.hasError = true ∧
    let analyzer : Analyzer :=
      ⟨⟨"/repo"⟩, [], [], [], [], 4096, ⟨.recommended, AnalyzerSettings.default, []⟩⟩
    ∃ failure,
      (∀ checkers,
        { analyzer with checkers }.analyzeSource ⟨"/repo/a.js"⟩ "a b;\nf(;" unfinished = .error failure) ∧
      failure.line? = some 2 ∧ failure.column? = some 2 := by
  have hmarks : unfinished.MarksDefects := by decide
  refine ⟨hmarks, rfl, ?_⟩
  obtain ⟨first?, -, -, hfirst, -, -, hrejected, -⟩ := analyzeSource_of_marksDefects hmarks
  obtain ⟨failure, hfailure, hline, hcolumn⟩ := hrejected rfl
    ⟨⟨"/repo"⟩, [], [], [], [], 4096, ⟨.recommended, AnalyzerSettings.default, []⟩⟩ ⟨"/repo/a.js"⟩ "a b;\nf(;"
  subst hfirst
  exact ⟨failure, hfailure, hline, hcolumn⟩

end Analyzer
end Guardrails
