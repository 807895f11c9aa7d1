import Mathlib.Data.List.Flatten
import Guardrails.Proofs.Report.Encoding
import Guardrails.Proofs.Report.Grouping
import Guardrails.Proofs.Report.Headlines

/-!
# The formats of reports

The full text is made of parts: headings for files and rules, and the findings under them. From the top down, its
findings are the violations in the order of the report, as the compact text and the JSON form have them. They can be
read off the text again by the indentation of its lines.
-/

namespace Guardrails.Report

/-! ## Parts of the full text -/

inductive Part
  | file (path : Path)
  /-- The heading of a rule, with the number of the findings under it. -/
  | rule (rule : Rule) (count : Nat)
  | finding (v : Violation)
  /-- What separates two files. -/
  | gap

namespace Part

def lines (color : Bool) : Part → List String
  | file path => [path.spelling]
  | rule r count => [s!"  {r.code} {r.name} ({count})"]
  | finding v => violationLines color v
  | gap => [""]

def finding? : Part → Option Violation
  | finding v => some v
  | _ => none

end Part

def partsOfRule (group : Rule × List Violation) : List Part :=
  .rule group.1 group.2.length :: group.2.map .finding

def partsOfFile (file : Path × RuleGroups) : List Part :=
  .file file.1 :: file.2.flatMap partsOfRule ++ [.gap]

/-- The parts in which the full text shows violations. -/
def parts (vs : List Violation) : List Part :=
  (groupByFile vs).flatMap partsOfFile

/-- What the full text ends with, below the violations. -/
def closingLines (r : Report) (color : Bool) : List String :=
  r.failures.map (fun f => s!"{Severity.paint color .error}: {f.display}") ++
    r.faults.map (fun f => s!"{Severity.paint color .warning}: checker fault: {f.display}") ++ [r.summary]

theorem ruleLines_eq (color : Bool) (group : Rule × List Violation) :
    ruleLines color group.1 group.2 = (partsOfRule group).flatMap (Part.lines color) := by
  rw [partsOfRule, List.flatMap_cons, List.flatMap_map]
  rfl

theorem fileLines_eq (color : Bool) (file : Path × RuleGroups) :
    fileLines color file.1 file.2 = (partsOfFile file).flatMap (Part.lines color) := by
  rw [partsOfFile, List.flatMap_append, List.flatMap_cons, List.flatMap_assoc]
  simp only [fileLines, ruleLines_eq]
  rfl

theorem textLines_eq (r : Report) (color : Bool) :
    r.textLines color = (parts r.violations).flatMap (Part.lines color) ++ r.closingLines color := by
  rw [parts, List.flatMap_assoc, textLines, closingLines]
  simp only [fileLines_eq, List.append_assoc]

/-! ## Findings -/

theorem filterMap_finding?_partsOfRule (group : Rule × List Violation) :
    (partsOfRule group).filterMap Part.finding? = group.2 := by
  rw [partsOfRule, List.filterMap_cons_none rfl, List.filterMap_map]
  exact List.filterMap_some

theorem filterMap_finding?_parts (vs : List Violation) :
    (parts vs).filterMap Part.finding? = (groupByFile vs).flatMap (·.2.members) := by
  have hfile : ∀ file : Path × RuleGroups, (partsOfFile file).filterMap Part.finding? = file.2.members := by
    intro file
    rw [partsOfFile, List.filterMap_append, List.filterMap_cons_none rfl, List.filterMap_flatMap]
    simp only [filterMap_finding?_partsOfRule]
    exact List.append_nil _
  rw [parts, List.filterMap_flatMap]
  exact List.flatMap_congr fun file _ => hfile file

theorem filterMap_finding?_sortViolations (vs : List Violation) :
    (parts (sortViolations vs)).filterMap Part.finding? = sortViolations vs := by
  rw [filterMap_finding?_parts, flatMap_groupByFile]
  exact List.mergeSort_of_pairwise
    (((isRanking_of_transCmp Violation.order).pairwise_mergeSort vs).imp Violation.isLE_headingOrder)

/-! ## Counts -/

/-- Whether every heading of a rule has as many findings under it, all of its rule, as it says. -/
def IsCounted (ps : List Part) : Prop :=
  ∀ r count rest, .rule r count :: rest <:+ ps →
    (rest.takeWhile (·.finding?.isSome)).length = count ∧
      ∀ v ∈ (rest.takeWhile (·.finding?.isSome)).filterMap Part.finding?, v.rule = r

theorem IsCounted.cons {p : Part} {ps : List Part} (h : IsCounted ps) (hp : ∀ r count, p ≠ .rule r count) :
    IsCounted (p :: ps) := by
  intro r count rest hsuffix
  rcases List.suffix_cons_iff.1 hsuffix with heq | hsuffix
  · exact absurd (List.head_eq_of_cons_eq heq).symm (hp r count)
  · exact h r count rest hsuffix

theorem IsCounted.findings {ps : List Part} (h : IsCounted ps) (vs : List Violation) :
    IsCounted (vs.map .finding ++ ps) := by
  induction vs with
  | nil => exact h
  | cons v vs ih => exact ih.cons fun _ _ => Part.noConfusion

theorem IsCounted.partsOfRule {ps : List Part} (h : IsCounted ps) (hps : ∀ p ∈ ps.head?, p.finding? = none)
    {group : Rule × List Violation} (hgroup : ∀ v ∈ group.2, v.rule = group.1) :
    IsCounted (partsOfRule group ++ ps) := by
  intro r count rest hsuffix
  rw [Report.partsOfRule, List.cons_append] at hsuffix
  rcases List.suffix_cons_iff.1 hsuffix with heq | hsuffix
  · obtain ⟨hheading, rfl⟩ := List.cons_eq_cons.1 heq
    cases hheading
    have hunder : (group.2.map Part.finding ++ ps).takeWhile (·.finding?.isSome) = group.2.map .finding := by
      rw [List.takeWhile_append_of_pos (by simp [Part.finding?])]
      cases ps with
      | nil => simp
      | cons p ps =>
        rw [List.takeWhile_cons_of_neg (by simp [hps p rfl]), List.append_nil]
    rw [hunder, List.length_map, List.filterMap_map]
    refine ⟨rfl, fun v hv => hgroup v ?_⟩
    simpa [Part.finding?] using hv
  · exact h.findings group.2 r count rest hsuffix

theorem IsCounted.rules {ps : List Part} (h : IsCounted ps) (hps : ∀ p ∈ ps.head?, p.finding? = none)
    {groups : RuleGroups} (hgroups : ∀ g ∈ groups, ∀ v ∈ g.2, v.rule = g.1) :
    IsCounted (groups.flatMap Report.partsOfRule ++ ps) := by
  induction groups with
  | nil => exact h
  | cons group groups ih =>
    obtain ⟨hgroup, hrest⟩ := List.forall_mem_cons.1 hgroups
    rw [List.flatMap_cons, List.append_assoc]
    refine (ih hrest).partsOfRule ?_ hgroup
    cases groups with
    | nil => exact hps
    | cons next groups =>
      rintro p ⟨⟩
      rfl

theorem isCounted_parts (vs : List Violation) : IsCounted (parts vs) := by
  have hgrouped := isGrouped_groupByFile vs
  have hfiles : ∀ files : List (Path × RuleGroups), (∀ f ∈ files, ∀ g ∈ f.2, ∀ v ∈ g.2, v.rule = g.1) →
      IsCounted (files.flatMap partsOfFile) := by
    intro files hrules
    induction files with
    | nil => exact fun _ _ _ hsuffix => absurd (List.suffix_nil.1 hsuffix) (List.cons_ne_nil _ _)
    | cons file files ih =>
      obtain ⟨hfile, hrest⟩ := List.forall_mem_cons.1 hrules
      rw [List.flatMap_cons, partsOfFile, List.cons_append, List.cons_append, List.append_assoc]
      refine IsCounted.cons (IsCounted.rules ?_ ?_ hfile) fun _ _ => Part.noConfusion
      · exact (ih hrest).cons fun _ _ => Part.noConfusion
      · rintro p ⟨⟩
        rfl
  exact hfiles _ fun f hf g hg v hv => (hgrouped.member f hf g hg v hv).2

/-! ## Reading the findings -/

theorem filter_lines {p : Part} (color : Bool) (h : ∀ path, p = .file path → indent path.spelling ≠ 4) :
    (p.lines color).filter (indent · == 4) = p.finding?.toList.map (headline color) := by
  cases p with
  | file path => exact List.filter_cons_of_neg (mt beq_iff_eq.1 (h path rfl))
  | rule r count =>
    refine List.filter_cons_of_neg ?_
    rw [indent_ruleHeading]
    decide
  | finding v => exact filter_violationLines color v
  | gap => rfl

theorem map_headline_filterMap_finding? (color : Bool) (ps : List Part) :
    (ps.filterMap Part.finding?).map (headline color) = ps.flatMap fun p => p.finding?.toList.map (headline color) := by
  rw [List.filterMap_eq_flatMap_toList, List.map_flatMap]

theorem headlines_sublist_lines (color : Bool) (ps : List Part) :
    ((ps.filterMap Part.finding?).map (headline color)).Sublist (ps.flatMap (Part.lines color)) := by
  rw [map_headline_filterMap_finding?]
  refine List.Sublist.flatMap_right ps fun p _ => ?_
  cases p with
  | finding v => exact List.singleton_sublist.2 List.mem_cons_self
  | file | rule | gap => exact List.nil_sublist _

theorem indent_summary (r : Report) : indent r.summary = 0 := by
  obtain ⟨behind, hsummary⟩ : ∃ behind, r.summary = "Found " ++ behind := by
    unfold summary
    simp only [String.append_assoc]
    exact ⟨_, rfl⟩
  rw [hsummary, indent_append (by decide)]
  decide

theorem indent_of_mem_closingLines {r : Report} {color : Bool} {line : String} (h : line ∈ r.closingLines color) :
    indent line = 0 := by
  unfold closingLines at h
  rcases List.mem_append.1 h with h | h
  · rcases List.mem_append.1 h with h | h
    · obtain ⟨f, -, rfl⟩ := List.mem_map.1 h
      simp only [String.append_assoc]
      exact indent_paint_append color .error _
    · obtain ⟨f, -, rfl⟩ := List.mem_map.1 h
      simp only [String.append_assoc]
      exact indent_paint_append color .warning _
  · rw [List.mem_singleton.1 h]
    exact indent_summary r

theorem exists_of_file_mem_parts {vs : List Violation} {path : Path} (h : .file path ∈ parts vs) :
    ∃ v ∈ vs, v.location.file = path := by
  obtain ⟨file, hfile, hpath⟩ := List.mem_flatMap.1 h
  obtain ⟨group, hgroup, rfl⟩ := List.mem_map.1 hfile
  have hheading : path = group.1 := by
    simpa [partsOfFile, partsOfRule] using hpath
  rw [hheading]
  exact Groups.exists_key_of_mem_ofList vs hgroup

/-- Where no text is broken and no name of a file is indented like a finding, the findings are found again. -/
theorem headlinesIn_text (r : Report) (color : Bool) (hlines : ∀ line ∈ r.textLines color, IsOneLine line)
    (hfiles : ∀ v ∈ r.violations, indent v.location.file.spelling ≠ 4) :
    headlinesIn (r.text color) = ((parts r.violations).filterMap Part.finding?).map (headline color) := by
  have hparts : ((parts r.violations).flatMap (Part.lines color)).filter (indent · == 4) =
      ((parts r.violations).filterMap Part.finding?).map (headline color) := by
    have heach : ∀ p ∈ parts r.violations,
        (p.lines color).filter (indent · == 4) = p.finding?.toList.map (headline color) := by
      intro p hp
      refine filter_lines color fun path hpath => ?_
      obtain ⟨v, hv, hfile⟩ := exists_of_file_mem_parts (hpath ▸ hp)
      exact hfile ▸ hfiles v hv
    rw [List.filter_flatMap, List.flatMap_congr heach, map_headline_filterMap_finding?]
  have hclosing : (r.closingLines color).filter (indent · == 4) = [] := by
    refine List.filter_eq_nil_iff.2 fun line hline => ?_
    rw [indent_of_mem_closingLines hline]
    decide
  have hend : [""].filter (indent · == 4) = [] := rfl
  rw [headlinesIn, text, split_unlines hlines, List.filter_append, textLines_eq, List.filter_append, hparts, hclosing,
    hend, List.append_nil, List.append_nil]

/-! ## All formats -/

/-- Whether the full text, the compact text and the JSON form of a report show these violations, in this order. -/
structure Shows (r : Report) (color : Bool) (shown : List Violation) : Prop where
  parts : (parts r.violations).filterMap Part.finding? = shown
  counted : IsCounted (Report.parts r.violations)
  text : r.text color = unlines ((Report.parts r.violations).flatMap (Part.lines color) ++ r.closingLines color)
  inOrder : (shown.map (headline color)).Sublist (r.textLines color)
  headlines : (∀ line ∈ r.textLines color, IsOneLine line) →
    (∀ v ∈ r.violations, indent v.location.file.spelling ≠ 4) →
    headlinesIn (r.text color) = shown.map (headline color)
  compact : r.compact = unlines (shown.map (·.display) ++ r.failures.map (·.display))
  json : ∃ others, r.toJson = .object (("violations", .array (shown.map (·.toJson))) :: others)

theorem shows_sort (r : Report) (color : Bool) : r.sort.Shows color r.sort.violations := by
  have hparts : (parts r.sort.violations).filterMap Part.finding? = r.sort.violations :=
    filterMap_finding?_sortViolations r.violations
  refine ⟨hparts, isCounted_parts _, ?_, ?_, fun hlines hfiles => ?_, rfl, ⟨_, rfl⟩⟩
  · rw [text, textLines_eq]
  · have hheadlines := headlines_sublist_lines color (parts r.sort.violations)
    rw [hparts] at hheadlines
    rw [textLines_eq]
    exact hheadlines.trans (List.sublist_append_left _ _)
  · rw [headlinesIn_text r.sort color hlines hfiles, hparts]

/-- A report on one file, which breaks one rule at a place in it and another one as a whole. -/
def twoFindings : Report :=
  let file : Path := ⟨"static/a.js"⟩
  let write := Violation.ofRule .sanitizeHtml ⟨file, some 4, 3, 0, 0⟩ "unsanitized write to `innerHTML`"
  ⟨[{ write with sourceLine? := some "  el.innerHTML = html;" },
    .ofRule .moduleSize (.ofFile file) "module has 1200 lines (limit 1000)"], [], [], 1⟩

/-- To go through the groups by file and rule is to sort by both. So the full text of a report in its order shows, from
the top down, the violations that the compact text and the JSON form list in that order, which are all that were found.
Each heading of a rule tells how many findings of the rule stand under it. What is shown of a violation tells it apart:
its line in the full text from those of other places, severities and messages, its line in the compact text from those
of other codes besides, and its JSON form from that of every other one. -/
theorem formats_agree :
    (∀ vs : List Violation, IsGrouped (groupByFile vs) ∧
      (groupByFile vs).flatMap (·.2.members) = vs.mergeSort fun v w => (v.headingOrder w).isLE) ∧
    (∀ (r : Report) (color : Bool), r.sort.violations.Perm r.violations ∧ r.sort.Shows color r.sort.violations) ∧
    ∀ v w : Violation,
      (∀ color, (violationLines color v).head? =
          some s!"    {v.location.position} {v.severity.paint color}: {v.message}" ∧
        (headline color v = headline color w ↔ v.IsToldAs w)) ∧
      (v.location.file.spelling = w.location.file.spelling → v.code.toList.length = w.code.toList.length →
        (v.display = w.display ↔ v.code = w.code ∧ v.IsToldAs w)) ∧
      (v.toJson = w.toJson → v = w) := by
  refine ⟨fun vs => ⟨isGrouped_groupByFile vs, flatMap_groupByFile vs⟩,
    fun r color => ⟨List.mergeSort_perm _ _, shows_sort r color⟩, fun v w => ⟨?_, ?_, ?_⟩⟩
  · exact fun color => ⟨rfl, headline_eq_iff⟩
  · exact Violation.display_eq_iff
  · intro h
    have hread := Violation.ofJson?_toJson v
    rw [h, Violation.ofJson?_toJson] at hread
    exact (Option.some.inj hread).symm

theorem headlinesIn_twoFindings : headlinesIn (twoFindings.sort.text false) =
    ["    4:3 error: unsanitized write to `innerHTML`", "    file warning: module has 1200 lines (limit 1000)"] := by
  have hsorted : twoFindings.violations.Pairwise fun v w => (v.order w).isLE = true := by decide +kernel
  have hsort : twoFindings.sort = twoFindings := by
    rw [sort, sortViolations, List.mergeSort_of_pairwise hsorted]
    simp [twoFindings, sortFailures, sortFaults]
  obtain ⟨-, hshows⟩ := formats_agree.2.1 twoFindings false
  have hlines : ∀ line ∈ twoFindings.sort.textLines false, IsOneLine line := by
    rw [hsort]
    decide +kernel
  rw [hshows.headlines hlines (by rw [hsort]; decide +kernel), hsort]
  decide +kernel

example : twoFindings.text false = "static/a.js\n  GL007 sanitize-html (1)\n" ++
    "    4:3 error: unsanitized write to `innerHTML`\n      | el.innerHTML = html;\n" ++
    "  GL017 module-size (1)\n    file warning: module has 1200 lines (limit 1000)\n\n" ++
    "Found 2 violation(s) (1 error(s), 1 warning(s), 0 info(s)) in 1 file(s)\n" := by
  decide +kernel

end Guardrails.Report
