import Mathlib
import Guardrails.Proofs.Lists
import Guardrails.Proofs.Report.Sorting

/-!
# Merging reports

Reports on different files may be merged in any order and in any groups. Files come first in every order of a
report, and what concerns one file stands in one of the reports, so that sorting brings back one result.
-/

namespace Guardrails.Report

/-! ## Ways of merging -/

/-- A way of merging reports: the report without entries, one of the reports, or what two ways come to, the
second added to the first. -/
inductive Merging
  | empty
  | report (r : Report)
  | extend (m n : Merging)

namespace Merging

/-- The reports that are merged, from the first to the last. -/
def reports : Merging → List Report
  | empty => []
  | report r => [r]
  | extend m n => m.reports ++ n.reports

def result : Merging → Report
  | empty => .empty
  | report r => r
  | extend m n => m.result.merge n.result

theorem result_eq (m : Merging) :
    m.result = ⟨m.reports.flatMap (·.violations), m.reports.flatMap (·.failures),
      m.reports.flatMap (·.faults), (m.reports.map (·.filesChecked)).sum⟩ := by
  induction m with
  | empty => rfl
  | report r => simp [result, reports]
  | extend m n ihm ihn => simp [result, reports, ihm, ihn, merge]

end Merging

/-! ## Reports on different files -/

def files (r : Report) : List Path :=
  r.violations.map (·.location.file) ++ r.failures.map (·.file) ++ r.faults.map (·.file)

theorem mem_files {r : Report} {p : Path} :
    p ∈ r.files ↔ (∃ v ∈ r.violations, v.location.file = p) ∨ (∃ x ∈ r.failures, x.file = p) ∨
      ∃ x ∈ r.faults, x.file = p := by
  simp only [files, List.mem_append, List.mem_map, or_assoc]

/-- Whether two reports have no file in common. -/
def IsApart (r s : Report) : Prop :=
  ∀ p ∈ r.files, ∀ q ∈ s.files, (p == q) = false

section

variable {β : Type} {entries : Report → List β} {file : β → Path}
  (hfiles : ∀ r, ∀ b ∈ entries r, file b ∈ r.files)
include hfiles

theorem IsApart.filter_eq_nil {r s : Report} (h : r.IsApart s) (path : Path) :
    (entries r).filter (file · == path) = [] ∨ (entries s).filter (file · == path) = [] := by
  cases hr : (entries r).filter (file · == path) with
  | nil => exact .inl rfl
  | cons b rest =>
    obtain ⟨hb, hbpath⟩ := List.mem_filter.1 (hr ▸ List.mem_cons_self : b ∈ (entries r).filter (file · == path))
    refine .inr (List.filter_eq_nil_iff.2 ?_)
    intro c hc hcpath
    have happart := h _ (hfiles r b hb) _ (hfiles s c hc)
    rw [BEq.trans hbpath (BEq.symm hcpath)] at happart
    cases happart

/-- The entries of reports without common files are sorted into one list. -/
theorem mergeSort_entries_of_perm {cmp : β → β → Ordering} [Std.TransCmp cmp]
    (hfile : ∀ a b, cmp a b = .eq → (file a == file b) = true) {rs ss : List Report} (hperm : rs.Perm ss)
    (hapart : ss.Pairwise IsApart) :
    ((rs.flatMap entries).mergeSort fun a b => (cmp a b).isLE) =
      (ss.flatMap entries).mergeSort fun a b => (cmp a b).isLE := by
  apply mergeSort_eq_of_files hfile
  intro path
  rw [List.filter_flatMap, List.filter_flatMap]
  apply flatMap_eq_of_perm hperm
  exact hapart.imp fun h => h.filter_eq_nil hfiles path

end

/-- Reports without common files come to one report when they are merged and sorted, in whatever order and
groups, and so to one summary. -/
theorem sort_result_of_perm {m n : Merging} (hperm : m.reports.Perm n.reports)
    (hapart : n.reports.Pairwise IsApart) :
    m.result.sort = n.result.sort ∧ m.result.sort.summary = n.result.sort.summary ∧
      m.result.sort.isFailure = n.result.sort.isFailure ∧
      ∀ severity, m.result.sort.count severity = n.result.sort.count severity := by
  have hsort : m.result.sort = n.result.sort := by
    rw [m.result_eq, n.result_eq, sort, sort, Report.mk.injEq]
    refine ⟨?_, ?_, ?_, ?_⟩
    · exact mergeSort_entries_of_perm (fun _ v hv => mem_files.2 (.inl ⟨v, hv, rfl⟩))
        (fun _ _ => Violation.file_beq_of_order) hperm hapart
    · exact mergeSort_entries_of_perm (fun _ x hx => mem_files.2 (.inr (.inl ⟨x, hx, rfl⟩)))
        (fun _ _ => ParseFailure.file_beq_of_order) hperm hapart
    · exact mergeSort_entries_of_perm (fun _ x hx => mem_files.2 (.inr (.inr ⟨x, hx, rfl⟩)))
        (fun _ _ => Fault.file_beq_of_order) hperm hapart
    · exact (hperm.map _).sum_nat
  rw [hsort]
  exact ⟨rfl, rfl, rfl, fun _ => rfl⟩

/-- Two calls that begin at one place in one file, another file with a failing checker, and a third one that was
not analyzed: merged one after the other, and the last two first. -/
theorem sort_result_of_threeFiles :
    let outer : Violation := .ofRule .apiClient ⟨⟨"static/a.js"⟩, some 2, 1, 10, 30⟩ "network call"
    let inner : Violation := .ofRule .apiClient ⟨⟨"static/a.js"⟩, some 2, 1, 10, 20⟩ "network call"
    let checked : Report := ⟨[outer, inner], [], [], 1⟩
    let faulty : Report := ⟨[], [], [⟨⟨"static/b.js"⟩, "api-client", none, none, "broken"⟩], 1⟩
    let failed : Report := ⟨[], [⟨⟨"static/c.js"⟩, "no text", none, none⟩], [], 0⟩
    let onward : Merging := .extend (.extend (.extend .empty (.report checked)) (.report faulty)) (.report failed)
    let backward : Merging := .extend (.extend (.report failed) (.report faulty)) (.report checked)
    onward.reports.Perm backward.reports ∧ backward.reports.Pairwise IsApart ∧
      onward.result.sort = backward.result.sort := by
  intro outer inner checked faulty failed onward backward
  have hperm : onward.reports.Perm backward.reports := List.reverse_perm [failed, faulty, checked]
  have hapart : backward.reports.Pairwise IsApart := by
    unfold IsApart
    decide +kernel
  exact ⟨hperm, hapart, (sort_result_of_perm hperm hapart).1⟩

end Guardrails.Report
