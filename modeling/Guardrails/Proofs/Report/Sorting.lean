import Guardrails.Proofs.Path.Components
import Guardrails.Report

/-!
# Stable sorting

Sorting leaves what is alike in its order as it was, and so a sorted list is known by its members of each
kind. To sort and then to pick is to pick and then to sort.
-/

namespace Guardrails

/-! ## Sorted lists -/

/-- Whether a relation puts any two in order, one of them first or both alike. -/
structure IsRanking {α : Type _} (le : α → α → Bool) : Prop where
  trans : ∀ a b c, le a b = true → le b c = true → le a c = true
  total : ∀ a b, (le a b || le b a) = true

/-- Whether a relation puts neither of two before the other. -/
def alike {α : Type _} (le : α → α → Bool) (a b : α) : Bool :=
  le a b && le b a

namespace IsRanking

variable {α : Type _} {le : α → α → Bool} (h : IsRanking le)
include h

theorem refl (a : α) : le a a = true := by
  simpa using h.total a a

theorem alike_refl (a : α) : alike le a a = true := by
  rw [alike, h.refl, Bool.and_self]

theorem le_of_alike {a b c : α} (hb : alike le a b = true) (hc : alike le a c = true) : le b c = true :=
  h.trans b a c (Bool.and_eq_true_iff.1 hb).2 (Bool.and_eq_true_iff.1 hc).1

theorem alike_of_mem {a b : α} {as bs : List α} (has : (a :: as).Pairwise fun a b => le a b = true)
    (hbs : (b :: bs).Pairwise fun a b => le a b = true) (ha : a ∈ b :: bs) (hb : b ∈ a :: as) :
    alike le a b = true := by
  have hle : ∀ {x y : α} {l : List α}, (x :: l).Pairwise (fun a b => le a b = true) → y ∈ x :: l →
      le x y = true := by
    intro x y l hl hy
    rcases List.mem_cons.1 hy with rfl | hy
    · exact h.refl y
    · exact List.rel_of_pairwise_cons hl hy
  rw [alike, hle has hb, hle hbs ha, Bool.and_self]

/-- Sorted lists with the same members of each kind, in the same order, are the same. -/
theorem eq_of_pairwise {as bs : List α} (has : as.Pairwise fun a b => le a b = true)
    (hbs : bs.Pairwise fun a b => le a b = true)
    (hsame : ∀ a, as.filter (alike le a) = bs.filter (alike le a)) : as = bs := by
  have hmem : ∀ {x : α} {l m : List α}, (∀ a, l.filter (alike le a) = m.filter (alike le a)) →
      x ∈ l → x ∈ m := by
    intro x l m hlm hx
    have hfilter : x ∈ l.filter (alike le x) := List.mem_filter.2 ⟨hx, h.alike_refl x⟩
    rw [hlm x] at hfilter
    exact (List.mem_filter.1 hfilter).1
  induction as generalizing bs with
  | nil =>
    cases bs with
    | nil => rfl
    | cons b bs => exact absurd (hmem (fun a => (hsame a).symm) List.mem_cons_self) List.not_mem_nil
  | cons a as ih =>
    cases bs with
    | nil => exact absurd (hmem hsame List.mem_cons_self) List.not_mem_nil
    | cons b bs =>
      -- The two are alike, and both the first of their kind.
      have hab := h.alike_of_mem has hbs (hmem hsame List.mem_cons_self)
        (hmem (fun a => (hsame a).symm) List.mem_cons_self)
      have hfirst := hsame a
      rw [List.filter_cons_of_pos (h.alike_refl a), List.filter_cons_of_pos hab] at hfirst
      obtain rfl := List.head_eq_of_cons_eq hfirst
      have hrest : ∀ c, as.filter (alike le c) = bs.filter (alike le c) := by
        intro c
        have hc := hsame c
        rw [List.filter_cons, List.filter_cons] at hc
        split at hc
        · exact List.tail_eq_of_cons_eq hc
        · exact hc
      rw [ih has.of_cons hbs.of_cons hrest]

/-! ## Sorting -/

theorem pairwise_mergeSort (l : List α) : (l.mergeSort le).Pairwise fun a b => le a b = true :=
  List.pairwise_mergeSort h.trans h.total l

theorem filter_alike_mergeSort (l : List α) (a : α) :
    (l.mergeSort le).filter (alike le a) = l.filter (alike le a) := by
  have hkind : (l.filter (alike le a)).Pairwise fun a b => le a b = true := by
    refine List.pairwise_of_forall_mem_list ?_
    intro b hb c hc
    exact h.le_of_alike (List.mem_filter.1 hb).2 (List.mem_filter.1 hc).2
  -- Being in order among themselves, they stay a sublist, and none of them is lost.
  have hsublist := (List.sublist_mergeSort h.trans h.total hkind List.filter_sublist).filter (alike le a)
  rw [List.filter_filter] at hsublist
  simp only [Bool.and_self] at hsublist
  exact (hsublist.eq_of_length ((List.mergeSort_perm l le).filter _).length_eq.symm).symm

theorem mergeSort_eq {l m : List α} (hsame : ∀ a, l.filter (alike le a) = m.filter (alike le a)) :
    l.mergeSort le = m.mergeSort le :=
  h.eq_of_pairwise (h.pairwise_mergeSort l) (h.pairwise_mergeSort m) fun a => by
    rw [h.filter_alike_mergeSort, h.filter_alike_mergeSort, hsame]

theorem filter_mergeSort (p : α → Bool) (l : List α) :
    (l.mergeSort le).filter p = (l.filter p).mergeSort le := by
  refine h.eq_of_pairwise ((h.pairwise_mergeSort l).filter p) (h.pairwise_mergeSort _) fun a => ?_
  have hboth : ∀ m : List α, (m.filter p).filter (alike le a) = (m.filter (alike le a)).filter p := by
    intro m
    rw [List.filter_filter, List.filter_filter]
    exact List.filter_congr fun b _ => Bool.and_comm _ _
  rw [h.filter_alike_mergeSort, hboth, hboth, h.filter_alike_mergeSort]

theorem filter_mergeSort_of_forall {p : α → Bool} {l : List α}
    (hp : ∀ a b, p a = true → p b = true → le a b = true) : (l.mergeSort le).filter p = l.filter p := by
  rw [h.filter_mergeSort]
  refine List.mergeSort_of_pairwise (List.pairwise_of_forall_mem_list fun a ha b hb => ?_)
  exact hp a b (List.mem_filter.1 ha).2 (List.mem_filter.1 hb).2

end IsRanking

theorem isRanking_of_transCmp {α : Type _} (cmp : α → α → Ordering) [Std.TransCmp cmp] :
    IsRanking fun a b => (cmp a b).isLE where
  trans _ _ _ hab hbc := Std.TransCmp.isLE_trans hab hbc
  total a b := by
    have hswap : cmp b a = (cmp a b).swap := Std.OrientedCmp.eq_swap
    rw [hswap]
    cases cmp a b <;> rfl

theorem eq_of_alike {α : Type _} {cmp : α → α → Ordering} [Std.OrientedCmp cmp] {a b : α}
    (h : alike (fun a b => (cmp a b).isLE) a b = true) : cmp a b = .eq := by
  have hswap : cmp b a = (cmp a b).swap := Std.OrientedCmp.eq_swap
  rw [alike, hswap] at h
  revert h
  cases cmp a b <;> simp

/-- Sorting by an order in which only what has one file is alike hangs on what each file has. -/
theorem mergeSort_eq_of_files {α : Type _} {cmp : α → α → Ordering} [Std.TransCmp cmp] {file : α → Path}
    (hfile : ∀ a b, cmp a b = .eq → (file a == file b) = true) {l m : List α}
    (hsame : ∀ path, l.filter (file · == path) = m.filter (file · == path)) :
    (l.mergeSort fun a b => (cmp a b).isLE) = m.mergeSort fun a b => (cmp a b).isLE := by
  refine (isRanking_of_transCmp cmp).mergeSort_eq fun a => ?_
  have hkind : ∀ k : List α, k.filter (alike (fun a b => (cmp a b).isLE) a) =
      (k.filter (file · == file a)).filter (alike (fun a b => (cmp a b).isLE) a) := by
    intro k
    rw [List.filter_filter]
    refine List.filter_congr fun b _ => ?_
    cases halike : alike (fun a b => (cmp a b).isLE) a b with
    | false => rfl
    | true => rw [BEq.symm (hfile a b (eq_of_alike halike))]; rfl
  rw [hkind l, hkind m, hsame]

/-! ## The orders of reports -/

instance : Std.TransCmp Violation.order :=
  inferInstanceAs <| Std.TransCmp <| compareLex (compareOn fun v : Violation => v.location.file) <|
    compareLex (compareOn fun v => v.rule.number) <| compareLex (compareOn fun v => v.location.line?) <|
    compareLex (compareOn fun v => v.location.column) (compareOn Violation.message)

instance : Std.TransCmp ParseFailure.order :=
  inferInstanceAs <| Std.TransCmp <| compareLex (compareOn ParseFailure.file) (compareOn ParseFailure.line?)

instance : Std.TransCmp Fault.order :=
  inferInstanceAs <| Std.TransCmp <| compareLex (compareOn Fault.file) <| compareLex (compareOn Fault.line?) <|
    compareLex (compareOn Fault.checker) (compareOn Fault.message)

theorem Violation.file_beq_of_order {v w : Violation} (h : v.order w = .eq) :
    (v.location.file == w.location.file) = true :=
  Path.compare_eq_iff.1 (Ordering.then_eq_eq.1 h).1

theorem ParseFailure.file_beq_of_order {x y : ParseFailure} (h : x.order y = .eq) :
    (x.file == y.file) = true :=
  Path.compare_eq_iff.1 (Ordering.then_eq_eq.1 h).1

theorem Fault.file_beq_of_order {x y : Fault} (h : x.order y = .eq) : (x.file == y.file) = true :=
  Path.compare_eq_iff.1 (Ordering.then_eq_eq.1 h).1

end Guardrails
