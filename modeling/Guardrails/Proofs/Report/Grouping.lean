import Mathlib.Data.List.Basic
import Guardrails.Proofs.Report.Sorting
import Guardrails.Report

/-!
# Groups in order

To put members into groups by a key is to sort them by that key: the groups, one after another, are the list in
the order of the keys, with the members of one group in the order in which they were. Violations, which are
grouped by file and then by rule, are so sorted by both.
-/

namespace Guardrails

namespace Groups

variable {κ α : Type} [Ord κ] {key : α → κ} {groups : Groups κ α}

/-! ## Adding a member -/

/-- Whether the keys of groups ascend, and each group has members, with keys that compare like its own. -/
structure IsKeyed (key : α → κ) (groups : Groups κ α) : Prop where
  ascending : groups.Pairwise fun g h => compare g.1 h.1 = .lt
  nonempty : ∀ g ∈ groups, g.2 ≠ []
  member : ∀ g ∈ groups, ∀ a ∈ g.2, compare (key a) g.1 = .eq

theorem fst_of_mem_insert {k : κ} {a : α} {g : κ × List α} (h : g ∈ groups.insert k a) :
    g.1 = k ∨ ∃ other ∈ groups, g.1 = other.1 := by
  induction groups with
  | nil => exact .inl (List.mem_singleton.1 h ▸ rfl)
  | cons first rest ih =>
    obtain ⟨firstKey, members⟩ := first
    rw [insert] at h
    split at h
    · rcases List.mem_cons.1 h with rfl | h
      · exact .inl rfl
      · exact .inr ⟨g, h, rfl⟩
    · rcases List.mem_cons.1 h with rfl | h
      · exact .inr ⟨_, List.mem_cons_self, rfl⟩
      · exact .inr ⟨g, List.mem_cons_of_mem _ h, rfl⟩
    · rcases List.mem_cons.1 h with rfl | h
      · exact .inr ⟨_, List.mem_cons_self, rfl⟩
      · exact (ih h).imp_right fun ⟨other, hother, heq⟩ => ⟨other, List.mem_cons_of_mem _ hother, heq⟩

theorem exists_key_of_mem_ofList {g : κ × List α} (as : List α) : g ∈ ofList key as → ∃ a ∈ as, key a = g.1 := by
  have hfold : ∀ groups : Groups κ α, g ∈ as.foldl (fun groups a => groups.insert (key a) a) groups →
      (∃ a ∈ as, key a = g.1) ∨ ∃ other ∈ groups, g.1 = other.1 := by
    induction as with
    | nil => exact fun groups hg => .inr ⟨g, hg, rfl⟩
    | cons a as ih =>
      intro groups hg
      rcases ih _ hg with ⟨b, hb, heq⟩ | ⟨other, hother, heq⟩
      · exact .inl ⟨b, List.mem_cons_of_mem a hb, heq⟩
      · rcases fst_of_mem_insert hother with hkey | ⟨before, hbefore, hkey⟩
        · exact .inl ⟨a, List.mem_cons_self, hkey.symm.trans heq.symm⟩
        · exact .inr ⟨before, hbefore, heq.trans hkey⟩
  exact fun h => (hfold [] h).resolve_right fun ⟨_, hother, _⟩ => absurd hother List.not_mem_nil

section

variable [Std.TransOrd κ]

theorem IsKeyed.insert (h : IsKeyed key groups) (a : α) : IsKeyed key (groups.insert (key a) a) := by
  induction groups with
  | nil => exact ⟨List.pairwise_singleton _ _, by simp [Groups.insert], by simp [Groups.insert]⟩
  | cons first rest ih =>
    obtain ⟨firstKey, members⟩ := first
    obtain ⟨hfirst, hrest⟩ := List.pairwise_cons.1 h.ascending
    obtain ⟨hsome, hsomes⟩ := List.forall_mem_cons.1 h.nonempty
    obtain ⟨halike, halikes⟩ := List.forall_mem_cons.1 h.member
    have hinserted := ih ⟨hrest, hsomes, halikes⟩
    rw [Groups.insert]
    split
    · rename_i hlt
      refine ⟨List.pairwise_cons.2 ⟨?_, h.ascending⟩, List.forall_mem_cons.2 ⟨by simp, h.nonempty⟩,
        List.forall_mem_cons.2 ⟨by simp, h.member⟩⟩
      intro g hg
      rcases List.mem_cons.1 hg with rfl | hg
      · exact hlt
      · exact Std.TransCmp.lt_trans hlt (hfirst g hg)
    · rename_i heq
      refine ⟨List.pairwise_cons.2 ⟨hfirst, hrest⟩, List.forall_mem_cons.2 ⟨by simp, hsomes⟩,
        List.forall_mem_cons.2 ⟨?_, halikes⟩⟩
      intro b hb
      rcases List.mem_append.1 hb with hb | hb
      · exact halike b hb
      · rw [List.mem_singleton.1 hb]
        exact heq
    · rename_i hgt
      refine ⟨List.pairwise_cons.2 ⟨?_, hinserted.ascending⟩,
        List.forall_mem_cons.2 ⟨hsome, hinserted.nonempty⟩, List.forall_mem_cons.2 ⟨halike, hinserted.member⟩⟩
      intro g hg
      rcases fst_of_mem_insert hg with heq | ⟨other, hother, heq⟩
      · rw [heq]
        exact Std.OrientedCmp.lt_of_gt hgt
      · rw [heq]
        exact hfirst other hother

theorem IsKeyed.compare_eq_lt {k : κ} (h : IsKeyed key groups) (hk : ∀ g ∈ groups, compare k g.1 = .lt) {b : α}
    (hb : b ∈ groups.members) : compare k (key b) = .lt := by
  obtain ⟨g, hg, hb⟩ := List.mem_flatMap.1 hb
  exact Std.TransCmp.lt_of_lt_of_eq (hk g hg) (Std.OrientedCmp.eq_symm (h.member g hg b hb))

theorem filter_alike_cons {a : α} {as : List α} (h : ∀ b ∈ as, compare (key a) (key b) = .lt) (c : α) :
    (a :: as).filter (alike (fun a b => (compareOn key a b).isLE) c) =
      (as ++ [a]).filter (alike (fun a b => (compareOn key a b).isLE) c) := by
  cases ha : alike (fun a b => (compareOn key a b).isLE) c a with
  | false => simp [ha]
  | true =>
    have hnone : as.filter (alike (fun a b => (compareOn key a b).isLE) c) = [] := by
      refine List.filter_eq_nil_iff.2 fun b hb halike => ?_
      have heq : compare (key a) (key b) = .eq :=
        Std.TransCmp.eq_trans (Std.OrientedCmp.eq_symm (eq_of_alike ha)) (eq_of_alike halike)
      rw [h b hb] at heq
      cases heq
    rw [List.filter_cons_of_pos ha, List.filter_append, hnone, List.filter_cons_of_pos ha]
    rfl

theorem IsKeyed.filter_members_insert (h : IsKeyed key groups) (a c : α) :
    (groups.insert (key a) a).members.filter (alike (fun a b => (compareOn key a b).isLE) c) =
      (groups.members ++ [a]).filter (alike (fun a b => (compareOn key a b).isLE) c) := by
  induction groups with
  | nil => rfl
  | cons first rest ih =>
    obtain ⟨firstKey, as⟩ := first
    obtain ⟨hfirst, hrest⟩ := List.pairwise_cons.1 h.ascending
    have hkeyed : IsKeyed key rest := ⟨hrest, (List.forall_mem_cons.1 h.nonempty).2,
      (List.forall_mem_cons.1 h.member).2⟩
    rw [Groups.insert]
    split
    · rename_i hlt
      refine filter_alike_cons (fun b hb => h.compare_eq_lt ?_ hb) c
      exact List.forall_mem_cons.2 ⟨hlt, fun g hg => Std.TransCmp.lt_trans hlt (hfirst g hg)⟩
    · rename_i heq
      have hbehind : ∀ b ∈ members rest, compare (key a) (key b) = .lt := fun b hb =>
        hkeyed.compare_eq_lt (fun g hg => Std.TransCmp.lt_of_eq_of_lt heq (hfirst g hg)) hb
      change ((as ++ [a]) ++ members rest).filter _ = ((as ++ members rest) ++ [a]).filter _
      rw [List.append_assoc, List.append_assoc, List.filter_append, List.singleton_append,
        filter_alike_cons hbehind, ← List.filter_append]
    · change (as ++ members (Groups.insert (key a) a rest)).filter _ = ((as ++ members rest) ++ [a]).filter _
      rw [List.append_assoc, List.filter_append, ih hkeyed, ← List.filter_append]

/-! ## Whole lists -/

theorem isKeyed_ofList (key : α → κ) (as : List α) : IsKeyed key (ofList key as) := by
  have hfold : ∀ groups : Groups κ α, IsKeyed key groups →
      IsKeyed key (as.foldl (fun groups a => groups.insert (key a) a) groups) := by
    induction as with
    | nil => exact fun _ h => h
    | cons a as ih => exact fun groups h => ih _ (h.insert a)
  exact hfold [] ⟨.nil, by simp, by simp⟩

theorem filter_members_ofList (key : α → κ) (as : List α) (c : α) :
    (ofList key as).members.filter (alike (fun a b => (compareOn key a b).isLE) c) =
      as.filter (alike (fun a b => (compareOn key a b).isLE) c) := by
  have hfold : ∀ groups : Groups κ α, IsKeyed key groups →
      (members (as.foldl (fun groups a => groups.insert (key a) a) groups)).filter
          (alike (fun a b => (compareOn key a b).isLE) c) =
        (members groups ++ as).filter (alike (fun a b => (compareOn key a b).isLE) c) := by
    induction as with
    | nil => exact fun _ _ => by rw [List.foldl_nil, List.append_nil]
    | cons a as ih =>
      intro groups h
      rw [List.foldl_cons, ih _ (h.insert a), List.filter_append, h.filter_members_insert, ← List.filter_append,
        List.append_assoc, List.singleton_append]
  exact hfold [] ⟨.nil, by simp, by simp⟩

theorem members_ofList (key : α → κ) (as : List α) :
    (ofList key as).members = as.mergeSort fun a b => (compareOn key a b).isLE := by
  have hranking : IsRanking fun a b => (compareOn key a b).isLE := isRanking_of_transCmp _
  have hkeyed := isKeyed_ofList key as
  refine hranking.eq_of_pairwise (List.pairwise_flatMap.2 ⟨?_, ?_⟩) (hranking.pairwise_mergeSort as) fun c => ?_
  · intro g hg
    refine List.pairwise_of_forall_mem_list fun a ha b hb => ?_
    have heq : compare (key a) (key b) = .eq :=
      Std.TransCmp.eq_trans (hkeyed.member g hg a ha) (Std.OrientedCmp.eq_symm (hkeyed.member g hg b hb))
    exact Ordering.isLE_of_eq_eq heq
  · refine hkeyed.ascending.imp_of_mem fun {g h} hg hh hlt a ha b hb => ?_
    have hbefore : compare (key a) (key b) = .lt := Std.TransCmp.lt_of_lt_of_eq
      (Std.TransCmp.lt_of_eq_of_lt (hkeyed.member g hg a ha) hlt) (Std.OrientedCmp.eq_symm (hkeyed.member h hh b hb))
    exact Ordering.isLE_of_eq_lt hbefore
  · rw [filter_members_ofList, hranking.filter_alike_mergeSort]

end

end Groups

/-! ## Violations by file and rule -/

instance : Std.TransOrd Rule :=
  inferInstanceAs <| Std.TransCmp <| compareOn Rule.number

namespace Violation

/-- By the headings under which violations are shown: file and rule. -/
def headingOrder (v w : Violation) : Ordering :=
  (compare v.location.file w.location.file).then (compare v.rule.number w.rule.number)

instance : Std.TransCmp headingOrder :=
  inferInstanceAs <| Std.TransCmp <| compareLex (compareOn fun v : Violation => v.location.file)
    (compareOn fun v => v.rule.number)

theorem isLE_headingOrder {v w : Violation} (h : (v.order w).isLE = true) : (v.headingOrder w).isLE = true := by
  rw [order] at h
  rw [headingOrder]
  cases hfile : compare v.location.file w.location.file with
  | lt => rfl
  | gt =>
    rw [hfile] at h
    cases h
  | eq =>
    rw [hfile] at h
    cases hrule : compare v.rule.number w.rule.number with
    | lt | eq => rfl
    | gt =>
      rw [hrule] at h
      cases h

theorem eq_of_alike_heading {u v w : Violation}
    (hv : alike (fun v w => (headingOrder v w).isLE) u v = true)
    (hw : alike (fun v w => (headingOrder v w).isLE) u w = true) :
    compare v.location.file w.location.file = .eq ∧ compare v.rule w.rule = .eq := by
  have hsame : headingOrder v w = .eq :=
    Std.TransCmp.eq_trans (Std.OrientedCmp.eq_symm (eq_of_alike hv)) (eq_of_alike hw)
  exact Ordering.then_eq_eq.1 hsame

end Violation

theorem groupByFile_flatMap_members (vs : List Violation) :
    (groupByFile vs).flatMap (·.2.members) =
      (Groups.ofList (·.location.file) vs).flatMap fun group =>
        group.2.mergeSort fun v w => (compareOn Violation.rule v w).isLE := by
  rw [groupByFile, List.flatMap_map]
  exact List.flatMap_congr fun group _ => Groups.members_ofList _ group.2

/-- The groups by file and rule, one after another, are the violations sorted by file and rule. -/
theorem flatMap_groupByFile (vs : List Violation) :
    (groupByFile vs).flatMap (·.2.members) = vs.mergeSort fun v w => (v.headingOrder w).isLE := by
  have hranking : IsRanking fun v w : Violation => (v.headingOrder w).isLE := isRanking_of_transCmp _
  have hrule : IsRanking fun v w : Violation => (compareOn Violation.rule v w).isLE := isRanking_of_transCmp _
  have hfile : IsRanking fun v w : Violation => (compareOn (·.location.file) v w).isLE := isRanking_of_transCmp _
  have hkeyed := Groups.isKeyed_ofList (fun v : Violation => v.location.file) vs
  rw [groupByFile_flatMap_members]
  refine hranking.eq_of_pairwise (List.pairwise_flatMap.2 ⟨?_, ?_⟩) (hranking.pairwise_mergeSort vs) fun u => ?_
  · -- violations of one file come in the order of their rules
    intro group hgroup
    refine (hrule.pairwise_mergeSort group.2).imp_of_mem fun {v w} hv hw hle => ?_
    have hsame : compare v.location.file w.location.file = .eq :=
      Std.TransCmp.eq_trans (hkeyed.member group hgroup v (List.mem_mergeSort.1 hv))
        (Std.OrientedCmp.eq_symm (hkeyed.member group hgroup w (List.mem_mergeSort.1 hw)))
    rw [Violation.headingOrder, hsame]
    exact hle
  · -- and those of an earlier file before those of a later one
    refine hkeyed.ascending.imp_of_mem fun {group later} hgroup hlater hlt v hv w hw => ?_
    have hbefore : compare v.location.file w.location.file = .lt :=
      Std.TransCmp.lt_of_lt_of_eq
        (Std.TransCmp.lt_of_eq_of_lt (hkeyed.member group hgroup v (List.mem_mergeSort.1 hv)) hlt)
        (Std.OrientedCmp.eq_symm (hkeyed.member later hlater w (List.mem_mergeSort.1 hw)))
    rw [Violation.headingOrder, hbefore]
    rfl
  · -- what is alike in both comes as it came, through both steps of the grouping
    rw [hranking.filter_alike_mergeSort, List.filter_flatMap]
    have hstep : ∀ group ∈ Groups.ofList (fun v : Violation => v.location.file) vs,
        (group.2.mergeSort fun v w => (compareOn Violation.rule v w).isLE).filter
          (alike (fun v w => (v.headingOrder w).isLE) u) =
        group.2.filter (alike (fun v w => (v.headingOrder w).isLE) u) := fun group _ =>
      hrule.filter_mergeSort_of_forall fun v w hv hw => Ordering.isLE_of_eq_eq (Violation.eq_of_alike_heading hv hw).2
    rw [List.flatMap_congr hstep, ← List.filter_flatMap]
    change (Groups.members _).filter _ = _
    rw [Groups.members_ofList]
    exact hfile.filter_mergeSort_of_forall fun v w hv hw =>
      Ordering.isLE_of_eq_eq (Violation.eq_of_alike_heading hv hw).1

/-- Whether violations are grouped under ascending files, and in each file under ascending rules, and every group
has members, all of its own file and rule. -/
structure IsGrouped (files : List (Path × RuleGroups)) : Prop where
  ascending : files.Pairwise fun f g => compare f.1 g.1 = .lt
  rules : ∀ f ∈ files, f.2.Pairwise fun g h => compare g.1 h.1 = .lt
  nonempty : ∀ f ∈ files, f.2 ≠ [] ∧ ∀ g ∈ f.2, g.2 ≠ []
  member : ∀ f ∈ files, ∀ g ∈ f.2, ∀ v ∈ g.2, (v.location.file == f.1) = true ∧ v.rule = g.1

theorem isGrouped_groupByFile (vs : List Violation) : IsGrouped (groupByFile vs) := by
  have hfiles := Groups.isKeyed_ofList (fun v : Violation => v.location.file) vs
  have hrules := fun ws => Groups.isKeyed_ofList Violation.rule ws
  have hmem : ∀ {ws : List Violation} {v}, v ∈ (groupByRule ws).members ↔ v ∈ ws := fun {ws v} => by
    rw [groupByRule, Groups.members_ofList, List.mem_mergeSort]
  refine ⟨List.pairwise_map.2 hfiles.ascending, List.forall_mem_map.2 fun f _ => (hrules f.2).ascending,
    List.forall_mem_map.2 fun f hf => ⟨?_, (hrules f.2).nonempty⟩, List.forall_mem_map.2 fun f hf g hg v hv => ?_⟩
  · intro hnone
    obtain ⟨v, hv⟩ := List.exists_mem_of_ne_nil _ (hfiles.nonempty f hf)
    have hmembers := hmem.2 hv
    rw [show groupByRule f.2 = [] from hnone] at hmembers
    exact absurd hmembers List.not_mem_nil
  · have hfile := hfiles.member f hf v (hmem.1 (List.mem_flatMap.2 ⟨g, hg, hv⟩))
    have hrule : compare v.rule.number g.1.number = .eq := (hrules f.2).member g hg v hv
    exact ⟨Path.compare_eq_iff.1 hfile, Rule.number_injective (Std.LawfulEqOrd.compare_eq_iff_eq.1 hrule)⟩

end Guardrails
