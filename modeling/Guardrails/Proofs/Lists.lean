import Mathlib.Data.List.Basic
import Mathlib.Data.List.Forall2
import Mathlib.Data.List.Induction
import Mathlib.Tactic.SplitIfs

/-!
# Parts of lists

What a list comes to when some of its members are left out, by what they are or by their numbers.
-/

namespace Guardrails

section

variable {α β : Type _}

theorem flatMap_filter_eq {p : α → Bool} {f : α → List β} {l : List α}
    (h : ∀ a ∈ l, p a = false → f a = []) : (l.filter p).flatMap f = l.flatMap f := by
  induction l with
  | nil => rfl
  | cons a l ih =>
    have hrest := ih fun b hb => h b (List.mem_cons_of_mem _ hb)
    rw [List.filter_cons, List.flatMap_cons, ← hrest]
    cases hp : p a with
    | true => rw [if_pos rfl, List.flatMap_cons]
    | false => rw [if_neg Bool.false_ne_true, h a List.mem_cons_self hp, List.nil_append]

theorem filterMap_filter_eq {p : α → Bool} {f : α → Option β} {q : β → Bool} {l : List α}
    (h : ∀ a ∈ l, ∀ b, f a = some b → q b = p a) :
    (l.filter p).filterMap f = (l.filterMap f).filter q := by
  induction l with
  | nil => rfl
  | cons a l ih =>
    have hrest := ih fun b hb => h b (List.mem_cons_of_mem _ hb)
    cases hf : f a with
    | none =>
      rw [List.filterMap_cons_none hf, ← hrest, List.filter_cons]
      split_ifs
      · rw [List.filterMap_cons_none hf]
      · rfl
    | some b =>
      rw [List.filterMap_cons_some hf, List.filter_cons, List.filter_cons, h a List.mem_cons_self b hf,
        ← hrest]
      split_ifs
      · rw [List.filterMap_cons_some hf]
      · rfl

theorem filterMap_filter_of_none {p : α → Bool} {f : α → Option β} {l : List α}
    (h : ∀ a ∈ l, p a = false → f a = none) : (l.filter p).filterMap f = l.filterMap f := by
  rw [List.filterMap_filter]
  refine List.filterMap_congr fun a ha => ?_
  cases hp : p a with
  | true => exact if_pos rfl
  | false => rw [h a ha hp, if_neg Bool.false_ne_true]

theorem forall₂_filterMap (f : α → Option β) (l : List α) :
    List.Forall₂ (fun a b => f a = some b) (l.filter fun a => (f a).isSome) (l.filterMap f) := by
  induction l with
  | nil => exact .nil
  | cons a l ih =>
    cases hf : f a with
    | none =>
      rw [List.filterMap_cons_none hf, List.filter_cons_of_neg (by simp [hf])]
      exact ih
    | some b =>
      rw [List.filterMap_cons_some hf, List.filter_cons_of_pos (by simp [hf])]
      exact .cons hf ih

theorem flatMap_eq_of_perm {f : α → List β} {l m : List α} (hperm : l.Perm m)
    (h : m.Pairwise fun a b => f a = [] ∨ f b = []) : l.flatMap f = m.flatMap f := by
  induction hperm with
  | nil => rfl
  | cons a _ ih => rw [List.flatMap_cons, List.flatMap_cons, ih h.of_cons]
  | swap a b l =>
    have hone : f a = [] ∨ f b = [] := List.rel_of_pairwise_cons h List.mem_cons_self
    rcases hone with ha | hb
    · simp [ha]
    · simp [hb]
  | trans _ hsecond ihfirst ihsecond =>
    rw [ihfirst ((hsecond.pairwise_iff Or.symm).2 h), ihsecond h]

theorem any_congr_of_mem {p q : α → Bool} {l : List α} (h : ∀ a ∈ l, p a = q a) : l.any p = l.any q := by
  rw [Bool.eq_iff_iff, List.any_eq_true, List.any_eq_true]
  exact exists_congr fun a => and_congr_right fun ha => by rw [h a ha]

theorem takeWhile_congr_of_mem {p q : α → Bool} {l : List α} (h : ∀ a ∈ l, p a = q a) :
    l.takeWhile p = l.takeWhile q := by
  induction l with
  | nil => rfl
  | cons a l ih =>
    rw [List.takeWhile_cons, List.takeWhile_cons, h a List.mem_cons_self,
      ih fun b hb => h b (List.mem_cons_of_mem _ hb)]

theorem find?_filter_of_kept {keep p : α → Bool} {l : List α} (h : ∀ a, l.find? p = some a → keep a = true) :
    (l.filter keep).find? p = l.find? p := by
  induction l with
  | nil => rfl
  | cons a l ih =>
    cases hp : p a with
    | true =>
      have hkeep : keep a = true := h a (by rw [List.find?_cons_of_pos hp])
      rw [List.filter_cons_of_pos hkeep, List.find?_cons_of_pos hp, List.find?_cons_of_pos hp]
    | false =>
      have hp : ¬ p a = true := by simp [hp]
      rw [List.find?_cons_of_neg hp] at h ⊢
      rw [List.filter_cons]
      split_ifs
      · rw [List.find?_cons_of_neg hp, ih h]
      · exact ih h

/-- In a list that is in order, what is found is the first of its kind in that order. -/
theorem find?_eq_some_iff_of_pairwise {r : α → α → Prop} (hasymm : ∀ a b, r a b → ¬ r b a) {p : α → Bool}
    {l : List α} (h : l.Pairwise r) {a : α} :
    l.find? p = some a ↔ a ∈ l ∧ p a = true ∧ ∀ b ∈ l, r b a → p b = false := by
  induction l with
  | nil => simp
  | cons first l ih =>
    obtain ⟨hfirst, hl⟩ := List.pairwise_cons.1 h
    rw [List.find?_cons]
    cases hp : p first with
    | true =>
      simp only [Option.some.injEq]
      constructor
      · rintro rfl
        refine ⟨List.mem_cons_self, hp, fun b hb hr => ?_⟩
        rcases List.mem_cons.1 hb with rfl | hb
        · exact absurd hr (hasymm b b hr)
        · exact absurd (hfirst b hb) (hasymm b first hr)
      · rintro ⟨ha, -, hbefore⟩
        rcases List.mem_cons.1 ha with rfl | ha
        · rfl
        · exact absurd hp (by simp [hbefore first List.mem_cons_self (hfirst a ha)])
    | false =>
      simp only [ih hl, List.mem_cons, forall_eq_or_imp, hp, implies_true, true_and]
      constructor
      · rintro ⟨ha, hpa, hbefore⟩
        exact ⟨.inr ha, hpa, hbefore⟩
      · rintro ⟨rfl | ha, hpa, hbefore⟩
        · rw [hp] at hpa
          cases hpa
        · exact ⟨ha, hpa, hbefore⟩

theorem filter_map_filter {keep q : α → Bool} {p : β → Bool} {g : α → β} {l : List α}
    (hkeep : ∀ a ∈ l, keep a = true → p (g a) = q a) (hdrop : ∀ a ∈ l, keep a = false → q a = false) :
    ((l.filter keep).map g).filter p = (l.filter q).map g := by
  rw [List.filter_map, List.filter_filter]
  congr 1
  refine List.filter_congr fun a ha => ?_
  cases h : keep a with
  | true => simpa using hkeep a ha h
  | false => simp [hdrop a ha h]

theorem find?_map_filter {keep q : α → Bool} {p : β → Bool} {g : α → β} {l : List α}
    (hkeep : ∀ a ∈ l, keep a = true → p (g a) = q a) (hdrop : ∀ a ∈ l, keep a = false → q a = false) :
    ((l.filter keep).map g).find? p = (l.find? q).map g := by
  rw [← List.head?_filter, filter_map_filter hkeep hdrop, List.head?_map, List.head?_filter]

theorem any_map_filter {keep q : α → Bool} {p : β → Bool} {g : α → β} {l : List α}
    (hkeep : ∀ a ∈ l, keep a = true → p (g a) = q a) (hdrop : ∀ a ∈ l, keep a = false → q a = false) :
    ((l.filter keep).map g).any p = l.any q := by
  rw [← List.isSome_find?, find?_map_filter hkeep hdrop, Option.isSome_map, List.isSome_find?]

/-! ## The first of each kind -/

theorem eraseDupsBy_concat (r : α → α → Bool) (l : List α) (a : α) :
    (l ++ [a]).eraseDupsBy r =
      if (l.eraseDupsBy r).any (r a) then l.eraseDupsBy r else l.eraseDupsBy r ++ [a] := by
  have hloop : ∀ seen, List.eraseDupsBy.loop r (l ++ [a]) seen =
      if (List.eraseDupsBy.loop r l seen).any (r a) then List.eraseDupsBy.loop r l seen
      else List.eraseDupsBy.loop r l seen ++ [a] := by
    induction l with
    | nil =>
      intro seen
      cases h : seen.any (r a) <;> simp [List.eraseDupsBy.loop, h]
    | cons b l ih =>
      intro seen
      rw [List.cons_append, List.eraseDupsBy.loop, List.eraseDupsBy.loop]
      cases seen.any (r b) with
      | true => exact ih seen
      | false => exact ih (b :: seen)
  exact hloop []

/-- What holds of any two like elements or of neither is found among the first of each kind. -/
theorem any_eraseDupsBy {r : α → α → Bool} {p : α → Bool} (h : ∀ a b, r a b = true → p a = p b) (l : List α) :
    (l.eraseDupsBy r).any p = l.any p := by
  induction l using List.reverseRecOn with
  | nil => rfl
  | append_singleton l a ih =>
    rw [eraseDupsBy_concat, List.any_append, List.any_cons, List.any_nil, Bool.or_false]
    split_ifs with hseen
    · obtain ⟨b, hb, hab⟩ := List.any_eq_true.1 hseen
      cases hp : p a with
      | false => rw [ih, Bool.or_false]
      | true =>
        rw [Bool.or_true]
        exact List.any_eq_true.2 ⟨b, hb, (h a b hab).symm.trans hp⟩
    · rw [List.any_append, ih, List.any_cons, List.any_nil, Bool.or_false]

/-! ## Selection by number -/

/-- The members of a list whose numbers are kept, when the first is number `number`. -/
def select (keep : Nat → Bool) : Nat → List α → List α
  | _, [] => []
  | number, a :: rest =>
    if keep number then a :: select keep (number + 1) rest else select keep (number + 1) rest

theorem mem_of_mem_select {keep : Nat → Bool} {number : Nat} {l : List α} {a : α}
    (h : a ∈ select keep number l) : a ∈ l := by
  induction l generalizing number with
  | nil => simp [select] at h
  | cons b l ih =>
    unfold select at h
    split_ifs at h
    · rcases List.mem_cons.1 h with rfl | h
      · exact List.mem_cons_self
      · exact List.mem_cons_of_mem _ (ih h)
    · exact List.mem_cons_of_mem _ (ih h)

theorem map_select (f : α → β) (keep : Nat → Bool) (number : Nat) (l : List α) :
    (select keep number l).map f = select keep number (l.map f) := by
  induction l generalizing number with
  | nil => rfl
  | cons a l ih =>
    simp only [select, List.map_cons]
    split_ifs <;> simp [ih]

theorem select_eq_nil {keep : Nat → Bool} {number : Nat} {l : List α}
    (h : ∀ i, number ≤ i → keep i = false) : select keep number l = [] := by
  induction l generalizing number with
  | nil => rfl
  | cons a l ih =>
    rw [select, h number (Nat.le_refl _), if_neg Bool.false_ne_true]
    exact ih fun i hi => h i (Nat.le_of_succ_le hi)

theorem select_eq_singleton {l : List α} {i : Nat} {a : α} (number : Nat) (h : l[i]? = some a) :
    select (· == number + i) number l = [a] := by
  induction l generalizing number i with
  | nil => simp at h
  | cons b l ih =>
    cases i with
    | zero =>
      obtain rfl : b = a := by simpa using h
      rw [select, Nat.add_zero, beq_self_eq_true, if_pos rfl, select_eq_nil]
      intro j hj
      rw [beq_eq_false_iff_ne]
      omega
    | succ i =>
      have hne : (number == number + (i + 1)) = false := by
        rw [beq_eq_false_iff_ne]
        omega
      have hrest := ih (number + 1) (by simpa using h)
      rw [select, hne, if_neg Bool.false_ne_true, ← hrest]
      congr 1
      funext j
      congr 1
      omega

theorem select_eq_filter {keep : Nat → Bool} {p : α → Bool} {number : Nat} {l : List α}
    (h : ∀ i a, l[i]? = some a → keep (number + i) = p a) : select keep number l = l.filter p := by
  induction l generalizing number with
  | nil => rfl
  | cons a l ih =>
    have hfirst : keep number = p a := h 0 a rfl
    have hrest : select keep (number + 1) l = l.filter p := ih fun i b hb => by
      rw [← h (i + 1) b hb]
      congr 1
      omega
    rw [select, hfirst, hrest, List.filter_cons]

/-! ## Members by key -/

variable {κ : Type _} [BEq κ] {key : α → κ}

theorem filter_flatMap_key {keyOf : β → κ} {g : α → List β} {l : List α}
    (hg : ∀ a ∈ l, ∀ b ∈ g a, keyOf b = key a) (k : κ) :
    (l.flatMap g).filter (keyOf · == k) = (l.filter (key · == k)).flatMap g := by
  rw [List.filter_flatMap]
  induction l with
  | nil => rfl
  | cons a l ih =>
    have hkeys : (g a).filter (keyOf · == k) = if key a == k then g a else [] := by
      split_ifs with hk
      · exact List.filter_eq_self.2 fun b hb => by rwa [hg a List.mem_cons_self b hb]
      · exact List.filter_eq_nil_iff.2 fun b hb => by rwa [hg a List.mem_cons_self b hb]
    rw [List.flatMap_cons, hkeys, ih fun b hb => hg b (List.mem_cons_of_mem _ hb), List.filter_cons]
    split_ifs
    · rw [List.flatMap_cons]
    · rw [List.nil_append]

variable [EquivBEq κ]

theorem filter_key_eq_singleton {l : List α} (hl : l.Pairwise fun a b => (key a == key b) = false) {a : α}
    (ha : a ∈ l) : l.filter (key · == key a) = [a] := by
  obtain ⟨before, after, rfl⟩ := List.append_of_mem ha
  obtain ⟨-, hafter, hbefore⟩ := List.pairwise_append.1 hl
  have hnone : ∀ {b}, (key a == key b) = false → ¬ (key b == key a) = true :=
    fun hab hba => Bool.eq_false_iff.1 hab (BEq.symm hba)
  rw [List.filter_append, List.filter_cons_of_pos (p := (key · == key a)) BEq.rfl,
    List.filter_eq_nil_iff.2 fun b hb => Bool.eq_false_iff.1 (hbefore b hb a List.mem_cons_self),
    List.filter_eq_nil_iff.2 fun b hb => hnone (List.rel_of_pairwise_cons hafter hb), List.nil_append]

theorem filter_key_eq_of_perm {l m : List α} (hl : l.Pairwise fun a b => (key a == key b) = false)
    (hperm : m.Perm l) (k : κ) : m.filter (key · == k) = l.filter (key · == k) := by
  have hfilter := hperm.filter (key · == k)
  cases hkind : l.filter (key · == k) with
  | nil => rwa [hkind, List.perm_nil] at hfilter
  | cons a rest =>
    obtain ⟨ha, hk⟩ := List.mem_filter.1 (hkind ▸ List.mem_cons_self : a ∈ l.filter (key · == k))
    have hsame : l.filter (key · == k) = [a] := by
      rw [← filter_key_eq_singleton hl ha]
      exact List.filter_congr fun b _ => BEq.congr_right (BEq.symm hk)
    rw [hsame, List.perm_singleton] at hfilter
    rw [hfilter, ← hsame, hkind]

end

end Guardrails
