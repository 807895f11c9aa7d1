import Guardrails.Path
import Guardrails.Proofs.Text.Pieces

/-!
# Components of paths

Paths are ordered by their components, and alike when they have the same ones. Taking a directory off the
front of a path takes its components off the front, so that different absolute paths stay different when they
are seen from one directory.
-/

namespace Guardrails

namespace Path

/-! ## The order of paths -/

instance : Std.TransOrd Component :=
  inferInstanceAs (Std.TransCmp (compareLex (compareOn Component.rank) (compareOn Component.name)))

instance : Std.LawfulEqOrd Component where
  eq_of_compare {a b} h := by
    obtain ⟨hrank, hname⟩ := Ordering.then_eq_eq.1 h
    have hrank : a.rank = b.rank := Std.LawfulEqOrd.eq_of_compare hrank
    have hname : a.name = b.name := Std.LawfulEqOrd.eq_of_compare hname
    cases a <;> cases b <;> simp_all [Component.rank, Component.name]

instance : Std.TransOrd Path :=
  inferInstanceAs (Std.TransCmp (compareOn Path.components))

instance : EquivBEq Path where
  rfl := beq_iff.2 rfl
  symm h := beq_iff.2 (beq_iff.1 h).symm
  trans hab hbc := beq_iff.2 ((beq_iff.1 hab).trans (beq_iff.1 hbc))

theorem compare_eq_iff {p q : Path} : compare p q = .eq ↔ (p == q) = true := by
  rw [beq_iff]
  change compare p.components q.components = .eq ↔ _
  exact Std.LawfulEqOrd.compare_eq_iff_eq

/-! ## Pieces behind a slash -/

/-- Whether a piece stands for what its text does behind a slash. -/
structure Piece.IsInner (piece : Piece) : Prop where
  noSlash : '/' ∉ piece.text.toList
  eq : piece = inner piece.text

theorem Piece.component?_inner_ne_root (text : String) : (inner text).component? ≠ some .root := by
  unfold inner
  split <;> simp

theorem Piece.component?_first {text : String} (alone : Bool) (h : counts (inner text) = true) :
    (first text alone).component? = (inner text).component? := by
  unfold counts inner at h
  unfold first inner
  split at h
  · cases h
  · cases h
  · rfl
  · rename_i hempty hcurrent hparent
    rfl

theorem exists_pieces (p : Path) : ∃ text rest, p.pieces = Piece.first text rest.isEmpty :: rest ∧
    ∀ piece ∈ rest, piece.IsInner := by
  have htexts : ∀ t ∈ Text.split '/' p.spelling, '/' ∉ t.toList := fun _ ht => Text.not_mem_of_mem_split ht
  cases hsplit : Text.split '/' p.spelling with
  | nil => exact absurd (List.map_eq_nil_iff.1 hsplit) (Text.splitChars_ne_nil _ _)
  | cons text rest =>
    refine ⟨text, rest.map Piece.inner, ?_, ?_⟩
    · rw [pieces, hsplit, List.isEmpty_map]
    · intro piece hpiece
      obtain ⟨t, ht, rfl⟩ := List.mem_map.1 hpiece
      exact ⟨htexts t (hsplit ▸ List.mem_cons_of_mem _ ht), rfl⟩

theorem root_not_mem_of_isInner {ps : List Piece} (h : ∀ piece ∈ ps, piece.IsInner) :
    Component.root ∉ ps.filterMap (·.component?) := by
  intro hroot
  obtain ⟨piece, hpiece, hcomponent⟩ := List.mem_filterMap.1 hroot
  rw [(h piece hpiece).eq] at hcomponent
  exact Piece.component?_inner_ne_root _ hcomponent

theorem components_spell {ps : List Piece} (h : ∀ piece ∈ ps, piece.IsInner)
    (hfirst : ∀ piece ∈ ps.head?, counts piece = true) :
    (⟨spell ps⟩ : Path).components = ps.filterMap (·.component?) := by
  cases ps with
  | nil => rfl
  | cons piece rest =>
    have hpiece := h piece List.mem_cons_self
    have hspell : spell (piece :: rest) = "/".intercalate ((piece :: rest).map (·.text)) := by
      unfold spell
      split
      · rename_i heq
        have hroot : piece = ⟨"", some .root⟩ := List.head_eq_of_cons_eq heq
        have hinner := hpiece.eq.symm
        rw [hroot] at hinner
        exact absurd (congrArg Piece.component? hinner) (Piece.component?_inner_ne_root "")
      · rfl
    have hsplit : Text.split '/' (spell (piece :: rest)) = (piece :: rest).map (·.text) := by
      rw [hspell]
      refine Text.split_intercalate rfl ?_ (List.cons_ne_nil _ _)
      intro t ht
      obtain ⟨x, hx, rfl⟩ := List.mem_map.1 ht
      exact (h x hx).noSlash
    have hrest : (rest.map (·.text)).map Piece.inner = rest := by
      rw [List.map_map]
      exact (List.map_congr_left fun x hx => (h x (List.mem_cons_of_mem _ hx)).eq.symm).trans (List.map_id _)
    have hcounts : counts (Piece.inner piece.text) = true := hpiece.eq ▸ hfirst piece rfl
    rw [components, pieces, hsplit, List.map_cons]
    simp only
    rw [hrest, List.filterMap_cons, List.filterMap_cons, Piece.component?_first _ hcounts, ← hpiece.eq]

/-! ## Taking a directory off -/

theorem dropComponents_eq_some {cs : List Component} {ps rest : List Piece}
    (h : dropComponents cs ps = some rest) :
    ∃ taken, ps = taken ++ rest ∧ taken.filterMap (·.component?) = cs := by
  induction cs, ps using dropComponents.induct with
  | case1 ps =>
    rw [dropComponents] at h
    cases h
    exact ⟨[], rfl, rfl⟩
  | case2 c cs =>
    rw [dropComponents] at h
    cases h
  | case3 c cs piece ps hnone ih =>
    rw [dropComponents, hnone] at h
    obtain ⟨taken, rfl, htaken⟩ := ih h
    exact ⟨piece :: taken, rfl, by rw [List.filterMap_cons_none hnone, htaken]⟩
  | case4 cs piece ps found hfound ih =>
    rw [dropComponents, hfound] at h
    simp only [if_pos] at h
    obtain ⟨taken, rfl, htaken⟩ := ih h
    exact ⟨piece :: taken, rfl, by rw [List.filterMap_cons_some hfound, htaken]⟩
  | case5 c cs piece ps found hfound hne =>
    rw [dropComponents, hfound] at h
    simp only [if_neg hne] at h
    cases h

theorem filterMap_dropWhile_counts (ps : List Piece) :
    (ps.dropWhile (!counts ·)).filterMap (·.component?) = ps.filterMap (·.component?) := by
  induction ps with
  | nil => rfl
  | cons piece ps ih =>
    cases hcomponent : piece.component? with
    | none => rw [List.dropWhile_cons_of_pos (by simp [counts, hcomponent]), ih,
        List.filterMap_cons_none hcomponent]
    | some c => rw [List.dropWhile_cons_of_neg (by simp [counts, hcomponent])]

theorem filterMap_trimPieces (ps : List Piece) :
    (trimPieces ps).filterMap (·.component?) = ps.filterMap (·.component?) := by
  rw [trimPieces, List.filterMap_reverse, filterMap_dropWhile_counts, List.filterMap_reverse,
    List.reverse_reverse]

theorem isPrefix_trimPieces (ps : List Piece) : trimPieces ps <+: ps := by
  have hsuffix := List.dropWhile_suffix (!counts ·) (l := ps.reverse)
  rw [← List.reverse_prefix, List.reverse_reverse] at hsuffix
  exact hsuffix

theorem components_of_below? {dir p q : Path} (hdir : dir.components ≠ []) (h : below? dir p = some q) :
    p.components = dir.components ++ q.components ∧ Component.root ∉ q.components := by
  obtain ⟨left, hleft, rfl⟩ := Option.map_eq_some_iff.1 h
  obtain ⟨taken, hpieces, htaken⟩ := dropComponents_eq_some hleft
  obtain ⟨text, rest, hp, hrest⟩ := exists_pieces p
  -- Something is taken, so that what is left stands behind a slash.
  have hinner : ∀ piece ∈ left, piece.IsInner := by
    cases taken with
    | nil => exact absurd htaken.symm hdir
    | cons first taken =>
      rw [hpieces, List.cons_append] at hp
      intro piece hpiece
      exact hrest piece (List.tail_eq_of_cons_eq hp ▸ List.mem_append_right _ hpiece)
  have hempty : dir.components.isEmpty = false := by simpa using hdir
  simp only [hempty, if_neg Bool.false_ne_true]
  have hsub := (isPrefix_trimPieces (left.dropWhile (!counts ·))).subset
  have hspelled : ∀ piece ∈ trimPieces (left.dropWhile (!counts ·)), piece.IsInner := fun piece hpiece =>
    hinner piece ((List.dropWhile_suffix _).subset (hsub hpiece))
  have hcounts : ∀ piece ∈ (trimPieces (left.dropWhile (!counts ·))).head?, counts piece = true := by
    intro piece hpiece
    obtain ⟨behind, hbehind⟩ := isPrefix_trimPieces (left.dropWhile (!counts ·))
    have hhead : (left.dropWhile (!counts ·)).head? = some piece := by
      rw [← hbehind, List.head?_append, hpiece, Option.some_or]
    have hnot := List.head?_dropWhile_not (!counts ·) left
    rw [hhead] at hnot
    simpa using hnot
  rw [components_spell hspelled hcounts]
  refine ⟨?_, root_not_mem_of_isInner hspelled⟩
  rw [filterMap_trimPieces, filterMap_dropWhile_counts, components, hpieces, List.filterMap_append, htaken]

/-! ## Absolute paths -/

theorem exists_of_isAbsolute {p : Path} (h : p.isAbsolute = true) :
    ∃ rest, p.spelling.toList = '/' :: rest := by
  obtain ⟨rest, hrest⟩ := List.isPrefixOf_iff_prefix.1 h
  exact ⟨rest, hrest.symm⟩

theorem isAbsolute_append {text : String} (behind : String) (h : (⟨text⟩ : Path).isAbsolute = true) :
    (⟨text ++ behind⟩ : Path).isAbsolute = true := by
  obtain ⟨rest, hrest⟩ := exists_of_isAbsolute h
  refine List.isPrefixOf_iff_prefix.2 ⟨rest ++ behind.toList, ?_⟩
  rw [String.toList_append, show text.toList = '/' :: rest from hrest]
  rfl

theorem isAbsolute_join {dir : Path} (p : Path) (h : dir.isAbsolute = true) :
    (dir.join p).isAbsolute = true := by
  have hempty : dir.spelling.isEmpty = false := by
    obtain ⟨rest, hrest⟩ := exists_of_isAbsolute h
    cases hspelling : dir.spelling.isEmpty with
    | false => rfl
    | true =>
      rw [String.isEmpty_iff.1 hspelling] at hrest
      cases hrest
  rw [join, hempty, Bool.or_false]
  split
  · assumption
  · split
    · exact isAbsolute_append _ h
    · exact isAbsolute_append _ (isAbsolute_append _ h)

theorem head?_components_of_isAbsolute {p : Path} (h : p.isAbsolute = true) :
    p.components.head? = some .root := by
  obtain ⟨rest, hrest⟩ := exists_of_isAbsolute h
  cases hpieces : Text.splitChars '/' rest with
  | nil => exact absurd hpieces (Text.splitChars_ne_nil _ _)
  | cons piece others =>
    have hsplit : Text.split '/' p.spelling = "" :: (piece :: others).map String.ofList := by
      rw [Text.split, hrest, Text.splitChars_cons_self, hpieces]
      rfl
    rw [components, pieces, hsplit]
    rfl

theorem root_mem_components {p : Path} (h : p.isAbsolute = true) : Component.root ∈ p.components :=
  List.mem_of_mem_head? (head?_components_of_isAbsolute h)

/-- Different absolute paths stay different when they are seen from one directory. One of them being below it
and the other not, only the latter keeps its root. -/
theorem beq_of_relativeTo_beq {dir p q : Path} (hdir : dir.isAbsolute = true) (hp : p.isAbsolute = true)
    (hq : q.isAbsolute = true) (h : (dir.relativeTo p == dir.relativeTo q) = true) : (p == q) = true := by
  have hcomponents : dir.components ≠ [] := List.ne_nil_of_mem (root_mem_components hdir)
  rw [beq_iff] at h ⊢
  rw [relativeTo, relativeTo] at h
  cases hbelowP : below? dir p with
  | none =>
    cases hbelowQ : below? dir q with
    | none => rwa [hbelowP, hbelowQ] at h
    | some q' =>
      rw [hbelowP, hbelowQ] at h
      obtain ⟨-, hroot⟩ := components_of_below? hcomponents hbelowQ
      exact absurd (h ▸ root_mem_components hp) hroot
  | some p' =>
    obtain ⟨hp', hroot⟩ := components_of_below? hcomponents hbelowP
    cases hbelowQ : below? dir q with
    | none =>
      rw [hbelowP, hbelowQ] at h
      exact absurd (h.symm ▸ root_mem_components hq) hroot
    | some q' =>
      rw [hbelowP, hbelowQ] at h
      rw [hp', (components_of_below? hcomponents hbelowQ).1]
      exact congrArg (dir.components ++ ·) h

end Path
end Guardrails
