import Guardrails.Proofs.Path.Components

/-!
# Paths below a directory

A relative path that is joined to a directory, and is then seen from it, is the same for every absolute
directory. Whether the file is taken for a test hangs on the directory as well, by the names on the way to it.
-/

namespace Guardrails

namespace Path

/-! ## Pieces of joined paths -/

/-- What the texts at the front of a spelling stand for, when more texts follow. -/
def frontPieces : List String → List Piece
  | [] => []
  | first :: rest => Piece.first first false :: rest.map Piece.inner

theorem frontPieces_append {front : List String} (behind : List String) (h : front ≠ []) :
    frontPieces (front ++ behind) = frontPieces front ++ behind.map Piece.inner := by
  cases front with
  | nil => exact absurd rfl h
  | cons first rest => simp [frontPieces]

theorem pieces_eq_frontPieces {p : Path} {front behind : List String} (hfront : front ≠ []) (hbehind : behind ≠ [])
    (h : Text.split '/' p.spelling = front ++ behind) : p.pieces = frontPieces front ++ behind.map Piece.inner := by
  rw [← frontPieces_append behind hfront, pieces, h]
  cases front with
  | nil => exact absurd rfl hfront
  | cons first rest =>
    have htail : (rest ++ behind).isEmpty = false := by simp [hbehind]
    simp only [List.cons_append, htail, frontPieces]

theorem exists_pieces_join {dir p : Path} (hdir : dir.isAbsolute = true) (hp : p.isAbsolute = false) :
    ∃ front : List Piece, front.filterMap (·.component?) = dir.components ∧
      (dir.join p).pieces = front ++ (Text.split '/' p.spelling).map Piece.inner := by
  have hmark : "/".toList = ['/'] := rfl
  obtain ⟨rest, hrest⟩ := exists_of_isAbsolute hdir
  have hempty : dir.spelling.isEmpty = false := by
    rw [Bool.eq_false_iff]
    intro h
    rw [String.isEmpty_iff.1 h] at hrest
    cases hrest
  by_cases hslash : Text.endsWith dir.spelling "/" = true
  · -- The slash at the end of the directory opens a last piece of its own, which does not count.
    obtain ⟨front, hfront⟩ := List.isSuffixOf_iff_suffix.1 hslash
    have hspelling : dir.spelling = String.ofList front ++ "/" ++ "" := by
      rw [← String.ofList_toList (s := dir.spelling), ← hfront]
      apply String.toList_injective
      simp
    have hjoin : dir.join p = ⟨String.ofList front ++ "/" ++ p.spelling⟩ := by
      unfold join
      rw [hp, hempty, if_neg (by simp), if_pos hslash, hspelling]
      simp
    refine ⟨frontPieces (Text.split '/' (String.ofList front)), ?_, ?_⟩
    · have hsplit := Text.split_append hmark (String.ofList front) ""
      rw [← hspelling] at hsplit
      rw [components, pieces_eq_frontPieces (Text.split_ne_nil _) (Text.split_ne_nil _) hsplit,
        List.filterMap_append]
      exact (List.append_nil _).symm
    · rw [hjoin]
      exact pieces_eq_frontPieces (Text.split_ne_nil _) (Text.split_ne_nil _) (Text.split_append hmark _ _)
  · have hjoin : dir.join p = ⟨dir.spelling ++ "/" ++ p.spelling⟩ := by
      unfold join
      rw [hp, hempty, if_neg (by simp), if_neg hslash]
    refine ⟨frontPieces (Text.split '/' dir.spelling), ?_, ?_⟩
    · have hsplit := Text.split_append hmark "" (String.ofList rest)
      have hspelling : dir.spelling = "" ++ "/" ++ String.ofList rest := by
        rw [← String.ofList_toList (s := dir.spelling), hrest]
        apply String.toList_injective
        simp
      rw [← hspelling] at hsplit
      rw [components, pieces_eq_frontPieces (Text.split_ne_nil _) (Text.split_ne_nil _) hsplit, hsplit,
        frontPieces_append _ (Text.split_ne_nil _)]
    · rw [hjoin]
      exact pieces_eq_frontPieces (Text.split_ne_nil _) (Text.split_ne_nil _) (Text.split_append hmark _ _)

/-! ## Joined paths seen from the directory -/

theorem dropComponents_append (front ps : List Piece) :
    ∃ idle, dropComponents (front.filterMap (·.component?)) (front ++ ps) = some (idle ++ ps) ∧
      ∀ piece ∈ idle, counts piece = false := by
  induction front with
  | nil => exact ⟨[], by simp [dropComponents], by simp⟩
  | cons piece front ih =>
    cases hcomponent : piece.component? with
    | some c =>
      rw [List.filterMap_cons_some hcomponent, List.cons_append, dropComponents, hcomponent]
      simpa using ih
    | none =>
      rw [List.filterMap_cons_none hcomponent]
      cases hcs : front.filterMap (·.component?) with
      | nil =>
        refine ⟨piece :: front, by simp [dropComponents], ?_⟩
        intro x hx
        rcases List.mem_cons.1 hx with rfl | hx
        · simp [counts, hcomponent]
        · simp [counts, List.filterMap_eq_nil_iff.1 hcs x hx]
      | cons c cs =>
        rw [hcs] at ih
        rw [List.cons_append, dropComponents, hcomponent]
        exact ih

/-- A relative path as it is spelled seen from a directory that it was joined to. -/
def tidied (p : Path) : Path :=
  ⟨spell (trimPieces (((Text.split '/' p.spelling).map Piece.inner).dropWhile (!counts ·)))⟩

theorem relativeTo_join {dir p : Path} (hdir : dir.isAbsolute = true) (hp : p.isAbsolute = false) :
    dir.relativeTo (dir.join p) = p.tidied := by
  obtain ⟨front, hfront, hpieces⟩ := exists_pieces_join hdir hp
  obtain ⟨idle, hdrop, hidle⟩ := dropComponents_append front ((Text.split '/' p.spelling).map Piece.inner)
  have hcomponents : dir.components.isEmpty = false := by
    simpa using List.ne_nil_of_mem (root_mem_components hdir)
  have hbelow : below? dir (dir.join p) = some p.tidied := by
    simp only [below?, hpieces, ← hfront, hdrop, Option.map_some]
    rw [hfront, hcomponents, if_neg (by simp),
      List.dropWhile_append_of_pos fun piece hpiece => by simp [hidle piece hpiece], tidied]
  rw [relativeTo, hbelow, Option.getD_some]

/-! ## Tests -/

/-- Whether one of the names on the way to a path is that of a directory of tests. -/
def hasTestDirectory (p : Path) : Bool :=
  p.components.any fun c => testDirectories.any fun dir => c == .named dir

theorem Piece.component?_inner_ne_current (text : String) : (inner text).component? ≠ some .current := by
  unfold inner
  split <;> simp

theorem eq_nil_of_split {p : Path} {rest : List String} (hp : p.isAbsolute = false)
    (h : Text.split '/' p.spelling = "" :: rest) : rest = [] := by
  unfold isAbsolute Text.startsWith at hp
  unfold Text.split at h
  cases hspelling : p.spelling.toList with
  | nil =>
    rw [hspelling] at h
    exact (List.tail_eq_of_cons_eq h).symm
  | cons c chars =>
    rw [hspelling] at h hp
    have hc : c ≠ '/' := by
      rintro rfl
      simp at hp
    obtain ⟨piece, pieces, -, hsplit⟩ := Text.exists_splitChars_cons_of_ne hc chars
    rw [hsplit] at h
    simp at h

/-- Behind a slash a relative path stands for what it stands for, but for a `.` at its front. -/
theorem components_inner {p : Path} (hp : p.isAbsolute = false) :
    ((Text.split '/' p.spelling).map Piece.inner).filterMap (·.component?) =
      p.components.filter (· ≠ .current) := by
  cases hsplit : Text.split '/' p.spelling with
  | nil => exact absurd hsplit (Text.split_ne_nil _)
  | cons text rest =>
    have hfirst : (Piece.first text rest.isEmpty).component?.filter (· ≠ .current) =
        (Piece.inner text).component? := by
      unfold Piece.first Piece.inner
      split
      · rw [eq_nil_of_split hp hsplit]
        rfl
      · rfl
      · rfl
      · rfl
    have hrest : ((rest.map Piece.inner).filterMap (·.component?)).filter (· ≠ .current) =
        (rest.map Piece.inner).filterMap (·.component?) := by
      rw [List.filter_eq_self]
      intro c hc
      obtain ⟨piece, hpiece, hcomponent⟩ := List.mem_filterMap.1 hc
      obtain ⟨inside, -, rfl⟩ := List.mem_map.1 hpiece
      simp only [decide_eq_true_eq]
      rintro rfl
      exact Piece.component?_inner_ne_current inside hcomponent
    rw [components, pieces, hsplit, List.map_cons, List.filterMap_cons, List.filterMap_cons]
    rw [← hfirst]
    cases (Piece.first text rest.isEmpty).component? with
    | none => exact hrest.symm
    | some c =>
      rw [List.filter_cons, hrest]
      by_cases hc : c = .current <;> simp [hc, Option.filter_some]

theorem components_join {dir p : Path} (hdir : dir.isAbsolute = true) (hp : p.isAbsolute = false) :
    (dir.join p).components = dir.components ++ p.components.filter (· ≠ .current) := by
  obtain ⟨front, hfront, hpieces⟩ := exists_pieces_join hdir hp
  rw [components, hpieces, List.filterMap_append, hfront, components_inner hp]

theorem hasTestDirectory_join {dir p : Path} (hdir : dir.isAbsolute = true) (hp : p.isAbsolute = false) :
    (dir.join p).hasTestDirectory = (dir.hasTestDirectory || p.hasTestDirectory) := by
  unfold hasTestDirectory
  rw [components_join hdir hp, List.any_append, List.any_filter]
  congr 2
  funext c
  cases c <;> simp [testDirectories]

theorem fileName?_join {dir p : Path} (hdir : dir.isAbsolute = true) (hp : p.isAbsolute = false)
    (hname : p.fileName?.isSome = true) : (dir.join p).fileName? = p.fileName? := by
  unfold fileName? at hname ⊢
  cases hlast : p.components.getLast? with
  | none => simp [hlast] at hname
  | some c =>
    cases c with
    | named name =>
      obtain ⟨front, hfront⟩ := List.getLast?_eq_some_iff.1 hlast
      rw [components_join hdir hp, hfront]
      simp
    | root | current | parent => simp [hlast] at hname

theorem isTest_join {dir p : Path} (hdir : dir.isAbsolute = true) (hp : p.isAbsolute = false)
    (hname : p.fileName?.isSome = true) : (dir.join p).isTest = (dir.hasTestDirectory || p.isTest) := by
  have hjoined : (dir.join p).isTest =
      ((dir.join p).hasTestDirectory || (dir.join p).fileName?.any isTestName) := rfl
  rw [hjoined, hasTestDirectory_join hdir hp, fileName?_join hdir hp hname, Bool.or_assoc]
  rfl

end Path
end Guardrails
