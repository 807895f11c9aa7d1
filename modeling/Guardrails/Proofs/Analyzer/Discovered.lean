import Guardrails.Analyzer.Batch
import Guardrails.Proofs.Report.Sorting
import Guardrails.Proofs.Rules.Findings

/-!
# Discovered files

The files that are discovered are absolute paths, and no two of them are the same. So they stay different when
they are seen from the root.
-/

namespace Guardrails

theorem mapM_eq_ok_iff {ε α β : Type} {g : α → Except ε β} {l : List α} {bs : List β} :
    l.mapM g = .ok bs ↔ l.map g = bs.map .ok := by
  induction l generalizing bs with
  | nil =>
    rw [List.mapM_nil, List.map_nil, eq_comm (a := ([] : List (Except ε β))), List.map_eq_nil_iff]
    exact ⟨fun h => by cases h; rfl, fun h => by rw [h]; rfl⟩
  | cons a l ih =>
    rw [List.mapM_cons]
    constructor
    · intro h
      obtain ⟨b, hb, h⟩ := Except.bind_eq_ok.1 h
      obtain ⟨rest, hrest, h⟩ := Except.bind_eq_ok.1 h
      cases h
      rw [List.map_cons, List.map_cons, hb, ih.1 hrest]
    · intro h
      cases bs with
      | nil => cases h
      | cons b bs =>
        rw [List.map_cons, List.map_cons, List.cons.injEq] at h
        rw [h.1, ih.2 h.2]
        rfl

theorem exists_mapM_eq_ok {ε α β : Type} {g : α → Except ε β} {l : List α} (h : ∀ a ∈ l, ∃ b, g a = .ok b) :
    ∃ bs, l.mapM g = .ok bs := by
  induction l with
  | nil => exact ⟨[], rfl⟩
  | cons a l ih =>
    obtain ⟨b, hb⟩ := h a List.mem_cons_self
    obtain ⟨bs, hbs⟩ := ih fun x hx => h x (List.mem_cons_of_mem a hx)
    exact ⟨b :: bs, by rw [List.mapM_cons, hb, hbs]; rfl⟩

/-! ## Each path once -/

namespace Path

theorem dedupe_subset (ps : List Path) : dedupe ps ⊆ ps := by
  induction ps using dedupe.induct with
  | case1 =>
    rw [dedupe]
    exact List.Subset.refl _
  | case2 p =>
    rw [dedupe]
    exact List.Subset.refl _
  | case3 p q rest heq ih =>
    rw [dedupe, if_pos heq]
    exact List.Subset.trans ih (List.cons_subset_cons _ (List.subset_cons_self _ _))
  | case4 p q rest hne ih =>
    rw [dedupe, if_neg hne]
    exact List.cons_subset_cons _ ih

theorem pairwise_dedupe {ps : List Path} (h : ps.Pairwise fun p q => (compare p q).isLE = true) :
    (dedupe ps).Pairwise fun p q => compare p q = .lt := by
  induction ps using dedupe.induct with
  | case1 =>
    rw [dedupe]
    exact .nil
  | case2 p =>
    rw [dedupe]
    exact List.pairwise_singleton _ _
  | case3 p q rest heq ih =>
    rw [dedupe, if_pos heq]
    exact ih (h.sublist ((List.sublist_cons_self _ _).cons_cons _))
  | case4 p q rest hne ih =>
    rw [dedupe, if_neg hne]
    have hpq : compare p q = .lt := by
      rcases Ordering.isLE_iff_eq_lt_or_eq_eq.1 (List.rel_of_pairwise_cons h List.mem_cons_self) with
        hlt | heq
      · exact hlt
      · exact absurd (compare_eq_iff.1 heq) hne
    refine List.pairwise_cons.2 ⟨fun x hx => ?_, ih h.of_cons⟩
    -- Everything behind `q` is at `q` or beyond it.
    rcases List.mem_cons.1 (dedupe_subset _ hx) with rfl | hx
    · exact hpq
    · exact Std.TransCmp.lt_of_lt_of_isLE hpq (List.rel_of_pairwise_cons h.of_cons hx)

theorem beq_eq_false_of_lt {p q : Path} (h : compare p q = .lt) : (p == q) = false := by
  rw [Bool.eq_false_iff]
  intro heq
  rw [compare_eq_iff.2 heq] at h
  cases h

theorem ascending_sortUnique (ps : List Path) : (sortUnique ps).Pairwise fun p q => compare p q = .lt :=
  pairwise_dedupe ((isRanking_of_transCmp compare).pairwise_mergeSort ps)

theorem pairwise_sortUnique (ps : List Path) : (sortUnique ps).Pairwise fun p q => (p == q) = false :=
  (ascending_sortUnique ps).imp beq_eq_false_of_lt

theorem mem_of_mem_sortUnique {ps : List Path} {p : Path} (h : p ∈ sortUnique ps) : p ∈ ps :=
  List.mem_mergeSort.1 (dedupe_subset _ h)

end Path

/-! ## Walking down -/

namespace Ignore

mutual

theorem isAbsolute_of_mem_walkTree {respectGit : Bool} {levels : List Level} {dir p : Path} {t : FileTree}
    (hdir : dir.isAbsolute = true) (h : .file p ∈ walkTree respectGit levels dir t) :
    p.isAbsolute = true := by
  cases t with
  | file | sealed =>
    rw [walkTree, List.mem_singleton] at h
    cases h
    exact hdir
  | locked reason =>
    rw [walkTree, List.mem_singleton] at h
    cases h
  | special | link =>
    rw [walkTree] at h
    exact absurd h List.not_mem_nil
  | directory entries =>
    rw [walkTree] at h
    exact isAbsolute_of_mem_walkEntries hdir h

theorem isAbsolute_of_mem_walkEntries {respectGit : Bool} {levels : List Level} {dir p : Path}
    {entries : FileTree.Entries} (hdir : dir.isAbsolute = true)
    (h : .file p ∈ walkEntries respectGit levels dir entries) : p.isAbsolute = true := by
  cases entries with
  | nil =>
    rw [walkEntries] at h
    exact absurd h List.not_mem_nil
  | cons entry rest =>
    obtain ⟨name, t⟩ := entry
    rw [walkEntries, List.mem_append] at h
    rcases h with h | h
    · split at h
      · exact absurd h List.not_mem_nil
      · exact isAbsolute_of_mem_walkTree (Path.isAbsolute_join _ hdir) h
    · exact isAbsolute_of_mem_walkEntries hdir h

end

theorem isAbsolute_of_mem_walk {respectGit : Bool} {dir p : Path} {place : FileTree.Place}
    (hdir : dir.isAbsolute = true) (h : .file p ∈ walk respectGit dir place) : p.isAbsolute = true := by
  rw [walk, List.mem_append] at h
  rcases h with h | h
  · unfold foundAbove at h
    split at h
    · exact absurd h List.not_mem_nil
    · cases List.mem_singleton.1 h
  · exact isAbsolute_of_mem_walkTree hdir h

end Ignore

/-! ## What is discovered -/

namespace Analyzer

variable {a : Analyzer} {t : FileTree}

theorem isAbsolute_of_ofOptions {here : Path} {checkers : List Checker} {o : AnalyzerOptions}
    (hhere : here.isAbsolute = true) (h : ofOptions here checkers o = .ok a) :
    a.root.isAbsolute = true ∧ ∀ target ∈ a.targets, target.isAbsolute = true := by
  simp only [ofOptions] at h
  split at h
  · cases h
  · cases h
  · cases h
    refine ⟨Path.isAbsolute_join _ hhere, fun target htarget => ?_⟩
    simp only at htarget
    split at htarget
    · rw [List.mem_singleton.1 htarget]
      exact Path.isAbsolute_join _ hhere
    · obtain ⟨p, -, rfl⟩ := List.mem_map.1 htarget
      exact Path.isAbsolute_join _ hhere

theorem discoverAt_eq_ok {s : Search} {target : Path} {d : Discovery} :
    a.discoverAt s t target = .ok d ↔ ∃ place, t.placeOf target = .ok place ∧
      (place.tree.isFile = true ∧ ⟨if a.isExcluded s target then [] else [target], []⟩ = d ∨
        place.tree.isDirectory = true ∧ ⟨(s.walk target place).filterMap (a.acceptedFile? s),
          (s.walk target place).filterMap (a.unreadable? target)⟩ = d) := by
  unfold discoverAt
  cases hplace : t.placeOf target with
  | error e => simp
  | ok place =>
    simp only [Except.ok.injEq, exists_eq_left']
    cases hfile : place.tree.isFile with
    | true => simp [FileTree.isDirectory_of_isFile hfile]
    | false => cases place.tree.isDirectory <;> simp

theorem isAbsolute_of_discoverAt {target p : Path} {d : Discovery} (htarget : target.isAbsolute = true)
    (h : a.discoverAt a.search t target = .ok d) (hp : p ∈ d.files) : p.isAbsolute = true := by
  obtain ⟨place, -, ⟨-, rfl⟩ | ⟨-, rfl⟩⟩ := discoverAt_eq_ok.1 h
  · simp only at hp
    split at hp
    · exact absurd hp List.not_mem_nil
    · rw [List.mem_singleton.1 hp]
      exact htarget
  · obtain ⟨found, hfound, haccepted⟩ := List.mem_filterMap.1 hp
    unfold acceptedFile? at haccepted
    split at haccepted
    · obtain ⟨-, heq⟩ := Option.ite_none_right_eq_some.1 haccepted
      rw [← Option.some.inj heq]
      exact Ignore.isAbsolute_of_mem_walk htarget hfound
    · cases haccepted

theorem isAbsolute_of_discover {d : Discovery} (htargets : ∀ target ∈ a.targets, target.isAbsolute = true)
    (h : a.discover t = .ok d) {p : Path} (hp : p ∈ d.files) : p.isAbsolute = true := by
  obtain ⟨found, hfound, h⟩ := Except.bind_eq_ok.1 h
  cases h
  obtain ⟨part, hpart, hp⟩ := List.mem_flatMap.1 (Path.mem_of_mem_sortUnique hp)
  have hdiscovered : .ok part ∈ a.targets.map (a.discoverAt a.search t) := by
    rw [mapM_eq_ok_iff.1 hfound]
    exact List.mem_map_of_mem hpart
  obtain ⟨target, htarget, hdiscovered⟩ := List.mem_map.1 hdiscovered
  exact isAbsolute_of_discoverAt (htargets target htarget) hdiscovered hp

/-- The files that are discovered are different paths as seen from the root. -/
theorem pairwise_relativeTo_of_discover {d : Discovery} (hroot : a.root.isAbsolute = true)
    (htargets : ∀ target ∈ a.targets, target.isAbsolute = true) (h : a.discover t = .ok d) :
    d.files.Pairwise fun p q => (a.root.relativeTo p == a.root.relativeTo q) = false := by
  have habsolute : ∀ p ∈ d.files, p.isAbsolute = true := fun p => isAbsolute_of_discover htargets h
  obtain ⟨found, -, h⟩ := Except.bind_eq_ok.1 h
  cases h
  refine (Path.pairwise_sortUnique _).imp_of_mem fun {p q} hp hq hne => ?_
  rw [Bool.eq_false_iff] at hne ⊢
  exact fun heq => hne (Path.beq_of_relativeTo_beq hroot (habsolute p hp) (habsolute q hq) heq)

end Analyzer
end Guardrails
