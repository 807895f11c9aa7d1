import Guardrails.Proofs.Analyzer.Discovered

/-!
# Targets

What is discovered is what the targets lead to, each path once and in ascending order. So it does not matter in which
order the targets stand, how often, and whether one of them leads to files of another one.
-/

namespace Guardrails

/-! ## Sets of paths -/

namespace Path

theorem exists_mem_dedupe {ps : List Path} {p : Path} (h : p ∈ ps) : ∃ q ∈ dedupe ps, (q == p) = true := by
  induction ps using dedupe.induct generalizing p with
  | case1 => cases h
  | case2 x =>
    rw [dedupe]
    exact ⟨p, h, BEq.rfl⟩
  | case3 x y rest heq ih =>
    rw [dedupe, if_pos heq]
    rcases List.mem_cons.1 h with rfl | h
    · exact ih List.mem_cons_self
    · rcases List.mem_cons.1 h with rfl | h
      · -- The second of two equal paths goes, and the first one stands for it.
        obtain ⟨q, hq, hqx⟩ := ih List.mem_cons_self
        exact ⟨q, hq, BEq.trans hqx heq⟩
      · exact ih (List.mem_cons_of_mem _ h)
  | case4 x y rest hne ih =>
    rw [dedupe, if_neg hne]
    rcases List.mem_cons.1 h with rfl | h
    · exact ⟨p, List.mem_cons_self, BEq.rfl⟩
    · obtain ⟨q, hq, hqp⟩ := ih h
      exact ⟨q, List.mem_cons_of_mem _ hq, hqp⟩

theorem exists_mem_sortUnique_iff {ps : List Path} {p : Path} :
    (∃ q ∈ sortUnique ps, (q == p) = true) ↔ ∃ q ∈ ps, (q == p) = true := by
  constructor
  · rintro ⟨q, hq, hqp⟩
    exact ⟨q, mem_of_mem_sortUnique hq, hqp⟩
  · rintro ⟨q, hq, hqp⟩
    obtain ⟨x, hx, hxq⟩ := exists_mem_dedupe (List.mem_mergeSort.2 hq)
    exact ⟨x, hx, BEq.trans hxq hqp⟩

theorem map_components_eq {ps qs : List Path} (hps : ps.Pairwise fun p q => compare p q = .lt)
    (hqs : qs.Pairwise fun p q => compare p q = .lt)
    (h : ∀ p, (∃ q ∈ ps, (q == p) = true) ↔ ∃ q ∈ qs, (q == p) = true) :
    ps.map components = qs.map components := by
  have hsorted {l : List Path} (hl : l.Pairwise fun p q => compare p q = .lt) :
      (l.map components).Pairwise fun a b => compare a b = .lt := List.pairwise_map.2 hl
  have hnodup {l : List Path} (hl : l.Pairwise fun p q => compare p q = .lt) : (l.map components).Nodup := by
    refine List.pairwise_map.2 (hl.imp fun {p q} hlt heq => ?_)
    have hne := beq_eq_false_of_lt hlt
    rw [beq_iff.2 heq] at hne
    cases hne
  have hmem {l m : List Path} (hlm : ∀ p, (∃ q ∈ l, (q == p) = true) → ∃ q ∈ m, (q == p) = true) {cs : List Component}
      (hcs : cs ∈ l.map components) : cs ∈ m.map components := by
    obtain ⟨p, hp, rfl⟩ := List.mem_map.1 hcs
    obtain ⟨q, hq, hqp⟩ := hlm p ⟨p, hp, BEq.rfl⟩
    rw [← beq_iff.1 hqp]
    exact List.mem_map_of_mem hq
  have hperm : (ps.map components).Perm (qs.map components) :=
    (List.perm_ext_iff_of_nodup (hnodup hps) (hnodup hqs)).2
      fun cs => ⟨hmem fun p => (h p).1, hmem fun p => (h p).2⟩
  refine hperm.eq_of_pairwise (fun a b _ _ hab hba => ?_) (hsorted hps) (hsorted hqs)
  exact absurd hba (by simp [Std.OrientedCmp.gt_of_lt hab])

end Path

/-! ## Directories inside of others -/

namespace Ignore

variable {respectGit : Bool} {dir p : Path} {place here sub : FileTree.Place}

/-- The levels of ignore files that count for the entries of a directory. -/
def levelsIn (respectGit : Bool) (entries : FileTree.Entries) (place : FileTree.Place) : List Level :=
  Level.ofEntries respectGit entries [] :: Level.above respectGit [] place.above

/-- Whether a walk that starts at a directory comes to another one, which it enters under this path. -/
inductive Enters (respectGit : Bool) (dir : Path) (place : FileTree.Place) : Path → FileTree.Place → Prop
  | start (h : place.tree.isDirectory = true) : Enters respectGit dir place dir place
  | step {p : Path} {here : FileTree.Place} {entries : FileTree.Entries} {name : String} {t : FileTree}
    (h : Enters respectGit dir place p here) (hhere : here.tree = .directory entries)
    (hentry : entries.lookup name = some t) (hdir : t.isDirectory = true)
    (hkept : isLeftOut (levelsIn respectGit entries here) name true = false) :
    Enters respectGit dir place (p.join ⟨name⟩) ⟨t, (entries, name) :: here.above⟩

theorem Enters.isDirectory (h : Enters respectGit dir place p here) :
    place.tree.isDirectory = true ∧ here.tree.isDirectory = true := by
  induction h with
  | start h => exact ⟨h, h⟩
  | step h hhere hentry hdir hkept ih => exact ⟨ih.1, hdir⟩

theorem Level.above_enter (trail : List String) (name : String) (above : List (FileTree.Entries × String)) :
    (Level.above respectGit trail above).map (·.enter name) = Level.above respectGit (trail ++ [name]) above := by
  induction above generalizing trail with
  | nil => rfl
  | cons outer above ih =>
    rw [Level.above, Level.above, List.map_cons, ih]
    rfl

theorem walkTree_subset_walkEntries {levels : List Level} {entries : FileTree.Entries} {name : String} {t : FileTree}
    (hentry : (name, t) ∈ entries) (hkept : isLeftOut levels name t.isDirectory = false) :
    walkTree respectGit (levels.map (·.enter name)) (p.join ⟨name⟩) t ⊆ walkEntries respectGit levels p entries := by
  induction entries with
  | nil => cases hentry
  | cons entry entries ih =>
    rw [walkEntries]
    rcases List.mem_cons.1 hentry with rfl | hentry
    · simp [hkept]
    · exact List.subset_append_of_subset_right _ (ih hentry)

theorem Enters.walkTree_subset (h : Enters respectGit dir place p here) :
    walkTree respectGit (Level.above respectGit [] here.above) p here.tree ⊆
      walkTree respectGit (Level.above respectGit [] place.above) dir place.tree := by
  induction h with
  | start h => exact List.Subset.refl _
  | @step p here entries name t h hhere hentry hdir hkept ih =>
    refine List.Subset.trans ?_ ih
    obtain ⟨before, after, hentries, -⟩ := List.lookup_eq_some_iff.1 hentry
    have hlevels : Level.above respectGit [] ((entries, name) :: here.above) =
        (levelsIn respectGit entries here).map (·.enter name) := by
      rw [levelsIn, List.map_cons, Level.above_enter, Level.above]
      rfl
    rw [hhere, walkTree, hlevels]
    exact walkTree_subset_walkEntries (by simp [hentries]) (hdir ▸ hkept)

theorem file_mem_walk_iff : .file p ∈ walk respectGit dir place ↔
    .file p ∈ walkTree respectGit (Level.above respectGit [] place.above) dir place.tree := by
  rw [walk, List.mem_append, or_iff_right_iff_imp]
  intro h
  unfold foundAbove at h
  split at h
  · cases h
  · cases List.mem_singleton.1 h

end Ignore

/-! ## What targets lead to -/

/-- Whether there is a file or a directory at a path, so that it can be a target. -/
def FileTree.IsTarget (t : FileTree) (p : Path) : Prop :=
  t.isFileAt p = true ∨ t.isDirectoryAt p = true

namespace Analyzer

variable {a : Analyzer} {s : Search} {t : FileTree} {target p : Path} {d : Discovery}

/-- Whether a path matches one of the patterns, as it is seen from the root or as it is. -/
def Matches (a : Analyzer) (s : Search) (patterns : List Glob) (p : Path) : Prop :=
  ∃ g ∈ patterns, s.isMatch g (a.root.relativeTo p) = true ∨ s.isMatch g p = true

/-- Whether a target leads to a file under this spelling. A target that is a file leads to itself. -/
inductive LeadsTo (a : Analyzer) (s : Search) (t : FileTree) (target : Path) : Path → Prop
  | itself {place : FileTree.Place} (hplace : t.placeOf target = .ok place) (hfile : place.tree.isFile = true)
    (hexcluded : ¬ a.Matches s a.excluded target) : LeadsTo a s t target target
  | below {place : FileTree.Place} {p : Path} (hplace : t.placeOf target = .ok place)
    (hdir : place.tree.isDirectory = true) (hfound : .file p ∈ s.walk target place)
    (hscript : ∃ extension ∈ Path.scriptExtensions, p.extension? = some extension)
    (hexcluded : ¬ a.Matches s a.excluded p) (hincluded : a.included = [] ∨ a.Matches s a.included p) :
    LeadsTo a s t target p

/-- Whether some target leads to a file under this spelling. -/
def Reaches (a : Analyzer) (s : Search) (t : FileTree) (p : Path) : Prop :=
  ∃ target ∈ a.targets, a.LeadsTo s t target p

theorem matchesAny_iff {patterns : List Glob} : a.matchesAny s patterns p = true ↔ a.Matches s patterns p := by
  simp [matchesAny, Matches]

theorem isExcluded_eq_false_iff : a.isExcluded s p = false ↔ ¬ a.Matches s a.excluded p := by
  rw [isExcluded, ← matchesAny_iff, Bool.not_eq_true]

theorem isIncluded_iff : a.isIncluded s p = true ↔ a.included = [] ∨ a.Matches s a.included p := by
  rw [isIncluded, Bool.or_eq_true, List.isEmpty_iff, matchesAny_iff]

theorem isScript_iff : p.isScript = true ↔ ∃ extension ∈ Path.scriptExtensions, p.extension? = some extension := by
  rw [Path.isScript, Option.any_eq_true]
  simp only [List.contains_iff_mem, and_comm]

theorem accepts_iff : a.accepts s p = true ↔ (∃ extension ∈ Path.scriptExtensions, p.extension? = some extension) ∧
    ¬ a.Matches s a.excluded p ∧ (a.included = [] ∨ a.Matches s a.included p) := by
  rw [accepts, Bool.and_eq_true, Bool.and_eq_true, isScript_iff, isIncluded_iff, Bool.not_eq_true',
    isExcluded_eq_false_iff, and_assoc]

theorem acceptedFile?_eq_some_iff {found : Ignore.Found} :
    a.acceptedFile? s found = some p ↔ found = .file p ∧ a.accepts s p = true := by
  unfold acceptedFile?
  split
  · simp only [Option.ite_none_right_eq_some, Option.some.injEq, Ignore.Found.file.injEq]
    constructor
    · rintro ⟨h, rfl⟩
      exact ⟨rfl, h⟩
    · rintro ⟨rfl, h⟩
      exact ⟨h, rfl⟩
  · rename_i hother
    exact iff_of_false nofun fun h => hother p h.1

theorem mem_files_iff_of_discoverAt (h : a.discoverAt s t target = .ok d) :
    p ∈ d.files ↔ a.LeadsTo s t target p := by
  obtain ⟨place, hplace, h⟩ := discoverAt_eq_ok.1 h
  have hsame {place' : FileTree.Place} (hplace' : t.placeOf target = .ok place') : place' = place :=
    Except.ok.inj (hplace'.symm.trans hplace)
  rcases h with ⟨hfile, rfl⟩ | ⟨hdir, rfl⟩
  · constructor
    · intro hp
      cases hexcluded : a.isExcluded s target with
      | true => simp [hexcluded] at hp
      | false =>
        obtain rfl : p = target := by simpa [hexcluded] using hp
        exact .itself hplace hfile (isExcluded_eq_false_iff.1 hexcluded)
    · intro hleads
      cases hleads with
      | itself hplace' hfile' hexcluded => simp [isExcluded_eq_false_iff.2 hexcluded]
      | below hplace' hdir =>
        rw [hsame hplace', FileTree.isDirectory_of_isFile hfile] at hdir
        cases hdir
  · rw [List.mem_filterMap]
    simp only [acceptedFile?_eq_some_iff, accepts_iff]
    constructor
    · rintro ⟨found, hfound, rfl, hscript, hexcluded, hincluded⟩
      exact .below hplace hdir hfound hscript hexcluded hincluded
    · intro hleads
      cases hleads with
      | itself hplace' hfile =>
        rw [FileTree.isDirectory_of_isFile (hsame hplace' ▸ hfile)] at hdir
        cases hdir
      | below hplace' hdir' hfound hscript hexcluded hincluded =>
        rw [hsame hplace'] at hfound
        exact ⟨_, hfound, rfl, hscript, hexcluded, hincluded⟩

theorem exists_discoverAt_iff : (∃ d, a.discoverAt s t target = .ok d) ↔ t.IsTarget target := by
  simp only [discoverAt_eq_ok]
  unfold FileTree.IsTarget FileTree.isFileAt FileTree.isDirectoryAt
  cases t.placeOf target <;> simp [exists_or]

theorem exists_discoverBy (h : ∀ target ∈ a.targets, t.IsTarget target) (s : Search) :
    ∃ d found, a.discoverBy s t = .ok d ∧ d.files = Path.sortUnique found ∧ ∀ p, p ∈ found ↔ a.Reaches s t p := by
  obtain ⟨parts, hparts⟩ :=
    exists_mapM_eq_ok fun target htarget => exists_discoverAt_iff (s := s).2 (h target htarget)
  have hmap := mapM_eq_ok_iff.1 hparts
  refine ⟨⟨Path.sortUnique (parts.flatMap (·.files)), parts.flatMap (·.unreadable)⟩, parts.flatMap (·.files),
    ?_, rfl, fun p => ?_⟩
  · rw [discoverBy, hparts]
    rfl
  · rw [List.mem_flatMap]
    constructor
    · rintro ⟨part, hpart, hp⟩
      have hmem : .ok part ∈ a.targets.map (a.discoverAt s t) := hmap ▸ List.mem_map_of_mem hpart
      obtain ⟨target, htarget, hat⟩ := List.mem_map.1 hmem
      exact ⟨target, htarget, (mem_files_iff_of_discoverAt hat).1 hp⟩
    · rintro ⟨target, htarget, hleads⟩
      have hmem : a.discoverAt s t target ∈ parts.map .ok := hmap ▸ List.mem_map_of_mem htarget
      obtain ⟨part, hpart, hat⟩ := List.mem_map.1 hmem
      exact ⟨part, hpart, (mem_files_iff_of_discoverAt hat.symm).2 hleads⟩

theorem LeadsTo.not_matches (h : a.LeadsTo s t target p) : ¬ a.Matches s a.excluded p := by
  cases h with
  | itself hplace hfile hexcluded => exact hexcluded
  | below hplace hdir hfound hscript hexcluded hincluded => exact hexcluded

/-- Whether a list of paths is what is to be discovered. -/
structure IsDiscovery (a : Analyzer) (s : Search) (t : FileTree) (files : List Path) : Prop where
  ascending : files.Pairwise fun p q => compare p q = .lt
  mem_iff : ∀ p, (∃ q ∈ files, (q == p) = true) ↔ ∃ q, a.Reaches s t q ∧ (q == p) = true
  reaches : ∀ p ∈ files, a.Reaches s t p ∧ ¬ a.Matches s a.excluded p

theorem exists_isDiscovery (h : ∀ target ∈ a.targets, t.IsTarget target) (s : Search) :
    ∃ d, a.discoverBy s t = .ok d ∧ a.IsDiscovery s t d.files := by
  obtain ⟨d, found, hd, hfiles, hfound⟩ := exists_discoverBy h s
  refine ⟨d, hd, ?_⟩
  rw [hfiles]
  refine ⟨Path.ascending_sortUnique found, fun p => ?_, fun p hp => ?_⟩
  · simp only [Path.exists_mem_sortUnique_iff, hfound]
  · obtain ⟨target, htarget, hleads⟩ := (hfound p).1 (Path.mem_of_mem_sortUnique hp)
    exact ⟨⟨target, htarget, hleads⟩, hleads.not_matches⟩

/-! ## Other targets -/

/-- Whether a target leads only to files that are reached anyway. -/
def Overlaps (a : Analyzer) (s : Search) (t : FileTree) (target : Path) : Prop :=
  ∀ p, a.LeadsTo s t target p → ∃ q, a.Reaches s t q ∧ (q == p) = true

theorem overlaps_of_mem (h : target ∈ a.targets) : a.Overlaps s t target :=
  fun p hp => ⟨p, ⟨target, h, hp⟩, BEq.rfl⟩

theorem overlaps_of_reaches (hfile : t.isFileAt target = true) (h : a.Reaches s t target) :
    a.Overlaps s t target := by
  intro p hp
  cases hp with
  | itself hplace hfile' hexcluded => exact ⟨target, h, BEq.rfl⟩
  | below hplace hdir =>
    unfold FileTree.isFileAt at hfile
    rw [hplace] at hfile
    rw [FileTree.isDirectory_of_isFile hfile] at hdir
    cases hdir

theorem overlaps_of_enters {dir : Path} {place sub : FileTree.Place} (hdir : dir ∈ a.targets)
    (hplace : t.placeOf dir = .ok place) (hsub : t.placeOf target = .ok sub)
    (h : Ignore.Enters a.config.analyzer.respectGitignore dir place target sub) :
    a.Overlaps a.search t target := by
  intro p hp
  cases hp with
  | itself hsub' hfile hexcluded =>
    rw [hsub] at hsub'
    cases hsub'
    have hdir := h.isDirectory.2
    rw [FileTree.isDirectory_of_isFile hfile] at hdir
    cases hdir
  | below hsub' hdir' hfound hscript hexcluded hincluded =>
    rw [hsub] at hsub'
    cases hsub'
    have hwalk := Ignore.file_mem_walk_iff.2 (h.walkTree_subset (Ignore.file_mem_walk_iff.1 hfound))
    exact ⟨p, ⟨dir, hdir, .below hplace h.isDirectory.1 hwalk hscript hexcluded hincluded⟩, BEq.rfl⟩

theorem leadsTo_targets {targets : List Path} :
    { a with targets }.LeadsTo s t target p ↔ a.LeadsTo s t target p := by
  constructor <;> rintro (⟨hplace, hfile, hexcluded⟩ | ⟨hplace, hdir, hfound, hscript, hexcluded, hincluded⟩)
  · exact .itself hplace hfile hexcluded
  · exact .below hplace hdir hfound hscript hexcluded hincluded
  · exact .itself hplace hfile hexcluded
  · exact .below hplace hdir hfound hscript hexcluded hincluded

/-- Targets that are added to others reach the same if they overlap with these. -/
theorem reaches_targets {targets : List Path} (hall : a.targets ⊆ targets)
    (htargets : ∀ target ∈ targets, a.Overlaps s t target) (p : Path) :
    (∃ q, { a with targets }.Reaches s t q ∧ (q == p) = true) ↔ ∃ q, a.Reaches s t q ∧ (q == p) = true := by
  constructor
  · rintro ⟨q, ⟨target, htarget, hleads⟩, hqp⟩
    obtain ⟨x, hx, hxq⟩ := htargets target htarget q (leadsTo_targets.1 hleads)
    exact ⟨x, hx, BEq.trans hxq hqp⟩
  · rintro ⟨q, ⟨target, htarget, hleads⟩, hqp⟩
    exact ⟨q, ⟨target, hall htarget, leadsTo_targets.2 hleads⟩, hqp⟩

theorem map_components_eq_of_targets {targets : List Path} {e : Discovery} (hd : a.IsDiscovery s t d.files)
    (he : { a with targets }.IsDiscovery s t e.files) (hall : a.targets ⊆ targets)
    (htargets : ∀ target ∈ targets, a.Overlaps s t target) :
    e.files.map Path.components = d.files.map Path.components := by
  refine Path.map_components_eq he.ascending hd.ascending fun p => ?_
  rw [he.mem_iff, hd.mem_iff]
  exact reaches_targets hall htargets p

/-- Under existing targets the files that these lead to are discovered, in ascending order and each once, and none
under a spelling that is excluded, whatever a walk comes upon and whatever patterns match. Targets in another order and
number come to the same files, also with others added that overlap with them: files that are reached anyway, and, in
the walk that heeds ignore files, directories that the walk of a target enters. -/
theorem discover_targets (h : ∀ target ∈ a.targets, t.IsTarget target) :
    (∀ s : Search, ∃ d, a.discoverBy s t = .ok d ∧ a.IsDiscovery s t d.files ∧
      (∀ targets, a.targets ⊆ targets → (∀ target ∈ targets, t.IsTarget target ∧ a.Overlaps s t target) →
        ∃ e, { a with targets }.discoverBy s t = .ok e ∧
          e.files.map Path.components = d.files.map Path.components) ∧
      (∀ target ∈ a.targets, a.Overlaps s t target) ∧
      ∀ target, t.isFileAt target = true → a.Reaches s t target → a.Overlaps s t target) ∧
    (∀ targets, { a with targets }.discover t = { a with targets }.discoverBy a.search t) ∧
    ∀ dir ∈ a.targets, ∀ place target sub, t.placeOf dir = .ok place → t.placeOf target = .ok sub →
      Ignore.Enters a.config.analyzer.respectGitignore dir place target sub → a.Overlaps a.search t target := by
  refine ⟨fun s => ?_, fun _ => rfl, ?_⟩
  · obtain ⟨d, hd, hdiscovery⟩ := exists_isDiscovery h s
    refine ⟨d, hd, hdiscovery, ?_, fun target => overlaps_of_mem, fun target => overlaps_of_reaches⟩
    intro targets hall htargets
    have hexist : ∀ target ∈ ({ a with targets } : Analyzer).targets, t.IsTarget target :=
      fun target htarget => (htargets target htarget).1
    obtain ⟨e, he, hother⟩ := exists_isDiscovery hexist s
    exact ⟨e, he, map_components_eq_of_targets hdiscovery hother hall fun target htarget =>
      (htargets target htarget).2⟩
  · intro dir hdir place target sub hplace hsub henters
    exact overlaps_of_enters hdir hplace hsub henters

/-- A directory with an excluded file, one in it, and a file of it, each a target of its own. -/
theorem discover_nestedTargets :
    let analyzer : Analyzer := ⟨⟨"/"⟩, [⟨"/p/./a.js"⟩, ⟨"/p"⟩], [], [⟨"p/x.js".toList.map .char⟩], [], 4096,
      ⟨.recommended, .default, []⟩⟩
    let empty : FileTree := .file ⟨⟨#[]⟩, none⟩
    let tree : FileTree := .directory
      [("p", .directory [("a.js", empty), ("sub", .directory [("b.js", empty)]), ("x.js", empty)])]
    (∀ target ∈ analyzer.targets, tree.IsTarget target) ∧
      ∃ d, analyzer.discover tree = .ok d ∧ (∃ q ∈ d.files, (q == ⟨"/p/a.js"⟩) = true) ∧
        (∃ q ∈ d.files, (q == ⟨"/p/sub/b.js"⟩) = true) ∧ ⟨"/p/x.js"⟩ ∉ d.files ∧
        ∃ e, { analyzer with targets := [⟨"/p/sub"⟩, ⟨"/p"⟩, ⟨"/p/a.js"⟩, ⟨"/p/./a.js"⟩, ⟨"/p"⟩] }.discover tree =
          .ok e ∧ e.files.map Path.components = d.files.map Path.components := by
  intro analyzer empty tree
  have hexist : ∀ target ∈ analyzer.targets, tree.IsTarget target := by
    simp only [analyzer, List.forall_mem_cons, List.not_mem_nil, false_implies, implies_true, and_true]
    exact ⟨.inl rfl, .inr rfl⟩
  have hfile : tree.placeOf ⟨"/p/./a.js"⟩ = .ok _ := rfl
  have hdir : tree.placeOf ⟨"/p"⟩ = .ok _ := rfl
  have hbelow (p : Path)
      (hfound : .file p ∈ [Ignore.Found.file ⟨"/p/a.js"⟩, .file ⟨"/p/sub/b.js"⟩, .file ⟨"/p/x.js"⟩])
      (haccepts : analyzer.accepts analyzer.search p = true) : analyzer.Reaches analyzer.search tree p := by
    obtain ⟨hscript, hexcluded, hincluded⟩ := accepts_iff.1 haccepts
    exact ⟨⟨"/p"⟩, by simp [analyzer], .below hdir rfl hfound hscript hexcluded hincluded⟩
  have ha : analyzer.Reaches analyzer.search tree ⟨"/p/a.js"⟩ := hbelow _ (by simp) (by decide +kernel)
  have hb : analyzer.Reaches analyzer.search tree ⟨"/p/sub/b.js"⟩ := hbelow _ (by simp) (by decide +kernel)
  obtain ⟨hsearch, -, hoverlapsDir⟩ := discover_targets hexist
  obtain ⟨d, hd, hdiscovery, hother, hoverlaps, hoverlapsFile⟩ := hsearch analyzer.search
  refine ⟨hexist, d, hd, (hdiscovery.mem_iff _).2 ⟨_, ha, BEq.rfl⟩, (hdiscovery.mem_iff _).2 ⟨_, hb, BEq.rfl⟩, ?_, ?_⟩
  · intro hx
    exact (hdiscovery.reaches _ hx).2 (matchesAny_iff.1 (by decide +kernel))
  · obtain ⟨sub, hsub, henters⟩ : ∃ sub, tree.placeOf ⟨"/p/sub"⟩ = .ok sub ∧
        Ignore.Enters true ⟨"/p"⟩ _ (Path.join ⟨"/p"⟩ ⟨"sub"⟩) sub :=
      ⟨_, rfl, .step (.start rfl) rfl rfl rfl rfl⟩
    refine hother _ (by simp [analyzer]) ?_
    simp only [List.forall_mem_cons, List.not_mem_nil, false_implies, implies_true, and_true]
    refine ⟨⟨.inr rfl, ?_⟩, ⟨.inr rfl, ?_⟩, ⟨.inl rfl, ?_⟩, ⟨.inl rfl, ?_⟩, .inr rfl, ?_⟩
    · exact hoverlapsDir ⟨"/p"⟩ (by simp [analyzer]) _ _ _ hdir hsub henters
    · exact hoverlaps _ (by simp [analyzer])
    · exact hoverlapsFile _ rfl ha
    · exact hoverlaps _ (by simp [analyzer])
    · exact hoverlaps _ (by simp [analyzer])

end Analyzer
end Guardrails
