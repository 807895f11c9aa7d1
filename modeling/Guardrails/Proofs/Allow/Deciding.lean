import Guardrails.Allow.Allowances
import Guardrails.Proofs.Lists

/-!
# Deciding directives

Which directive decides about a violation, said by the lines of the file: the first one for the file that
covers the rule, or else the one on the violation's own line, or else the one on the line before.
-/

namespace Guardrails

/-! ## Directives by line -/

namespace AllowDirective

/-- Whether a directive allows a rule to be broken in the file. -/
def coversFile (d : AllowDirective) (r : Rule) : Bool :=
  d.scope == .file && d.covers r

/-- Whether a directive allows a rule to be broken on the lines next to it. -/
def coversLine (d : AllowDirective) (r : Rule) : Bool :=
  d.scope == .line && d.covers r

theorem line_of_ofLine? {text : String} {line : Nat} {d : AllowDirective}
    (h : ofLine? text line = some d) : d.line = line := by
  simp only [ofLine?, Option.bind_eq_bind, Option.bind_eq_some_iff] at h
  obtain ⟨body, -, ⟨scope, rest⟩, -, ⟨list, tail⟩, -, h⟩ := h
  split at h
  · simp at h
  · cases h
    rfl

end AllowDirective

namespace Source

/-- The directive on a line of the file, counted from 1. -/
def directiveOn? (s : Source) : Nat → Option AllowDirective
  | 0 => none
  | n + 1 => s.lines[n]?.bind (AllowDirective.ofLine? · (n + 1))

/-- Whether the directives of a file allow a rule to be broken on a line, or in the file where there is no
line. -/
def allows (s : Source) (r : Rule) (line? : Option Nat) : Bool :=
  ((List.range s.lines.length).any fun n => (s.directiveOn? (n + 1)).any (·.coversFile r)) ||
    line?.any fun line =>
      (s.directiveOn? line).any (·.coversLine r) || (s.directiveOn? (line - 1)).any (·.coversLine r)

/-- Whether a directive on some line is the one that allows a rule to be broken. -/
inductive Decides (s : Source) (r : Rule) : Option Nat → Nat → AllowDirective → Prop
  | file {line? n d} (hd : s.directiveOn? n = some d) (hcovers : d.coversFile r = true)
      (hfirst : ∀ m < n, ∀ e, s.directiveOn? m = some e → e.coversFile r = false) : Decides s r line? n d
  | own {line d} (hfile : ∀ m e, s.directiveOn? m = some e → e.coversFile r = false)
      (hd : s.directiveOn? line = some d) (hcovers : d.coversLine r = true) :
      Decides s r (some line) line d
  | before {line d} (hfile : ∀ m e, s.directiveOn? m = some e → e.coversFile r = false)
      (hown : ∀ e, s.directiveOn? line = some e → e.coversLine r = false)
      (hd : s.directiveOn? (line - 1) = some d) (hcovers : d.coversLine r = true) :
      Decides s r (some line) (line - 1) d

theorem line_of_directiveOn? {s : Source} {n : Nat} {d : AllowDirective}
    (h : s.directiveOn? n = some d) : d.line = n := by
  cases n with
  | zero => cases h
  | succ n =>
    obtain ⟨text, -, hd⟩ := Option.bind_eq_some_iff.1 h
    exact AllowDirective.line_of_ofLine? hd

theorem lt_length_of_directiveOn? {s : Source} {n : Nat} {d : AllowDirective}
    (h : s.directiveOn? n = some d) : ∃ m < s.lines.length, n = m + 1 := by
  cases n with
  | zero => cases h
  | succ n =>
    obtain ⟨text, htext, -⟩ := Option.bind_eq_some_iff.1 h
    exact ⟨n, (List.getElem?_eq_some_iff.1 htext).1, rfl⟩

end Source

/-! ## The list of directives -/

namespace Allowances

variable {s : Source} {r : Rule}

theorem mem_directives {d : AllowDirective} :
    d ∈ (ofSource s).directives ↔ s.directiveOn? d.line = some d := by
  simp only [ofSource, List.mem_filterMap, Prod.exists, List.mk_mem_zipIdx_iff_getElem?]
  constructor
  · rintro ⟨text, index, htext, hd⟩
    rw [AllowDirective.line_of_ofLine? hd, Source.directiveOn?, htext]
    exact hd
  · intro h
    obtain ⟨m, -, hm⟩ := Source.lt_length_of_directiveOn? h
    rw [hm] at h
    obtain ⟨text, htext, hd⟩ := Option.bind_eq_some_iff.1 h
    exact ⟨text, m, htext, hd⟩

theorem directives_pairwise (s : Source) :
    (ofSource s).directives.Pairwise fun d e => d.line < e.line := by
  rw [ofSource, List.pairwise_filterMap]
  have hindex : s.lines.zipIdx.Pairwise fun a b => a.2 < b.2 := by
    rw [← List.pairwise_map (f := Prod.snd) (R := (· < ·)), List.zipIdx_map_snd]
    exact List.pairwise_lt_range'
  refine hindex.imp fun hlt d hd e he => ?_
  rw [AllowDirective.line_of_ofLine? hd, AllowDirective.line_of_ofLine? he]
  omega

theorem find?_eq_some_iff {l : List AllowDirective} (h : l.Pairwise fun d e => d.line < e.line)
    {p : AllowDirective → Bool} {d : AllowDirective} :
    l.find? p = some d ↔ d ∈ l ∧ p d = true ∧ ∀ e ∈ l, e.line < d.line → p e = false :=
  find?_eq_some_iff_of_pairwise (fun _ _ => Nat.lt_asymm) h

theorem ofFile?_eq_some_iff {d : AllowDirective} :
    (ofSource s).ofFile? r = some d ↔ s.directiveOn? d.line = some d ∧ d.coversFile r = true ∧
      ∀ m < d.line, ∀ e, s.directiveOn? m = some e → e.coversFile r = false := by
  rw [ofFile?, find?_eq_some_iff (directives_pairwise s), mem_directives]
  refine and_congr_right fun _ => and_congr_right fun _ => ?_
  constructor
  · intro htop m hm e he
    obtain rfl := Source.line_of_directiveOn? he
    exact htop e (mem_directives.2 he) hm
  · intro htop e he hlt
    exact htop e.line hlt e (mem_directives.1 he)

theorem ofFile?_eq_none_iff :
    (ofSource s).ofFile? r = none ↔ ∀ m e, s.directiveOn? m = some e → e.coversFile r = false := by
  rw [ofFile?, List.find?_eq_none]
  constructor
  · intro hnone m e he
    obtain rfl := Source.line_of_directiveOn? he
    exact Bool.eq_false_iff.2 (hnone e (mem_directives.2 he))
  · intro hnone e he
    exact Bool.eq_false_iff.1 (hnone e.line e (mem_directives.1 he))

theorem onLine?_eq (line : Nat) :
    (ofSource s).onLine? r line = (s.directiveOn? line).filter (·.coversLine r) := by
  ext d
  rw [onLine?, find?_eq_some_iff (directives_pairwise s), mem_directives, Option.filter_eq_some_iff]
  simp only [AllowDirective.coversLine, Bool.and_eq_true, beq_iff_eq, Bool.and_eq_false_iff]
  constructor
  · rintro ⟨hd, ⟨⟨hscope, rfl⟩, hcovers⟩, -⟩
    exact ⟨hd, hscope, hcovers⟩
  · rintro ⟨hd, hscope, hcovers⟩
    obtain rfl := Source.line_of_directiveOn? hd
    refine ⟨hd, ⟨⟨hscope, rfl⟩, hcovers⟩, fun e he hlt => .inl (.inr ?_)⟩
    rw [beq_eq_false_iff_ne]
    omega

/-! ## The directive that decides -/

theorem onLine?_eq_some_iff {line : Nat} {d : AllowDirective} :
    (ofSource s).onLine? r line = some d ↔ s.directiveOn? line = some d ∧ d.coversLine r = true := by
  rw [onLine?_eq, Option.filter_eq_some_iff]

theorem onLine?_eq_none_iff {line : Nat} :
    (ofSource s).onLine? r line = none ↔
      ∀ e, s.directiveOn? line = some e → e.coversLine r = false := by
  rw [onLine?_eq, Option.filter_eq_none_iff]
  simp only [Bool.not_eq_true]

theorem decides_of_allowing? {line? : Option Nat} {d : AllowDirective}
    (h : (ofSource s).allowing? r line? = some d) : s.Decides r line? d.line d := by
  unfold allowing? at h
  cases hfile : (ofSource s).ofFile? r with
  | some e =>
    rw [hfile] at h
    cases h
    obtain ⟨hd, hcovers, hfirst⟩ := ofFile?_eq_some_iff.1 hfile
    exact .file hd hcovers hfirst
  | none =>
    rw [hfile, Option.orElse_eq_orElse, Option.orElse_none] at h
    obtain ⟨line, rfl, hline⟩ := Option.bind_eq_some_iff.1 h
    rw [ofFile?_eq_none_iff] at hfile
    cases hown : (ofSource s).onLine? r line with
    | some e =>
      rw [hown] at hline
      cases hline
      obtain ⟨hd, hcovers⟩ := onLine?_eq_some_iff.1 hown
      rw [Source.line_of_directiveOn? hd]
      exact .own hfile hd hcovers
    | none =>
      rw [hown] at hline
      obtain ⟨hd, hcovers⟩ := onLine?_eq_some_iff.1 hline
      rw [Source.line_of_directiveOn? hd]
      exact .before hfile (onLine?_eq_none_iff.1 hown) hd hcovers

theorem allowing?_of_decides {line? : Option Nat} {n : Nat} {d : AllowDirective}
    (h : s.Decides r line? n d) : (ofSource s).allowing? r line? = some d ∧ d.line = n := by
  unfold allowing?
  cases h with
  | file hd hcovers hfirst =>
    obtain rfl := Source.line_of_directiveOn? hd
    rw [ofFile?_eq_some_iff.2 ⟨hd, hcovers, hfirst⟩]
    exact ⟨rfl, rfl⟩
  | own hfile hd hcovers =>
    rw [ofFile?_eq_none_iff.2 hfile, Option.bind_some, onLine?_eq_some_iff.2 ⟨hd, hcovers⟩]
    exact ⟨rfl, Source.line_of_directiveOn? hd⟩
  | before hfile hown hd hcovers =>
    rw [ofFile?_eq_none_iff.2 hfile, Option.bind_some, onLine?_eq_none_iff.2 hown,
      onLine?_eq_some_iff.2 ⟨hd, hcovers⟩]
    exact ⟨rfl, Source.line_of_directiveOn? hd⟩

theorem isSome_ofFile? : ((ofSource s).ofFile? r).isSome =
    (List.range s.lines.length).any fun n => (s.directiveOn? (n + 1)).any (·.coversFile r) := by
  rw [Bool.eq_iff_iff, ofFile?, List.find?_isSome, List.any_eq_true]
  constructor
  · rintro ⟨d, hd, hcovers⟩
    rw [mem_directives] at hd
    obtain ⟨m, hm, hline⟩ := Source.lt_length_of_directiveOn? hd
    rw [hline] at hd
    exact ⟨m, List.mem_range.2 hm, (Option.any_eq_true _ _).2 ⟨d, hd, hcovers⟩⟩
  · rintro ⟨m, -, hany⟩
    obtain ⟨d, hd, hcovers⟩ := (Option.any_eq_true _ _).1 hany
    refine ⟨d, mem_directives.2 ?_, hcovers⟩
    rw [Source.line_of_directiveOn? hd]
    exact hd

theorem isSome_onLine? (line : Nat) :
    ((ofSource s).onLine? r line).isSome = (s.directiveOn? line).any (·.coversLine r) := by
  rw [onLine?_eq, Option.isSome_filter]

/-- A rule is allowed to be broken where some directive decides so. -/
theorem isSome_allowing? (line? : Option Nat) :
    ((ofSource s).allowing? r line?).isSome = s.allows r line? := by
  rw [allowing?, Source.allows, ← isSome_ofFile?]
  cases (ofSource s).ofFile? r with
  | some d => rfl
  | none =>
    cases line? with
    | none => rfl
    | some line =>
      rw [Option.orElse_eq_orElse, Option.orElse_none, Option.bind_some, Option.any_some,
        ← isSome_onLine?, ← isSome_onLine?]
      cases (ofSource s).onLine? r line <;> rfl

end Allowances
end Guardrails
