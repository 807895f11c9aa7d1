import Mathlib.Data.List.Basic
import Mathlib.Data.List.TakeWhile
import Mathlib.Tactic.SplitIfs
import Guardrails.Proofs.Path.Joining
import Guardrails.Proofs.Text.Lines
import Guardrails.Text.LetterCase
import Guardrails.Text.Search

/-!
# Words between blanks and separators

Trimming and cutting take apart what was put together from words, the blanks around them, and the separators
between them. Neither trimming nor the lowercase form depends on the case of the letters of ASCII, and the lowercase
form of a text of ASCII characters is made letter by letter.
-/

namespace Guardrails.Text

variable {c : Char} {text front word rest before after : List Char}

/-! ## Trimming -/

theorem trimLeft_append (h : ∀ c ∈ before, isBlank c = true) : trimLeft (before ++ text) = trimLeft text :=
  List.dropWhile_append_of_pos h

theorem trimLeft_cons (h : isBlank c = false) : trimLeft (c :: rest) = c :: rest :=
  List.dropWhile_cons_of_neg (by simp [h])

theorem trimRight_append (h : ∀ c ∈ after, isBlank c = true) : trimRight (text ++ after) = trimRight text := by
  rw [trimRight, trimRight, List.reverse_append,
    List.dropWhile_append_of_pos fun c hc => h c (List.mem_reverse.1 hc)]

theorem trimRight_append_cons (h : isBlank c = false) :
    trimRight (front ++ c :: rest) = front ++ c :: trimRight rest := by
  have hreverse : (front ++ c :: rest).reverse = rest.reverse ++ c :: front.reverse := by simp
  rw [trimRight, trimRight, hreverse, List.dropWhile_append]
  split_ifs with hempty
  · rw [List.isEmpty_iff.1 hempty, List.dropWhile_cons_of_neg (by simp [h])]
    simp
  · simp

theorem trimChars_of_blank (h : ∀ c ∈ text, isBlank c = true) : trimChars text = [] := by
  rw [trimChars, trimLeft, List.dropWhile_eq_nil_iff.2 h]
  rfl

theorem dropWhile_of_not_blank (h : ∀ c ∈ text, isBlank c = false) : text.dropWhile isBlank = text := by
  cases text with
  | nil => rfl
  | cons c text => exact trimLeft_cons (h c List.mem_cons_self)

theorem trimChars_of_not_blank (h : ∀ c ∈ text, isBlank c = false) : trimChars text = text := by
  rw [trimChars, trimLeft, dropWhile_of_not_blank h, trimRight,
    dropWhile_of_not_blank fun c hc => h c (List.mem_reverse.1 hc), List.reverse_reverse]

theorem trimChars_around (hbefore : ∀ c ∈ before, isBlank c = true) (hafter : ∀ c ∈ after, isBlank c = true) :
    trimChars (before ++ text ++ after) = trimChars text := by
  rw [List.append_assoc, trimChars, trimLeft_append hbefore, trimChars]
  induction text with
  | nil =>
    have hblank := trimChars_of_blank hafter
    rwa [trimChars] at hblank
  | cons c text ih =>
    cases hc : isBlank c with
    | true => rwa [List.cons_append, trimLeft, trimLeft, List.dropWhile_cons_of_pos hc, List.dropWhile_cons_of_pos hc]
    | false => rw [trimLeft_cons hc, List.cons_append, trimLeft_cons hc, ← List.cons_append, trimRight_append hafter]

theorem trimChars_between (hbefore : ∀ c ∈ before, isBlank c = true) (hword : ∀ c ∈ word, isBlank c = false)
    (hafter : ∀ c ∈ after, isBlank c = true) : trimChars (before ++ word ++ after) = word := by
  rw [trimChars_around hbefore hafter, trimChars_of_not_blank hword]

theorem trimChars_append_of_not_blank (hword : ∀ c ∈ word, isBlank c = false) (hsome : word ≠ [])
    (rest : List Char) : trimChars (word ++ rest) = word ++ trimRight rest := by
  have hleft : trimLeft (word ++ rest) = word ++ rest := by
    cases word with
    | nil => exact absurd rfl hsome
    | cons c word => exact trimLeft_cons (hword c List.mem_cons_self)
  have hlast := hword _ (List.getLast_mem hsome)
  rw [trimChars, hleft, ← List.dropLast_concat_getLast hsome, List.append_assoc, List.singleton_append,
    trimRight_append_cons hlast, List.append_assoc, List.singleton_append]

theorem exists_trimRight_append (text : List Char) :
    ∃ after, (∀ c ∈ after, isBlank c = true) ∧ trimRight text ++ after = text := by
  refine ⟨(text.reverse.takeWhile isBlank).reverse, ?_, ?_⟩
  · intro c hc
    exact List.mem_takeWhile_imp (List.mem_reverse.1 hc)
  · rw [trimRight, ← List.reverse_append, List.takeWhile_append_dropWhile, List.reverse_reverse]

theorem exists_trimChars_around (text : List Char) : ∃ before after, (∀ c ∈ before, isBlank c = true) ∧
    (∀ c ∈ after, isBlank c = true) ∧ before ++ trimChars text ++ after = text := by
  obtain ⟨after, hafter, hright⟩ := exists_trimRight_append (trimLeft text)
  refine ⟨text.takeWhile isBlank, after, fun c hc => List.mem_takeWhile_imp hc, hafter, ?_⟩
  rw [trimChars, List.append_assoc, hright, trimLeft, List.takeWhile_append_dropWhile]

theorem trimChars_trimRight (text : List Char) : trimChars (trimRight text) = trimChars text := by
  obtain ⟨after, hafter, htext⟩ := exists_trimRight_append text
  have haround : trimChars ([] ++ trimRight text ++ after) = trimChars (trimRight text) :=
    trimChars_around (by simp) hafter
  rw [← haround, List.nil_append, htext]

theorem trimChars_trimChars (text : List Char) : trimChars (trimChars text) = trimChars text := by
  obtain ⟨before, after, hbefore, hafter, htext⟩ := exists_trimChars_around text
  rw [← trimChars_around hbefore hafter, htext]

/-! ## Cutting -/

theorem isSome_cut?_iff {mark : List Char} : (cut? mark text).isSome = true ↔ mark <:+: text := by
  induction text with
  | nil => rw [cut?, List.infix_nil, Option.isSome_ite, List.isEmpty_iff]
  | cons c text ih =>
    rw [cut?, List.infix_cons_iff, ← ih, ← List.isPrefixOf_iff_prefix]
    cases mark.isPrefixOf (c :: text) <;> simp

theorem contains_iff {text needle : String} : contains text needle = true ↔ needle.toList <:+: text.toList :=
  isSome_cut?_iff

theorem cutFirst?_append (h : c ∉ front) : cutFirst? c (front ++ c :: rest) = some (front, rest) := by
  have hfront : ∀ d ∈ front, (d != c) = true := by
    intro d hd
    rw [bne_iff_ne]
    rintro rfl
    exact h hd
  rw [cutFirst?, if_pos (List.mem_append_right front List.mem_cons_self), List.takeWhile_append_of_pos hfront,
    List.dropWhile_append_of_pos hfront, List.takeWhile_cons_of_neg (by simp), List.dropWhile_cons_of_neg (by simp)]
  simp

theorem cutFirst?_eq_none_iff : cutFirst? c text = none ↔ c ∉ text := by
  simp [cutFirst?]

theorem cutLast?_append (h : c ∉ rest) : cutLast? c (front ++ c :: rest) = some (front, rest) := by
  have hreverse : (front ++ c :: rest).reverse = rest.reverse ++ c :: front.reverse := by simp
  rw [cutLast?, hreverse, cutFirst?_append (by simpa using h)]
  simp

theorem cutLast?_eq_none_iff : cutLast? c text = none ↔ c ∉ text := by
  rw [cutLast?, Option.map_eq_none_iff, cutFirst?_eq_none_iff, List.mem_reverse]

theorem cutLast?_eq_some_iff : cutLast? c text = some (front, rest) ↔ text = front ++ c :: rest ∧ c ∉ rest := by
  constructor
  · intro h
    have hmem : c ∈ text.reverse := by
      by_contra hmem
      rw [cutLast?_eq_none_iff.2 fun hc => hmem (List.mem_reverse.2 hc)] at h
      cases h
    obtain ⟨after, before, htext, hafter⟩ := List.eq_append_cons_of_mem hmem
    have hsplit : text = before.reverse ++ c :: after.reverse := by
      simpa using congrArg List.reverse htext
    rw [hsplit, cutLast?_append (by simpa using hafter)] at h
    cases h
    exact ⟨hsplit, by simpa using hafter⟩
  · rintro ⟨rfl, hrest⟩
    exact cutLast?_append hrest

theorem dropEach_append {start : List Char} (h : start ≠ []) :
    dropEach start (start ++ text) = dropEach start text := by
  rw [dropEach, dif_pos ⟨h, List.prefix_append start text⟩, List.drop_left]

theorem dropEach_suffix (start text : List Char) : dropEach start text <:+ text := by
  induction text using dropEach.induct start with
  | case1 text h ih =>
    rw [dropEach, dif_pos h]
    exact ih.trans (List.drop_suffix _ _)
  | case2 text h => exact ⟨[], by rw [dropEach, dif_neg h, List.nil_append]⟩

theorem dropEach_of_not_prefix {start : List Char} (h : ¬ start <+: text) : dropEach start text = text := by
  rw [dropEach, dif_neg fun hstart => h hstart.2]

/-! ## Letter case -/

theorem toLower_of_not_capital (h : c.toNat < 0x41 ∨ 0x5A < c.toNat) : c.toLower = c := by
  refine dif_neg fun hcapital => ?_
  simp only [ge_iff_le, UInt32.le_iff_toNat_le] at hcapital
  have hfirst : 'A'.val.toNat = 0x41 := rfl
  have hlast : 'Z'.val.toNat = 0x5A := rfl
  rw [Char.toNat] at h
  omega

theorem toNat_toLower (hfirst : 0x41 ≤ c.toNat) (hlast : c.toNat ≤ 0x5A) : c.toLower.toNat = c.toNat + 0x20 := by
  have hlower : c.toLower.val = c.val + 0x20 :=
    congrArg Char.val (dif_pos ⟨UInt32.le_iff_toNat_le.2 hfirst, UInt32.le_iff_toNat_le.2 hlast⟩)
  have hshift : (0x20 : UInt32).toNat = 0x20 := rfl
  rw [Char.toNat] at hlast
  rw [Char.toNat, Char.toNat, hlower, UInt32.toNat_add]
  omega

/-- What is the same for each capital letter of ASCII and its small letter does not depend on letter case. -/
theorem apply_toLower {α : Type} {f : Char → α}
    (h : ∀ c : Char, 0x41 ≤ c.toNat → c.toNat ≤ 0x5A → f c.toLower = f c) (c : Char) : f c.toLower = f c := by
  by_cases hcapital : 0x41 ≤ c.toNat ∧ c.toNat ≤ 0x5A
  · exact h c hcapital.1 hcapital.2
  · rw [toLower_of_not_capital (by omega)]

theorem toNat_toLower_lt_iff : c.toLower.toNat < 0x80 ↔ c.toNat < 0x80 := by
  refine iff_of_eq (apply_toLower (f := fun c => c.toNat < 0x80) (fun c hfirst hlast => propext ?_) c)
  have hlower := toNat_toLower hfirst hlast
  omega

theorem toLower_eq_iff {d : Char} (hd : ¬ d.toNat < 0x80) : c.toLower = d ↔ c = d := by
  refine iff_of_eq (apply_toLower (f := (· = d)) (fun c hfirst hlast => propext ?_) c)
  have hlower := toNat_toLower hfirst hlast
  constructor <;> rintro rfl <;> omega

theorem isBlank_toLower (c : Char) : isBlank c.toLower = isBlank c := by
  refine apply_toLower (fun c hfirst hlast => ?_) c
  rw [Bool.eq_iff_iff]
  simp only [isBlank, toNat_toLower hfirst hlast, Bool.or_eq_true, Bool.and_eq_true, decide_eq_true_eq, beq_iff_eq]
  omega

theorem isCased_toLower (c : Char) : isCased c.toLower = isCased c := by
  have hcapitals : (0x41, 0x5A) ∈ casedRanges := by decide +kernel
  have hsmall : (0x61, 0x7A) ∈ casedRanges := by decide +kernel
  refine apply_toLower (fun c hfirst hlast => ?_) c
  rw [Bool.eq_iff_iff]
  simp only [isCased, inRanges, toNat_toLower hfirst hlast, Array.any_eq_true', Bool.and_eq_true, decide_eq_true_eq]
  exact iff_of_true ⟨_, hsmall, by omega⟩ ⟨_, hcapitals, by omega⟩

theorem isCaseIgnorable_toLower (c : Char) : isCaseIgnorable c.toLower = isCaseIgnorable c := by
  have hranges : ∀ r ∈ caseIgnorableRanges.toList, r.2 < 0x41 ∨ 0x5A < r.1 ∧ r.2 < 0x61 ∨ 0x7A < r.1 := by
    decide +kernel
  refine apply_toLower (fun c hfirst hlast => ?_) c
  rw [Bool.eq_iff_iff]
  simp only [isCaseIgnorable, inRanges, toNat_toLower hfirst hlast, Array.any_eq_true', Bool.and_eq_true,
    decide_eq_true_eq]
  refine iff_of_false ?_ ?_
  · rintro ⟨r, hr, hc⟩
    have := hranges r (Array.mem_toList_iff.2 hr)
    omega
  · rintro ⟨r, hr, hc⟩
    have := hranges r (Array.mem_toList_iff.2 hr)
    omega

theorem lowercaseChar_toLower (c : Char) : lowercaseChar c.toLower = lowercaseChar c := by
  refine apply_toLower (fun c hfirst hlast => ?_) c
  have hlower := toNat_toLower hfirst hlast
  rw [lowercaseChar, lowercaseChar, if_pos (by omega), if_pos (by omega), toLower_of_not_capital (by omega)]

/-! ## Letter case of texts -/

theorem trimChars_map_toLower (text : List Char) :
    trimChars (text.map Char.toLower) = (trimChars text).map Char.toLower := by
  have hblank : isBlank ∘ Char.toLower = isBlank := funext isBlank_toLower
  simp only [trimChars, trimLeft, trimRight, List.dropWhile_map, ← List.map_reverse, hblank]

theorem dropEach_map_dropEach {start front : List Char} (hstart : start.map Char.toLower = front) (text : List Char) :
    dropEach front ((dropEach start text).map Char.toLower) = dropEach front (text.map Char.toLower) := by
  induction text using dropEach.induct start with
  | case1 text h ih =>
    obtain ⟨hsome, rest, rfl⟩ := h
    have hfront : front ≠ [] := by
      rintro rfl
      exact hsome (List.map_eq_nil_iff.1 hstart)
    rw [List.drop_left] at ih
    rw [dropEach_append hsome, ih, List.map_append, hstart, dropEach_append hfront]
  | case2 text h =>
    rw [dropEach.eq_def start, dif_neg h]

theorem startsCased_map_toLower (text : List Char) : startsCased (text.map Char.toLower) = startsCased text := by
  have hignorable : isCaseIgnorable ∘ Char.toLower = isCaseIgnorable := by
    ext c
    rw [Function.comp_apply, isCaseIgnorable_toLower]
  simp only [startsCased, List.dropWhile_map, hignorable, List.head?_map, Option.any_map, isCased_toLower]

theorem lowercaseAfter_map_toLower (before text : List Char) :
    lowercaseAfter (before.map Char.toLower) (text.map Char.toLower) = lowercaseAfter before text := by
  induction text generalizing before with
  | nil => rfl
  | cons c text ih =>
    have hsigma : c.toLower = 'Σ' ↔ c = 'Σ' := toLower_eq_iff (by decide)
    have hdotted : c.toLower = 'İ' ↔ c = 'İ' := toLower_eq_iff (by decide)
    rw [List.map_cons, lowercaseAfter, lowercaseAfter, ← List.map_cons, ih]
    simp only [hsigma, hdotted, startsCased_map_toLower, lowercaseChar_toLower]

theorem lowercaseAfter_append_of_ascii (h : ∀ c ∈ text, c.toNat < 0x80) (before rest : List Char) :
    lowercaseAfter before (text ++ rest) = text.map Char.toLower ++ lowercaseAfter (text.reverse ++ before) rest := by
  induction text generalizing before with
  | nil => rfl
  | cons c text ih =>
    have hc := h c List.mem_cons_self
    have hsigma : c ≠ 'Σ' := by
      rintro rfl
      exact absurd hc (by decide)
    have hdotted : c ≠ 'İ' := by
      rintro rfl
      exact absurd hc (by decide)
    rw [List.cons_append, lowercaseAfter, if_neg hsigma, if_neg hdotted, lowercaseChar, if_pos hc,
      ih fun d hd => h d (List.mem_cons_of_mem c hd)]
    simp

theorem lowercase_of_ascii {text : String} (h : ∀ c ∈ text.toList, c.toNat < 0x80) :
    lowercase text = String.ofList (text.toList.map Char.toLower) := by
  rw [lowercase, ← List.append_nil text.toList, lowercaseAfter_append_of_ascii h, lowercaseAfter, List.append_nil,
    List.append_nil]

end Guardrails.Text
