import Guardrails.Proofs.Rule.Tags

/-!
# Tags in other spellings

A tag may be written in letters of either case and with blanks around it. This makes no difference but for the word
`Rule` in front, which is taken off before letter case is done away with, and only in two of its spellings.
-/

namespace Guardrails.Rule

variable {tag other : String}

/-- Whether a tag consists of a text and of blanks around it. -/
def Frames (text : List Char) (tag : String) : Prop :=
  ∃ before after, (∀ c ∈ before, Text.isBlank c = true) ∧ (∀ c ∈ after, Text.isBlank c = true) ∧
    before ++ text ++ after = tag.toList

/-- Whether two tags differ only in the case of letters of ASCII and in the blanks around them. -/
def Respells (tag other : String) : Prop :=
  ∃ text text', Frames text tag ∧ Frames text' other ∧ text.map Char.toLower = text'.map Char.toLower

theorem respells_iff : Respells tag other ↔
    (Text.trimChars tag.toList).map Char.toLower = (Text.trimChars other.toList).map Char.toLower := by
  constructor
  · rintro ⟨text, text', ⟨before, after, hbefore, hafter, htag⟩, ⟨before', after', hbefore', hafter', hother⟩, hcase⟩
    rw [← htag, ← hother, Text.trimChars_around hbefore hafter, Text.trimChars_around hbefore' hafter',
      ← Text.trimChars_map_toLower, ← Text.trimChars_map_toLower, hcase]
  · intro hcase
    exact ⟨_, _, Text.exists_trimChars_around _, Text.exists_trimChars_around _, hcase⟩

/-! ## The word in front -/

/-- Whether a text begins with the word, in letters of either case. -/
def BeginsWithWord (text : List Char) : Prop :=
  "rule".toList <+: text.map Char.toLower

theorem char_of_word {word : List Char} (hword : word.map Char.toLower = "rule".toList) :
    ∀ c ∈ word, c.toNat < 0x80 ∧ Text.isBlank c = false := by
  intro c hc
  have hletters : "rule".toList.all (fun c => decide (c.toNat < 0x80) && !Text.isBlank c) = true := by decide
  have hlower : c.toLower ∈ "rule".toList := by
    rw [← hword]
    exact List.mem_map_of_mem hc
  have hletter := List.all_eq_true.1 hletters _ hlower
  rwa [Text.isBlank_toLower, Bool.and_eq_true, decide_eq_true_eq, Text.toNat_toLower_lt_iff,
    Bool.not_eq_true'] at hletter

theorem trimChars_word_append {word : List Char} (hword : word.map Char.toLower = "rule".toList) (rest : List Char) :
    Text.trimChars (word ++ rest) = word ++ Text.trimRight rest := by
  have hsome : word ≠ [] := by
    rintro rfl
    exact absurd hword (by decide)
  exact Text.trimChars_append_of_not_blank (fun c hc => (char_of_word hword c hc).2) hsome rest

/-- What is left of a tag without the blanks around it and the word in front. -/
def remainder (tag : String) : List Char :=
  Text.dropEach "rule".toList (Text.dropEach "Rule".toList (Text.trimChars tag.toList))

theorem toList_normalizeTag (tag : String) :
    (normalizeTag tag).toList = Text.lowercaseAfter [] (Text.trimChars (remainder tag)) := by
  rw [normalizeTag, Text.lowercase, String.toList_ofList, String.toList_ofList]
  rfl

theorem remainder_suffix (tag : String) : remainder tag <:+ Text.trimChars tag.toList :=
  (Text.dropEach_suffix _ _).trans (Text.dropEach_suffix _ _)

theorem dropEach_of_not_beginsWithWord {text start : List Char} (h : ¬ BeginsWithWord text)
    (hstart : start.map Char.toLower = "rule".toList) : Text.dropEach start text = text := by
  refine Text.dropEach_of_not_prefix fun hprefix => h ?_
  rw [BeginsWithWord, ← hstart]
  exact hprefix.map Char.toLower

theorem remainder_of_not_beginsWithWord (h : ¬ BeginsWithWord (Text.trimChars tag.toList)) :
    remainder tag = Text.trimChars tag.toList := by
  rw [remainder, dropEach_of_not_beginsWithWord h (by decide), dropEach_of_not_beginsWithWord h (by decide)]

/-- Where the word is taken off as often as it stands there, letter case may be done away with before. -/
theorem map_remainder_of_not_beginsWithWord (h : ¬ BeginsWithWord (remainder tag)) : (remainder tag).map Char.toLower =
    Text.dropEach "rule".toList ((Text.trimChars tag.toList).map Char.toLower) := by
  rw [← Text.dropEach_of_not_prefix h, remainder, Text.dropEach_map_dropEach (by decide),
    Text.dropEach_map_dropEach (by decide)]

theorem map_remainder_of_length (h : Respells tag other) (hlength : (remainder other).length = (remainder tag).length) :
    (remainder other).map Char.toLower = (remainder tag).map Char.toLower := by
  have htag := (remainder_suffix tag).map Char.toLower
  have hother := (remainder_suffix other).map Char.toLower
  rw [← respells_iff.1 h] at hother
  exact (List.suffix_of_suffix_length_le hother htag (by simp [hlength])).eq_of_length (by simp [hlength])

theorem normalizeTag_behind_word {blanks : List Char} (hblanks : ∀ c ∈ blanks, Text.isBlank c = true)
    (h : ¬ BeginsWithWord (Text.trimChars tag.toList)) :
    normalizeTag ("Rule" ++ String.ofList blanks ++ tag) = normalizeTag tag := by
  have htrim : Text.trimChars ("Rule" ++ String.ofList blanks ++ tag).toList =
      "Rule".toList ++ Text.trimRight (blanks ++ tag.toList) := by
    have hsplit : ("Rule" ++ String.ofList blanks ++ tag).toList = "Rule".toList ++ (blanks ++ tag.toList) := by
      simp
    rw [hsplit]
    exact trimChars_word_append (by decide) _
  have hrest : Text.trimChars (Text.trimRight (blanks ++ tag.toList)) = Text.trimChars tag.toList := by
    have haround : Text.trimChars (blanks ++ tag.toList ++ []) = Text.trimChars tag.toList :=
      Text.trimChars_around hblanks (by simp)
    rwa [Text.trimChars_trimRight, ← List.append_nil (blanks ++ tag.toList)]
  have hnone : ¬ BeginsWithWord (Text.trimRight (blanks ++ tag.toList)) := by
    rintro ⟨after, hafter⟩
    refine h ⟨Text.trimRight after, ?_⟩
    rw [← hrest, ← Text.trimChars_map_toLower, ← hafter, trimChars_word_append (by decide)]
  apply String.toList_inj.1
  rw [toList_normalizeTag, toList_normalizeTag, remainder_of_not_beginsWithWord h, Text.trimChars_trimChars, remainder,
    htrim, Text.dropEach_append (by decide), dropEach_of_not_beginsWithWord hnone (by decide),
    dropEach_of_not_beginsWithWord hnone (by decide), hrest]

/-! ## Reading on -/

theorem ofTag?_of_map_remainder (h : (remainder other).map Char.toLower = (remainder tag).map Char.toLower) :
    ofTag? other = ofTag? tag := by
  have hkey : normalizeTag other = normalizeTag tag := by
    apply String.toList_inj.1
    rw [toList_normalizeTag, toList_normalizeTag, ← Text.lowercaseAfter_map_toLower, ← Text.trimChars_map_toLower, h,
      Text.trimChars_map_toLower, Text.lowercaseAfter_map_toLower]
  rw [ofTag?_eq, ofTag?_eq, hkey]

theorem prefix_normalizeTag (h : BeginsWithWord (remainder tag)) : "rule".toList <+: (normalizeTag tag).toList := by
  obtain ⟨rest, hrest⟩ := h
  have hword : "rule".toList.map Char.toLower = "rule".toList := by decide
  have hascii : ∀ c ∈ "rule".toList, c.toNat < 0x80 := fun c hc => (char_of_word hword c hc).1
  rw [toList_normalizeTag, ← Text.lowercaseAfter_map_toLower, ← Text.trimChars_map_toLower, ← hrest,
    trimChars_word_append hword, Text.lowercaseAfter_append_of_ascii hascii]
  exact List.prefix_append _ _

theorem ofKey?_of_begins {key : String} (h : "rule".toList <+: key.toList) :
    ofKey? key = (keywords.find? fun keyword => Text.contains key keyword.1).map (·.2) := by
  have hnumber : tagNumber? key = none := by
    obtain ⟨rest, hrest⟩ := h
    rw [tagNumber?, ← hrest]
    simp
  have hlower : BeginsWithWord key.toList := h.map Char.toLower
  have hnamed : all.find? (isNamed key) = none := by
    rw [List.find?_eq_none]
    intro r _ hnamed
    simp only [isNamed, Text.sameUpToAsciiCase, Bool.or_eq_true, beq_iff_eq] at hnamed
    have hspelled : ¬ r.Spelled key := by
      intro hspelled
      obtain ⟨word, hword, hcase⟩ := hspelled.exists_key
      rw [BeginsWithWord, hcase] at hlower
      exact not_rule_prefix_of_mem_keys hword hlower
    rcases hnamed with (hcode | rfl) | htitle
    · exact hspelled (.code (beq_iff_eq.2 hcode.symm))
    · exact hspelled .name
    · rw [BeginsWithWord, ← htitle] at hlower
      revert hlower
      cases r <;> decide
  have halias : aliases.find? (·.1 == key) = none := by
    have haliases : ∀ a ∈ aliases, ¬ "rule".toList <+: a.1.toList := by decide
    rw [List.find?_eq_none]
    intro a ha heq
    exact haliases a ha (beq_iff_eq.1 heq ▸ h)
  simp only [ofKey?, hnumber, ofWords?, hnamed, halias, Option.map_none, Option.orElse_eq_orElse, Option.orElse_eq_or,
    Option.none_or]

theorem ofTag?_of_beginsWithWord (h : BeginsWithWord (remainder tag)) :
    ofTag? tag = (keywords.find? fun keyword => Text.contains (normalizeTag tag) keyword.1).map (·.2) := by
  have hprefix := prefix_normalizeTag h
  have hempty : (normalizeTag tag).isEmpty = false := by
    rw [← Bool.not_eq_true, String.isEmpty_iff]
    intro hempty
    rw [hempty] at hprefix
    exact absurd hprefix (by decide)
  rw [ofTag?_eq, hempty, ← ofKey?_of_begins hprefix, if_neg Bool.false_ne_true]

/-- Letter case and the blanks around it make no difference to a tag that does not begin with the word `rule` in any
letter case, nor where this is taken off both spellings as often as it stands there, or as much of one as of the
other. Where it is left, the tag is read as a phrase only. -/
theorem ofTag?_of_respells (h : Respells tag other) :
    (¬ BeginsWithWord (Text.trimChars tag.toList) → ofTag? other = ofTag? tag) ∧
      (¬ BeginsWithWord (remainder tag) → ¬ BeginsWithWord (remainder other) → ofTag? other = ofTag? tag) ∧
      ((remainder other).length = (remainder tag).length → ofTag? other = ofTag? tag) ∧
      (BeginsWithWord (remainder other) →
        ofTag? other = (keywords.find? fun keyword => Text.contains (normalizeTag other) keyword.1).map (·.2)) := by
  have hcase := respells_iff.1 h
  have hbare (htag : ¬ BeginsWithWord (remainder tag)) (hother : ¬ BeginsWithWord (remainder other)) :
      ofTag? other = ofTag? tag := by
    refine ofTag?_of_map_remainder ?_
    rw [map_remainder_of_not_beginsWithWord htag, map_remainder_of_not_beginsWithWord hother, hcase]
  refine ⟨fun hnone => ?_, hbare, ?_, ofTag?_of_beginsWithWord⟩
  · have hnone' : ¬ BeginsWithWord (Text.trimChars other.toList) := by
      rwa [BeginsWithWord, ← hcase]
    apply hbare
    · rwa [remainder_of_not_beginsWithWord hnone]
    · rwa [remainder_of_not_beginsWithWord hnone']
  · exact fun hlength => ofTag?_of_map_remainder (map_remainder_of_length h hlength)

theorem ofTag?_respelled :
    Respells "Rule Sanitize-HTML" " rule SANITIZE-html\t" ∧ ofTag? "Rule Sanitize-HTML" = some .sanitizeHtml ∧
      ofTag? " rule SANITIZE-html\t" = some .sanitizeHtml := by
  have h : Respells "Rule Sanitize-HTML" " rule SANITIZE-html\t" := respells_iff.2 (by decide)
  have htag : remainder "Rule Sanitize-HTML" = " Sanitize-HTML".toList := by decide +kernel
  have hother : remainder " rule SANITIZE-html\t" = " SANITIZE-html".toList := by decide +kernel
  have hkey : normalizeTag "Rule Sanitize-HTML" = Rule.sanitizeHtml.name := by decide +kernel
  have hrule : ofTag? "Rule Sanitize-HTML" = some .sanitizeHtml := by
    rw [ofTag?_eq, hkey, ofKey?_of_mem_keys (r := .sanitizeHtml) (by simp [keys])]
    rfl
  refine ⟨h, hrule, ?_⟩
  rw [← hrule]
  apply (ofTag?_of_respells h).2.1
  · rw [htag, BeginsWithWord]
    decide
  · rw [hother, BeginsWithWord]
    decide

/-- Of two spellings of a tag, one can stand for a rule and the other one for none. -/
theorem not_ofTag?_of_respells : ¬ ∀ tag other, Respells tag other → ofTag? other = ofTag? tag := by
  intro h
  have hsame := h "Rule 7" "RULE 7" (respells_iff.2 (by decide))
  have hkey : normalizeTag "Rule 7" = "7" := by decide +kernel
  have hother : normalizeTag "RULE 7" = "rule 7" := by decide +kernel
  have hrule : ofKey? "7" = some .sanitizeHtml := ofKey?_of_mem_keys (by decide)
  have hnone : ofKey? "rule 7" = none := by
    rw [ofKey?_of_begins (by decide)]
    decide
  rw [ofTag?_eq, ofTag?_eq, hkey, hother, hrule, hnone] at hsame
  cases hsame

end Guardrails.Rule
