import Guardrails.Proofs.Text.Words
import Guardrails.Rule.Tag

/-!
# Tags of rules

A rule is found again by its name, by its code in letters of either case, and by its number. None of these is taken
for something else on the way.
-/

namespace Guardrails.Rule

variable {r : Rule} {tag key : String}

/-- Whether a tag is the name of a rule, its code, or its number. -/
inductive Spelled (r : Rule) : String → Prop
  | name : Spelled r r.name
  | code {tag : String} (h : Text.sameUpToAsciiCase tag r.code = true) : Spelled r tag
  | number : Spelled r (toString r.number)

/-- Whether a character has no meaning of its own in a list of tags. -/
def isTagChar (c : Char) : Bool :=
  !Text.isBlank c && c != ',' && c != ')'

theorem isTagChar_iff {c : Char} : isTagChar c = true ↔ Text.isBlank c = false ∧ c ≠ ',' ∧ c ≠ ')' := by
  simp [isTagChar, and_assoc]

/-! ## Keys -/

/-- The name, the code and the number of a rule, in small letters. -/
def keys (r : Rule) : List String :=
  [r.name, String.ofList (r.code.toList.map Char.toLower), toString r.number]

theorem Spelled.exists_key (h : r.Spelled tag) : ∃ key ∈ r.keys, tag.toList.map Char.toLower = key.toList := by
  cases h with
  | name => exact ⟨r.name, by simp [keys], by cases r <;> decide⟩
  | code h =>
    refine ⟨String.ofList (r.code.toList.map Char.toLower), by simp [keys], ?_⟩
    rw [String.toList_ofList]
    exact beq_iff_eq.1 h
  | number => exact ⟨toString r.number, by simp [keys], by cases r <;> decide⟩

theorem char_of_mem_keys (h : key ∈ r.keys) : ∀ c ∈ key.toList, c.toNat < 0x80 ∧ isTagChar c = true := by
  have hall : key.toList.all (fun c => decide (c.toNat < 0x80) && isTagChar c) = true := by
    revert key
    cases r <;> decide
  simpa using hall

theorem not_rule_prefix_of_mem_keys (h : key ∈ r.keys) : ¬ "rule".toList <+: key.toList := by
  revert key
  cases r <;> decide

theorem ne_empty_of_mem_keys (h : key ∈ r.keys) : key ≠ "" := by
  revert key
  cases r <;> decide

theorem ne_all_of_mem_keys (h : key ∈ r.keys) : key ≠ "all" := by
  revert key
  cases r <;> decide

/-- What a tag in its normal form stands for. -/
def ofKey? (key : String) : Option Rule :=
  match tagNumber? key with
  | some n => ofNumber? n
  | none => ofWords? key

theorem ofTag?_eq (tag : String) :
    ofTag? tag = if (normalizeTag tag).isEmpty then none else ofKey? (normalizeTag tag) := by
  rw [ofTag?]
  generalize normalizeTag tag = key
  rfl

theorem ofKey?_of_mem_keys (h : key ∈ r.keys) : ofKey? key = some r := by
  revert key
  cases r <;> decide

/-! ## Tags -/

section

variable (hkey : key ∈ r.keys) (htag : tag.toList.map Char.toLower = key.toList)

include hkey htag

theorem char_of_key : ∀ c ∈ tag.toList, c.toNat < 0x80 ∧ isTagChar c = true := by
  intro c hc
  have hlower : c.toLower ∈ key.toList := by
    rw [← htag]
    exact List.mem_map_of_mem hc
  obtain ⟨hascii, hchar⟩ := char_of_mem_keys hkey _ hlower
  obtain ⟨hblank, hcomma, hparenthesis⟩ := isTagChar_iff.1 hchar
  refine ⟨Text.toNat_toLower_lt_iff.1 hascii, isTagChar_iff.2 ⟨?_, ?_, ?_⟩⟩
  · rwa [Text.isBlank_toLower] at hblank
  · rintro rfl
    exact hcomma rfl
  · rintro rfl
    exact hparenthesis rfl

theorem trimChars_of_key : Text.trimChars tag.toList = tag.toList :=
  Text.trimChars_of_not_blank fun c hc => (isTagChar_iff.1 (char_of_key hkey htag c hc).2).1

theorem normalizeTag_of_key : normalizeTag tag = key := by
  have hchar := char_of_key hkey htag
  have htrim := trimChars_of_key hkey htag
  have hdrop : ∀ start : List Char, start.map Char.toLower = "rule".toList →
      Text.dropEach start tag.toList = tag.toList := by
    intro start hstart
    refine Text.dropEach_of_not_prefix fun hprefix => not_rule_prefix_of_mem_keys hkey ?_
    rw [← hstart, ← htag]
    exact hprefix.map _
  simp only [normalizeTag, htrim, hdrop "Rule".toList (by decide), hdrop "rule".toList (by decide),
    String.ofList_toList]
  rw [Text.lowercase_of_ascii fun c hc => (hchar c hc).1, htag, String.ofList_toList]

theorem ofTag?_of_key : ofTag? tag = some r := by
  have hempty : key.isEmpty = false := by
    rw [← Bool.not_eq_true, String.isEmpty_iff]
    exact ne_empty_of_mem_keys hkey
  rw [ofTag?_eq, normalizeTag_of_key hkey htag, hempty, ofKey?_of_mem_keys hkey]
  rfl

end

end Guardrails.Rule
