import Mathlib
import Guardrails.Config.Reading

/-!
# Sections that take effect

A configuration is accepted when all its keys name rules, where a code may be written in any letter case.
The section of a rule is then looked up under the name and under the code as the catalog spells them. So a
section under a code in another letter case is accepted and passed over.
-/

namespace Guardrails.Config

/-! ## Keys -/

theorem ruleOfKey?_name (r : Rule) : ruleOfKey? r.name = some r := by
  cases r <;> rfl

theorem ruleOfKey?_code (r : Rule) : ruleOfKey? r.code = some r := by
  cases r <;> rfl

theorem names_of_ruleOfKey? {key : String} {r : Rule} (h : ruleOfKey? key = some r) :
    key = r.name ∨ Text.sameUpToAsciiCase r.code key = true := by
  have hfound := List.find?_some h
  rw [Bool.or_eq_true, beq_iff_eq] at hfound
  exact hfound.imp_left Eq.symm

/-- Whether no other key of a configuration names the rule. -/
def IsOnlyKey (c : Config) (key : String) (r : Rule) : Prop :=
  ∀ other ∈ c.sections.map (·.1), ruleOfKey? other = some r → other = key

/-! ## Accepted configurations -/

theorem unknownKey?_of_ofText {text : String} {c : Config} (h : ofText text = .ok c) :
    c.unknownKey? = none := by
  unfold ofText at h
  split at h
  · unfold validated at h
    split at h
    · cases h
    · cases h
      assumption
  · cases h

theorem exists_rule_of_ofText {text key : String} {c : Config} (h : ofText text = .ok c)
    (hkey : key ∈ c.sections.map (·.1)) : ∃ r, ruleOfKey? key = some r := by
  have hnone := unknownKey?_of_ofText h
  rw [unknownKey?, List.find?_eq_none] at hnone
  have hnamed := hnone key (List.mem_mergeSort.2 hkey)
  rw [Bool.not_eq_true, Option.isNone_eq_false_iff] at hnamed
  exact Option.isSome_iff_exists.1 hnamed

/-! ## Looking up -/

theorem mem_of_lookup {key : String} {s : RuleSection} {sections : List (String × RuleSection)}
    (h : sections.lookup key = some s) : key ∈ sections.map (·.1) := by
  obtain ⟨before, after, hsections, -⟩ := List.lookup_eq_some_iff.1 h
  rw [hsections]
  simp

theorem lookup_eq_none {c : Config} {key other : String} {r : Rule} (honly : c.IsOnlyKey key r)
    (hother : ruleOfKey? other = some r) (hne : key ≠ other) : c.sections.lookup other = none := by
  cases hlookup : c.sections.lookup other with
  | none => rfl
  | some s => exact absurd (honly other (mem_of_lookup hlookup) hother).symm hne

theorem section?_eq (c : Config) (r : Rule) :
    c.section? r = (c.sections.lookup r.name).or (c.sections.lookup r.code) := by
  rw [section?]
  cases c.sections.lookup r.name <;> rfl

/-- The section under the only key of a rule is the section of the rule if the key is the name or the code
as the catalog spells it. Otherwise the rule has none. -/
theorem section?_of_isOnlyKey {c : Config} {key : String} {r : Rule} {s : RuleSection}
    (honly : c.IsOnlyKey key r) (hkey : c.sections.lookup key = some s) :
    c.section? r = if key = r.name ∨ key = r.code then some s else none := by
  rw [section?_eq]
  split_ifs with hexact
  · rcases hexact with rfl | rfl
    · rw [hkey, Option.some_or]
    · by_cases hname : r.code = r.name
      · rw [← hname, hkey, Option.some_or]
      · rw [lookup_eq_none honly (ruleOfKey?_name r) hname, Option.none_or, hkey]
  · rw [not_or] at hexact
    rw [lookup_eq_none honly (ruleOfKey?_name r) hexact.1, lookup_eq_none honly (ruleOfKey?_code r) hexact.2,
      Option.none_or]

/-- Every section of an accepted configuration is for a rule. When it is the only one for the rule, it
decides about the rule, unless its key is the code in another letter case: then the rule is treated as if it
had no section. -/
theorem section?_of_ofText {text key : String} {c : Config} {s : RuleSection}
    (hc : ofText text = .ok c) (hkey : c.sections.lookup key = some s) :
    ∃ r, ruleOfKey? key = some r ∧ (key = r.name ∨ Text.sameUpToAsciiCase r.code key = true) ∧
      (c.IsOnlyKey key r →
        ((key = r.name ∨ key = r.code) → c.section? r = some s ∧
          c.isEnabled r = s.enabled?.getD (c.preset.includes r) ∧
          c.severity r = s.severity?.getD (c.preset.severity r) ∧ c.options r = s) ∧
        (¬ (key = r.name ∨ key = r.code) → c.section? r = none ∧
          c.isEnabled r = c.preset.includes r ∧ c.severity r = c.preset.severity r ∧
          c.options r = .empty)) := by
  obtain ⟨r, hr⟩ := exists_rule_of_ofText hc (mem_of_lookup hkey)
  refine ⟨r, hr, names_of_ruleOfKey? hr, fun honly => ⟨fun hexact => ?_, fun hexact => ?_⟩⟩
  · have hsection := section?_of_isOnlyKey honly hkey
    rw [if_pos hexact] at hsection
    simp only [isEnabled, severity, options, hsection, Option.bind_some, Option.getD_some, and_self]
  · have hsection := section?_of_isOnlyKey honly hkey
    rw [if_neg hexact] at hsection
    simp only [isEnabled, severity, options, hsection, Option.bind_none, Option.getD_none, and_self]

def tenLines : RuleSection :=
  ⟨some false, none, [("max_lines", .integer 10)]⟩

/-- Under the code as the catalog spells it, a section takes effect. -/
theorem section?_of_uppercase :
    ∃ c, ofText "[rules.GL017]\nenabled = false\nmax_lines = 10\n" = .ok c ∧
      c.sections.lookup "GL017" = some tenLines ∧ c.IsOnlyKey "GL017" .moduleSize ∧
      c.section? .moduleSize = some tenLines ∧ c.isEnabled .moduleSize = false := by
  have hc : ofText "[rules.GL017]\nenabled = false\nmax_lines = 10\n" =
      .ok ⟨.recommended, .default, [("GL017", tenLines)]⟩ := by
    cbv
  have honly : IsOnlyKey ⟨.recommended, .default, [("GL017", tenLines)]⟩ "GL017" .moduleSize := by
    intro other hother _
    exact List.mem_singleton.1 hother
  have hkey : [("GL017", tenLines)].lookup "GL017" = some tenLines := rfl
  obtain ⟨r, hr, -, heffect⟩ := section?_of_ofText hc hkey
  obtain rfl : r = .moduleSize := Option.some.inj (hr.symm.trans rfl)
  obtain ⟨hsection, henabled, -, -⟩ := (heffect honly).1 (.inr rfl)
  exact ⟨_, hc, hkey, honly, hsection, henabled⟩

/-- Under the code in lowercase, the same section is accepted and passed over. -/
theorem not_section?_of_lowercase :
    ¬ ∀ (text key : String) (c : Config) (s : RuleSection) (r : Rule), ofText text = .ok c →
      c.sections.lookup key = some s → ruleOfKey? key = some r → c.IsOnlyKey key r →
      c.section? r = some s := by
  intro h
  have hc : ofText "[rules.gl017]\nenabled = false\nmax_lines = 10\n" =
      .ok ⟨.recommended, .default, [("gl017", tenLines)]⟩ := by
    cbv
  have hsection := h _ "gl017" _ tenLines .moduleSize hc rfl rfl fun other hother _ =>
    List.mem_singleton.1 hother
  cases hsection

end Guardrails.Config
