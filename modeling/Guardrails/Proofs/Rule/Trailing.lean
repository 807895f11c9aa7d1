import Guardrails.Proofs.Rule.Respelling

/-!
# Tags at the end of messages

A message may end with a tag in parentheses. The tag is found again, whatever parentheses stand before it, and it
stands for what it stands for by itself.
-/

namespace Guardrails.Rule

variable {r : Rule} {tag : String}

/-- Whether a tag is spelled out, or is so behind the word `Rule`. -/
inductive Labelled (r : Rule) : String → Prop
  | plain {tag : String} (h : r.Spelled tag) : Labelled r tag
  | behindWord {tag : String} {blanks : List Char} (hblanks : ∀ c ∈ blanks, Text.isBlank c = true) (h : r.Spelled tag) :
    Labelled r ("Rule" ++ String.ofList blanks ++ tag)

/-! ## Tags by themselves -/

theorem Spelled.not_beginsWithWord (h : r.Spelled tag) : ¬ BeginsWithWord (Text.trimChars tag.toList) := by
  obtain ⟨key, hkey, htag⟩ := h.exists_key
  rw [BeginsWithWord, trimChars_of_key hkey htag, htag]
  exact not_rule_prefix_of_mem_keys hkey

theorem Spelled.ofTag?_eq_some (h : r.Spelled tag) : ofTag? tag = some r := by
  obtain ⟨key, hkey, htag⟩ := h.exists_key
  exact ofTag?_of_key hkey htag

theorem Labelled.ofTag?_eq_some (h : r.Labelled tag) : ofTag? tag = some r := by
  cases h with
  | plain h => exact h.ofTag?_eq_some
  | behindWord hblanks h =>
    rw [ofTag?_eq, normalizeTag_behind_word hblanks h.not_beginsWithWord, ← ofTag?_eq]
    exact h.ofTag?_eq_some

theorem parenthesis_not_mem_of_mem_keys {key : String} (h : key ∈ r.keys) : '(' ∉ key.toList := by
  revert key
  cases r <;> decide

theorem Spelled.parenthesis_not_mem (h : r.Spelled tag) : '(' ∉ tag.toList := by
  obtain ⟨key, hkey, htag⟩ := h.exists_key
  intro hmem
  apply parenthesis_not_mem_of_mem_keys hkey
  rw [← htag]
  exact List.mem_map_of_mem hmem

theorem Labelled.parenthesis_not_mem (h : r.Labelled tag) : '(' ∉ tag.toList := by
  cases h with
  | plain h => exact h.parenthesis_not_mem
  | @behindWord tag blanks hblanks h =>
    have hnone : '(' ∉ blanks := by
      intro hmem
      exact absurd (hblanks _ hmem) (by decide)
    simp [hnone, h.parenthesis_not_mem]

/-! ## Tags in messages -/

/-- The last closing parenthesis and the last opening one before it are those around the tag. -/
theorem ofMessage?_append {message suffix : String} (htag : '(' ∉ tag.toList) (hsuffix : ')' ∉ suffix.toList) :
    ofMessage? (message ++ "(" ++ tag ++ ")" ++ suffix) = ofTag? tag := by
  have hclose : (message ++ "(" ++ tag ++ ")" ++ suffix).toList =
      (message.toList ++ '(' :: tag.toList) ++ ')' :: suffix.toList := by simp
  rw [ofMessage?, hclose, Text.cutLast?_append hsuffix]
  simp only [Option.bind_eq_bind, Option.bind_some]
  rw [Text.cutLast?_append htag]
  simp only [Option.bind_some, String.ofList_toList]

theorem ofMessage?_eq_none {message : String}
    (h : ∀ before after, message.toList = before ++ ')' :: after → ')' ∉ after → '(' ∉ before) :
    ofMessage? message = none := by
  rw [ofMessage?]
  cases hclose : Text.cutLast? ')' message.toList with
  | none => rfl
  | some parts =>
    obtain ⟨before, after⟩ := parts
    obtain ⟨hmessage, hafter⟩ := Text.cutLast?_eq_some_iff.1 hclose
    have hopen := Text.cutLast?_eq_none_iff.2 (h before after hmessage hafter)
    simp only [Option.bind_eq_bind, Option.bind_some, hopen, Option.bind_none]

/-- From a message with a tag in parentheses and no closing parenthesis behind it, the rule of the tag is read: a
certain rule where the tag is its name, code or number, with or without the word `Rule` in front. Where no parenthesis
opens before the last one that closes, no rule is. -/
theorem ofMessage?_of_parenthesized :
    (∀ message tag suffix : String, '(' ∉ tag.toList → ')' ∉ suffix.toList →
        ofMessage? (message ++ "(" ++ tag ++ ")" ++ suffix) = ofTag? tag) ∧
      (∀ (r : Rule) (message tag suffix : String), r.Labelled tag → ')' ∉ suffix.toList →
        ofMessage? (message ++ "(" ++ tag ++ ")" ++ suffix) = some r) ∧
      ∀ message : String,
        (∀ before after, message.toList = before ++ ')' :: after → ')' ∉ after → '(' ∉ before) →
        ofMessage? message = none := by
  refine ⟨fun message tag suffix => ofMessage?_append, ?_, fun message => ofMessage?_eq_none⟩
  intro r message tag suffix htag hsuffix
  rw [ofMessage?_append htag.parenthesis_not_mem hsuffix, htag.ofTag?_eq_some]

/-- The parentheses of a call stand before the tag, and one is opened behind it. -/
theorem ofMessage?_behind_call :
    ofMessage? "createFoo(deps) writes markup (Rule gl007), see (docs" = some .sanitizeHtml ∧
      ofMessage? "createFoo[deps] writes markup), see (docs" = none := by
  have hlabelled : Labelled .sanitizeHtml ("Rule" ++ String.ofList [' '] ++ "gl007") :=
    .behindWord (List.forall_mem_singleton.2 rfl) (.code (by decide))
  have hmessage : "createFoo(deps) writes markup (Rule gl007), see (docs" =
      "createFoo(deps) writes markup " ++ "(" ++ ("Rule" ++ String.ofList [' '] ++ "gl007") ++ ")" ++
        ", see (docs" := by
    decide
  constructor
  · rw [hmessage]
    exact ofMessage?_of_parenthesized.2.1 _ _ _ _ hlabelled (by decide)
  · have hcut : Text.cutLast? ')' "createFoo[deps] writes markup), see (docs".toList =
        some ("createFoo[deps] writes markup".toList, ", see (docs".toList) := by decide
    refine ofMessage?_of_parenthesized.2.2 _ fun before after hmessage hafter => ?_
    rw [Text.cutLast?_eq_some_iff.2 ⟨hmessage, hafter⟩] at hcut
    cases hcut
    decide

end Guardrails.Rule
