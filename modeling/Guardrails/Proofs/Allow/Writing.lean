import Guardrails.Proofs.Allow.Markers
import Guardrails.Proofs.Rule.Tags

/-!
# Written directives

A directive put together from its parts: what stands in front of the comment, slashes, blanks around the keyword,
the form, a list of tags, and a reason. The line that this makes is read back into the directive it was made from.
-/

namespace Guardrails.AllowDirective

/-- What an item of the list of a directive stands for. -/
inductive Tag
  | all
  | rule (r : Rule)
  deriving DecidableEq, Repr

/-- Whether a word is how a tag is written. Where no tag is meant there is no word. -/
inductive Tag.Spelled : Option Tag → String → Prop
  | nothing : Spelled none ""
  | all : Spelled (some .all) "all"
  | rule {r : Rule} {word : String} (h : r.Spelled word) : Spelled (some (.rule r)) word

/-- An item of the list of a directive: a tag, which may be missing, and the blanks around it. -/
structure Item where
  tag? : Option Tag
  word : String
  spelled : Tag.Spelled tag? word
  before : List Char
  isBlank_before : before.all Text.isBlank = true
  after : List Char
  isBlank_after : after.all Text.isBlank = true

def Item.text (item : Item) : List Char :=
  item.before ++ item.word.toList ++ item.after

def opening : AllowScope → String
  | .line => "allow("
  | .file => "allow-file("

/-- A directive as somebody writes it, with at least one tag in its list. -/
structure Writing where
  /-- What stands in front of the comment. -/
  front : List Char
  not_comment_front : ¬ "//".toList <:+: front
  /-- How many slashes there are beyond two. -/
  slashes : Nat
  /-- The blanks in front of the keyword. -/
  gap : List Char
  isBlank_gap : gap.all Text.isBlank = true
  /-- The blanks behind the keyword. -/
  inset : List Char
  isBlank_inset : inset.all Text.isBlank = true
  scope : AllowScope
  items : List Item
  exists_tag : ∃ item ∈ items, item.tag? ≠ none

namespace Writing

def list (w : Writing) : List Char :=
  List.intercalate [','] (w.items.map Item.text)

def body (w : Writing) : List Char :=
  (opening w.scope).toList ++ (w.list ++ [')'])

/-- The line up to the closing parenthesis. -/
def text (w : Writing) : List Char :=
  w.front ++ ("//".toList ++ (List.replicate w.slashes '/' ++ (w.gap ++ ("guardlint:".toList ++ (w.inset ++ w.body)))))

def Lists (w : Writing) (tag : Tag) : Prop :=
  some tag ∈ w.items.map Item.tag?

instance (w : Writing) (tag : Tag) : Decidable (w.Lists tag) :=
  inferInstanceAs (Decidable (some tag ∈ w.items.map Item.tag?))

end Writing

/-- A reason in quotes, as it stands behind the list. -/
def quoted (reason : List Char) : List Char :=
  ' ' :: ("reason=".toList ++ '"' :: (reason ++ ['"']))

/-! ## The keyword -/

theorem body?_of_bodyHere? {text body : List Char} (h : bodyHere? text = some body) : body? text = some body := by
  cases text with
  | nil => cases h
  | cons c rest => rw [body?, h, Option.orElse_eq_orElse, Option.orElse_some]

theorem body?_cons_of_not_prefix {c : Char} {rest : List Char} (h : ¬ "//".toList <+: c :: rest) :
    body? (c :: rest) = body? rest := by
  have hhere : bodyHere? (c :: rest) = none := by
    rw [bodyHere?, Text.afterStart?, if_neg (mt List.isPrefixOf_iff_prefix.1 h)]
    rfl
  rw [body?, hhere, Option.orElse_eq_orElse, Option.orElse_none]

/-- The keyword is found behind a text that has no comment in it. That text may end in a slash, and then the comment
starts with this slash already. -/
theorem body?_append {front blanks : List Char} (hfront : ¬ "//".toList <:+: front) (slashes : Nat)
    (hblanks : ∀ c ∈ blanks, Text.isBlank c = true) (rest : List Char) :
    body? (front ++ ("//".toList ++ (List.replicate slashes '/' ++ (blanks ++ ("guardlint:".toList ++ rest))))) =
      some (Text.trimLeft rest) := by
  have hmarks : "//".toList = ['/', '/'] := rfl
  have hhere (n : Nat) := body?_of_bodyHere?
    (bodyHere?_append (fun _ => List.eq_of_mem_replicate (n := n)) hblanks rest)
  induction front with
  | nil => exact hhere slashes
  | cons c front ih =>
    have ih := ih fun hinside => hfront (hinside.trans (List.suffix_cons c front).isInfix)
    cases front with
    | nil =>
      by_cases hc : c = '/'
      · rw [hc]
        exact hhere (slashes + 1)
      · rw [List.cons_append, body?_cons_of_not_prefix, ih]
        rw [hmarks, List.cons_prefix_cons]
        exact fun hprefix => hc hprefix.1.symm
    | cons d front =>
      rw [List.cons_append, body?_cons_of_not_prefix, ih]
      rw [hmarks, List.cons_append, List.cons_prefix_cons, List.cons_prefix_cons]
      rintro ⟨rfl, rfl, -⟩
      exact hfront (List.prefix_append ['/', '/'] front).isInfix

/-! ## The form -/

theorem scope?_append (scope : AllowScope) (rest : List Char) :
    scope? ((opening scope).toList ++ rest) = some (scope, rest) := by
  cases scope with
  | line =>
    have hother : Text.afterStart? "allow-file(".toList ((opening .line).toList ++ rest) = none :=
      if_neg (by simp [opening])
    rw [scope?, hother, opening, Text.afterStart?_append]
    rfl
  | file =>
    rw [scope?, opening, Text.afterStart?_append]
    rfl

/-! ## The list -/

variable {tag? : Option Tag} {word : String}

theorem Tag.Spelled.char (h : Tag.Spelled tag? word) : ∀ c ∈ word.toList, Rule.isTagChar c = true := by
  cases h with
  | nothing => exact fun c hc => absurd hc List.not_mem_nil
  | all => exact List.all_eq_true.1 rfl
  | rule h =>
    obtain ⟨key, hkey, hlower⟩ := h.exists_key
    exact fun c hc => (Rule.char_of_key hkey hlower c hc).2

theorem Tag.Spelled.isAll_iff (h : Tag.Spelled tag? word) : isAll word = true ↔ tag? = some .all := by
  cases h with
  | nothing => decide
  | all => decide
  | rule h =>
    obtain ⟨key, hkey, hlower⟩ := h.exists_key
    refine iff_of_false (fun hall => Rule.ne_all_of_mem_keys hkey ?_) nofun
    rw [isAll, Text.sameUpToAsciiCase, beq_iff_eq, hlower] at hall
    exact String.toList_inj.1 hall

theorem Tag.Spelled.ofTag?_iff (h : Tag.Spelled tag? word) (r : Rule) :
    (word.isEmpty = false ∧ isAll word = false ∧ Rule.ofTag? word = some r) ↔ tag? = some (.rule r) := by
  have hall := h.isAll_iff
  cases h with
  | nothing => exact iff_of_false (fun h => absurd h.1 (by decide)) nofun
  | all => exact iff_of_false (fun h => absurd h.2.1 (by decide)) nofun
  | @rule r' word h =>
    obtain ⟨key, hkey, hlower⟩ := h.exists_key
    have hempty : word.isEmpty = false := by
      rw [← Bool.not_eq_true, String.isEmpty_iff]
      rintro rfl
      exact Rule.ne_empty_of_mem_keys hkey (String.toList_inj.1 hlower.symm)
    have hother : isAll word = false := by
      rw [← Bool.not_eq_true, hall]
      exact nofun
    rw [Rule.ofTag?_of_key hkey hlower, hempty, hother]
    simp

namespace Item

theorem char_of_mem_text {item : Item} {c : Char} (h : c ∈ item.text) : c ≠ ',' ∧ c ≠ ')' := by
  have hblank (hc : Text.isBlank c = true) : c ≠ ',' ∧ c ≠ ')' := by
    constructor <;> rintro rfl <;> exact absurd hc (by decide)
  rcases List.mem_append.1 h with h | h
  · rcases List.mem_append.1 h with h | h
    · exact hblank (List.all_eq_true.1 item.isBlank_before c h)
    · exact (Rule.isTagChar_iff.1 (item.spelled.char c h)).2
  · exact hblank (List.all_eq_true.1 item.isBlank_after c h)

theorem trimChars_text (item : Item) : Text.trimChars item.text = item.word.toList :=
  Text.trimChars_between (List.all_eq_true.1 item.isBlank_before)
    (fun c hc => (Rule.isTagChar_iff.1 (item.spelled.char c hc)).1) (List.all_eq_true.1 item.isBlank_after)

end Item

namespace Writing

variable (w : Writing)

theorem items_ne_nil : w.items.map Item.text ≠ [] := by
  obtain ⟨item, hitem, -⟩ := w.exists_tag
  exact List.ne_nil_of_mem (List.mem_map_of_mem hitem)

theorem parenthesis_not_mem_list : ')' ∉ w.list := by
  intro hmem
  rw [list, List.intercalate, List.mem_flatten] at hmem
  obtain ⟨piece, hpiece, hmem⟩ := hmem
  rcases mem_intersperse hpiece with rfl | hpiece
  · exact absurd hmem (by decide)
  · obtain ⟨item, -, rfl⟩ := List.mem_map.1 hpiece
    exact (Item.char_of_mem_text hmem).2 rfl

theorem tagsOf_list : tagsOf w.list = (w.items.map Item.word).filter (!·.isEmpty) := by
  have hsplit : Text.splitChars ',' w.list = w.items.map Item.text := by
    refine Text.splitChars_intercalate w.items_ne_nil fun piece hpiece hmem => ?_
    obtain ⟨item, -, rfl⟩ := List.mem_map.1 hpiece
    exact (Item.char_of_mem_text hmem).1 rfl
  rw [tagsOf, hsplit, List.map_map]
  congr 2
  funext item
  rw [Function.comp_apply, Item.trimChars_text, String.ofList_toList]

theorem mem_rulesOf_list (r : Rule) : r ∈ rulesOf (tagsOf w.list) ↔ w.Lists (.rule r) := by
  rw [rulesOf, List.mem_eraseDups, List.mem_filterMap, tagsOf_list, Lists, List.mem_map]
  constructor
  · rintro ⟨word, hword, hr⟩
    obtain ⟨hword, hother⟩ := List.mem_filter.1 hword
    obtain ⟨hword, hempty⟩ := List.mem_filter.1 hword
    obtain ⟨item, hitem, rfl⟩ := List.mem_map.1 hword
    rw [Bool.not_eq_true'] at hother hempty
    exact ⟨item, hitem, (item.spelled.ofTag?_iff r).1 ⟨hempty, hother, hr⟩⟩
  · rintro ⟨item, hitem, htag⟩
    obtain ⟨hempty, hother, hr⟩ := (item.spelled.ofTag?_iff r).2 htag
    refine ⟨item.word, ?_, hr⟩
    rw [List.mem_filter, List.mem_filter, hempty, hother]
    exact ⟨⟨List.mem_map_of_mem hitem, rfl⟩, rfl⟩

theorem any_isAll_list : (tagsOf w.list).any isAll = decide (w.Lists .all) := by
  rw [tagsOf_list, Bool.eq_iff_iff, List.any_eq_true, decide_eq_true_iff, Lists, List.mem_map]
  constructor
  · rintro ⟨word, hword, hall⟩
    obtain ⟨item, hitem, rfl⟩ := List.mem_map.1 (List.mem_filter.1 hword).1
    exact ⟨item, hitem, item.spelled.isAll_iff.1 hall⟩
  · rintro ⟨item, hitem, htag⟩
    have hall := item.spelled.isAll_iff.2 htag
    refine ⟨item.word, List.mem_filter.2 ⟨List.mem_map_of_mem hitem, ?_⟩, hall⟩
    rw [Bool.not_eq_true', ← Bool.not_eq_true, String.isEmpty_iff]
    intro hempty
    rw [hempty] at hall
    exact absurd hall (by decide)

theorem not_allows_nothing : ((rulesOf (tagsOf w.list)).isEmpty && !decide (w.Lists .all)) = false := by
  obtain ⟨item, hitem, htag⟩ := w.exists_tag
  have hlists {tag : Tag} (h : item.tag? = some tag) : w.Lists tag := List.mem_map.2 ⟨item, hitem, h⟩
  cases h : item.tag? with
  | none => exact absurd h htag
  | some tag =>
    cases tag with
    | all => rw [decide_eq_true (hlists h), Bool.not_true, Bool.and_false]
    | rule r =>
      have hne := List.ne_nil_of_mem ((w.mem_rulesOf_list r).2 (hlists h))
      rw [List.isEmpty_eq_false_iff.2 hne, Bool.false_and]

end Writing

/-! ## The reason -/

theorem reasonOf?_nil : reasonOf? [] = none :=
  rfl

theorem trimChars_quoted {reason more : List Char} :
    Text.trimChars ('"' :: (reason ++ '"' :: more)) = '"' :: (reason ++ '"' :: Text.trimRight more) := by
  have hquote : Text.isBlank '"' = false := rfl
  rw [Text.trimChars, Text.trimLeft_cons hquote, ← List.cons_append, Text.trimRight_append_cons hquote,
    List.cons_append]

theorem reasonOf?_quoted {reason : List Char} (hquote : '"' ∉ reason) (hreason : Text.trimChars reason ≠ [])
    (more : List Char) : reasonOf? (quoted reason ++ more) = some (String.ofList (Text.trimChars reason)) := by
  have htail : Text.trimChars (quoted reason ++ more) =
      "reason=".toList ++ '"' :: (reason ++ '"' :: Text.trimRight more) := by
    have hword : quoted reason ++ more = [' '] ++ (("reason=".toList ++ '"' :: reason) ++ '"' :: more) := by
      simp only [quoted, List.append_assoc, List.cons_append, List.nil_append]
    have hleft : Text.trimLeft (("reason=".toList ++ '"' :: reason) ++ '"' :: more) =
        ("reason=".toList ++ '"' :: reason) ++ '"' :: more := Text.trimLeft_cons rfl
    rw [Text.trimChars, hword, Text.trimLeft_append (List.all_eq_true.1 rfl), hleft, Text.trimRight_append_cons (by decide),
      List.append_assoc, List.cons_append]
  have hopen : Text.afterStart? ['"'] ('"' :: (reason ++ '"' :: Text.trimRight (Text.trimRight more))) =
      some (reason ++ '"' :: Text.trimRight (Text.trimRight more)) := Text.afterStart?_append ['"'] _
  have hsome : (Text.trimChars reason).isEmpty = false := List.isEmpty_eq_false_iff.2 hreason
  rw [reasonOf?, htail, Text.afterStart?_append]
  simp only [Option.bind_eq_bind, Option.bind_some, trimChars_quoted, hopen, Text.cutFirst?_append hquote, hsome]
  rfl

/-! ## The whole line -/

namespace Writing

variable (w : Writing)

theorem ofLine?_append (tail : List Char) (line : Nat) :
    ofLine? (String.ofList (w.text ++ tail)) line =
      some ⟨w.scope, rulesOf (tagsOf w.list), decide (w.Lists .all), reasonOf? tail, line⟩ := by
  have hbody : body? (w.text ++ tail) = some ((opening w.scope).toList ++ (w.list ++ ')' :: tail)) := by
    have hword : Text.trimLeft (w.inset ++ (w.body ++ tail)) = w.body ++ tail := by
      rw [Text.trimLeft_append (List.all_eq_true.1 w.isBlank_inset), body]
      cases w.scope <;> rfl
    simp only [text, List.append_assoc]
    rw [body?_append w.not_comment_front w.slashes (List.all_eq_true.1 w.isBlank_gap), hword, body]
    simp only [List.append_assoc, List.singleton_append]
  rw [ofLine?, String.toList_ofList, hbody]
  simp only [Option.bind_eq_bind, Option.bind_some, scope?_append, Text.cutFirst?_append w.parenthesis_not_mem_list,
    any_isAll_list, not_allows_nothing]
  rfl

/-- A directive that is written out is read back: its form, just the rules in its list, whether all are listed, the
reason if there is one, and the line. -/
theorem ofLine?_text (line : Nat) {reason : List Char} (hquote : '"' ∉ reason) (hreason : Text.trimChars reason ≠ [])
    (more : List Char) :
    ∃ rules : List Rule, (∀ r, r ∈ rules ↔ w.Lists (.rule r)) ∧
      ofLine? (String.ofList (w.text ++ (quoted reason ++ more))) line =
        some ⟨w.scope, rules, decide (w.Lists .all), some (String.ofList (Text.trimChars reason)), line⟩ ∧
      ofLine? (String.ofList w.text) line = some ⟨w.scope, rules, decide (w.Lists .all), none, line⟩ := by
  refine ⟨rulesOf (tagsOf w.list), w.mem_rulesOf_list, ?_, ?_⟩
  · rw [ofLine?_append, reasonOf?_quoted hquote hreason]
  · have hnothing := w.ofLine?_append [] line
    rwa [List.append_nil, reasonOf?_nil] at hnothing

/-- A code in small letters, an empty item, a number and a name, behind a division and four slashes. -/
def behindDivision : Writing where
  front := "a = b / 2 /".toList
  not_comment_front := by decide +kernel
  slashes := 1
  gap := []
  isBlank_gap := rfl
  inset := [' ']
  isBlank_inset := rfl
  scope := .file
  items := [
    ⟨some (.rule .noGlobalAccess), "gl002", .rule (.code (by decide)), [' '], rfl, [], rfl⟩,
    ⟨none, "", .nothing, [' ', '\t'], rfl, [], rfl⟩,
    ⟨some (.rule .listenerCleanup), toString Rule.listenerCleanup.number, .rule .number, [], rfl, [' '], rfl⟩,
    ⟨some (.rule .moduleSize), Rule.moduleSize.name, .rule .name, [], rfl, [], rfl⟩]
  exists_tag := ⟨_, List.mem_cons_self, nofun⟩

theorem ofLine?_text_behindDivision :
    '"' ∉ " old ".toList ∧ Text.trimChars " old ".toList ≠ [] ∧
    ∃ rules : List Rule, (∀ r, r ∈ rules ↔ behindDivision.Lists (.rule r)) ∧
      ofLine? (String.ofList (behindDivision.text ++ (quoted " old ".toList ++ ['"']))) 7 =
        some ⟨behindDivision.scope, rules, decide (behindDivision.Lists .all),
          some (String.ofList (Text.trimChars " old ".toList)), 7⟩ ∧
      ofLine? (String.ofList behindDivision.text) 7 =
        some ⟨behindDivision.scope, rules, decide (behindDivision.Lists .all), none, 7⟩ :=
  ⟨by decide, by decide, behindDivision.ofLine?_text 7 (by decide) (by decide) ['"']⟩

end Writing

end Guardrails.AllowDirective
