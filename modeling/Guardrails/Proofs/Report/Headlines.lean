import Mathlib.Data.List.TakeWhile
import Guardrails.Proofs.Text.Lines
import Guardrails.Report.Encoding

/-!
# Lines of findings

The line that a finding is shown by tells its place, its severity and its message, and so does the one in the compact
text with the file and the code besides. In the full text these lines are the ones that are indented by four blanks.
-/

namespace Guardrails

/-! ## Places -/

namespace Location

variable {l m : Location}

theorem toList_position_of_line {line : Nat} (h : l.line? = some line) :
    l.position.toList = (toString line).toList ++ ':' :: (toString l.column).toList := by
  have hposition : l.position = toString line ++ ":" ++ toString l.column := by
    unfold position
    rw [h]
    rfl
  rw [hposition, String.toList_append, String.toList_append, List.append_assoc]
  rfl

theorem position_of_file (h : l.line? = none) : l.position = "file" := by
  unfold position
  rw [h]

theorem blank_not_mem_position (l : Location) : ' ' ∉ l.position.toList := by
  cases h : l.line? with
  | none =>
    rw [position_of_file h]
    decide
  | some line =>
    rw [toList_position_of_line h, List.mem_append, List.mem_cons, not_or, not_or]
    exact ⟨not_mem_toList_toString rfl line, by decide, not_mem_toList_toString rfl l.column⟩

/-- Whether two places are on one line and column of their files, or both are the file as a whole. -/
def IsAt (l m : Location) : Prop :=
  l.line? = m.line? ∧ (l.line?.isSome = true → l.column = m.column)

theorem position_eq_iff : l.position = m.position ↔ l.IsAt m := by
  have hcolon (n : Nat) : ':' ∉ (toString n).toList := not_mem_toList_toString rfl n
  have hfile : ':' ∉ "file".toList := by decide
  unfold IsAt
  rw [← String.toList_inj]
  cases hl : l.line? with
  | none =>
    cases hm : m.line? with
    | none => simp [position_of_file hl, position_of_file hm]
    | some line =>
      rw [position_of_file hl, toList_position_of_line hm]
      refine iff_of_false (fun h => hfile ?_) (by simp)
      rw [h]
      exact List.mem_append_right _ List.mem_cons_self
  | some line =>
    cases hm : m.line? with
    | none =>
      rw [position_of_file hm, toList_position_of_line hl]
      refine iff_of_false (fun h => hfile ?_) (by simp)
      rw [← h]
      exact List.mem_append_right _ List.mem_cons_self
    | some line' =>
      rw [toList_position_of_line hl, toList_position_of_line hm, Text.append_cons_inj (hcolon _) (hcolon _),
        toList_toString_inj, toList_toString_inj]
      simp

end Location

theorem Severity.not_mem_paint {c : Char} (hc : c = ' ' ∨ c = ':') (color : Bool) (s : Severity) :
    c ∉ (s.paint color).toList := by
  rcases hc with rfl | rfl <;> cases color <;> cases s <;> decide

theorem Severity.paint_inj {color : Bool} {s t : Severity} : s.paint color = t.paint color ↔ s = t := by
  cases color <;> cases s <;> cases t <;> decide

/-! ## What lines tell -/

/-- Whether two violations are in places of one name, of one severity, and with one message. -/
structure Violation.IsToldAs (v w : Violation) : Prop where
  place : v.location.IsAt w.location
  severity : v.severity = w.severity
  message : v.message = w.message

namespace Report

variable {v w : Violation} {color : Bool}

theorem toList_headline (color : Bool) (v : Violation) : (headline color v).toList =
    "    ".toList ++ (v.location.position.toList ++ ' ' ::
      ((v.severity.paint color).toList ++ ':' :: ' ' :: v.message.toList)) := by
  have hheadline : headline color v =
      "    " ++ v.location.position ++ " " ++ v.severity.paint color ++ ": " ++ v.message := rfl
  rw [hheadline]
  simp only [String.toList_append, List.append_assoc]
  rfl

theorem headline_eq_iff : headline color v = headline color w ↔ v.IsToldAs w := by
  rw [← String.toList_inj, toList_headline, toList_headline, List.append_right_inj,
    Text.append_cons_inj v.location.blank_not_mem_position w.location.blank_not_mem_position,
    Text.append_cons_inj (Severity.not_mem_paint (.inr rfl) color _) (Severity.not_mem_paint (.inr rfl) color _),
    String.toList_inj, String.toList_inj, Location.position_eq_iff, Severity.paint_inj, List.cons_inj_right,
    String.toList_inj]
  exact ⟨fun ⟨hplace, hseverity, hmessage⟩ => ⟨hplace, hseverity, hmessage⟩,
    fun h => ⟨h.place, h.severity, h.message⟩⟩

/-! ## Indentation -/

/-- The number of blanks that a line begins with. -/
def indent (line : String) : Nat :=
  (line.toList.takeWhile (· == ' ')).length

/-- The lines of a text that violations are shown by. -/
def headlinesIn (text : String) : List String :=
  (Text.split '\n' text).filter (indent · == 4)

theorem indent_append {front : String} (h : front.toList.any (· != ' ') = true) (behind : String) :
    indent (front ++ behind) = indent front := by
  unfold indent
  rw [String.toList_append, List.takeWhile_append, if_neg]
  intro hlength
  have hall := (List.takeWhile_prefix _).eq_of_length hlength
  obtain ⟨c, hc, hother⟩ := List.any_eq_true.1 h
  rw [← hall] at hc
  have hblank := List.mem_takeWhile_imp hc
  exact bne_iff_ne.1 hother (beq_iff_eq.1 hblank)

theorem indent_headline (color : Bool) (v : Violation) : indent (headline color v) = 4 := by
  have hblank := v.location.blank_not_mem_position
  unfold indent
  rw [toList_headline, List.takeWhile_append_of_pos (List.all_eq_true.1 (by decide))]
  cases hposition : v.location.position.toList with
  | nil =>
    cases hline : v.location.line? with
    | none => simp [Location.position_of_file hline] at hposition
    | some line => simp [Location.toList_position_of_line hline] at hposition
  | cons c rest =>
    rw [hposition, List.mem_cons, not_or] at hblank
    rw [List.cons_append, List.takeWhile_cons_of_neg (by simpa using Ne.symm hblank.1)]
    rfl

theorem filter_violationLines (color : Bool) (v : Violation) :
    (violationLines color v).filter (indent · == 4) = [headline color v] := by
  have hsource (line : String) : indent ("      | " ++ line) = 6 := indent_append rfl line
  have hhelp (help : String) : indent ("      = help: " ++ help) = 6 := indent_append rfl help
  rw [violationLines, List.cons_append, List.filter_cons_of_pos (by simp [indent_headline]), List.cons_inj_right,
    List.filter_eq_nil_iff]
  intro line hline
  rcases List.mem_append.1 hline with hline | hline
  · obtain ⟨text, -, rfl⟩ := List.mem_map.1 hline
    simp [hsource]
  · obtain ⟨text, -, rfl⟩ := List.mem_map.1 hline
    simp [hhelp]

theorem indent_ruleHeading (r : Rule) (count : Nat) : indent s!"  {r.code} {r.name} ({count})" = 2 := by
  have hheading : s!"  {r.code} {r.name} ({count})" =
      "  " ++ r.code ++ (" " ++ r.name ++ " (" ++ toString count ++ ")") := by
    simp only [String.append_assoc]
    rfl
  have hcode : ("  " ++ r.code).toList.any (· != ' ') = true ∧ indent ("  " ++ r.code) = 2 := by
    cases r <;> decide
  rw [hheading, indent_append hcode.1, hcode.2]

theorem indent_paint_append (color : Bool) (s : Severity) (text : String) : indent (s.paint color ++ text) = 0 := by
  have hpaint : (s.paint color).toList.any (· != ' ') = true ∧ indent (s.paint color) = 0 := by
    cases color <;> cases s <;> decide
  rw [indent_append hpaint.1, hpaint.2]

end Report

/-! ## Lines of the compact text -/

/-- What stands between the name of the file and the severity. -/
def Location.mark (l : Location) : List Char :=
  if l.line?.isSome then ':' :: l.position.toList else []

theorem Location.mark_eq_iff {l m : Location} : l.mark = m.mark ↔ l.IsAt m := by
  unfold mark
  cases hl : l.line? with
  | none => cases hm : m.line? <;> simp [IsAt, hl, hm]
  | some line =>
    cases hm : m.line? with
    | none => simp [IsAt, hl, hm]
    | some line' => simp [String.toList_inj, position_eq_iff]

theorem Location.toList_display (l : Location) : l.display.toList = l.file.spelling.toList ++ l.mark := by
  unfold display mark
  cases hl : l.line? with
  | none => exact (List.append_nil _).symm
  | some line =>
    have hdisplay : s!"{l.file.spelling}:{line}:{l.column}" =
        l.file.spelling ++ ":" ++ toString line ++ ":" ++ toString l.column := rfl
    rw [Option.isSome_some, if_pos rfl, toList_position_of_line hl]
    simp only [hdisplay, String.toList_append, List.append_assoc]
    rfl

namespace Violation

variable {v w : Violation}

theorem toList_display (v : Violation) : v.display.toList = v.location.file.spelling.toList ++
    ((v.location.mark ++ [':']) ++ ' ' :: (v.severity.name.toList ++ ' ' ::
      ('[' :: v.code.toList ++ (']' :: ' ' :: v.message.toList)))) := by
  have hdisplay : v.display =
      v.location.display ++ ": " ++ v.severity.name ++ " [" ++ v.code ++ "] " ++ v.message := rfl
  simp only [hdisplay, String.toList_append, Location.toList_display, List.append_assoc]
  rfl

theorem display_eq_iff (hfile : v.location.file.spelling = w.location.file.spelling)
    (hcode : v.code.toList.length = w.code.toList.length) :
    v.display = w.display ↔ v.code = w.code ∧ v.IsToldAs w := by
  have hmark (u : Violation) : ' ' ∉ u.location.mark ++ [':'] := by
    unfold Location.mark
    split <;> simp [Location.blank_not_mem_position]
  have hname (u : Violation) : ' ' ∉ u.severity.name.toList := by
    cases u.severity <;> decide
  have hnames : v.severity.name.toList = w.severity.name.toList ↔ v.severity = w.severity := by
    cases v.severity <;> cases w.severity <;> decide
  rw [← String.toList_inj, toList_display, toList_display, hfile, List.append_right_inj,
    Text.append_cons_inj (hmark v) (hmark w), Text.append_cons_inj (hname v) (hname w), List.append_left_inj,
    Location.mark_eq_iff, hnames, List.cons_append, List.cons_append, List.cons_inj_right]
  constructor
  · rintro ⟨hplace, hseverity, hrest⟩
    obtain ⟨hcodes, hmessages⟩ := List.append_inj hrest hcode
    refine ⟨String.toList_inj.1 hcodes, hplace, hseverity, String.toList_inj.1 ?_⟩
    exact (List.cons.inj (List.cons.inj hmessages).2).2
  · rintro ⟨hcodes, h⟩
    exact ⟨h.place, h.severity, by rw [hcodes, h.message]⟩

end Violation
end Guardrails
