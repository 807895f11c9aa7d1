import Mathlib.Data.List.Nodup
import Guardrails.Report.Encoding

/-!
# Reading reports back

What is written as JSON is read back as it was. Every record is written as an object with its fields under
different keys, so that each field is found again under its own.
-/

namespace Guardrails

/-! ## Fields of an object -/

namespace Json

theorem record?_object {fields : List String} {missing : Nat} {entries : List (String × Json)}
    (h : (entries.map (·.1)).Nodup) : (object entries).record? fields missing = some entries := by
  have hone : ∀ field, ¬ entries.countP (·.1 == field) > 1 := by
    intro field
    have hcount := List.nodup_iff_count_le_one.1 h field
    rw [List.count_eq_countP, List.countP_map] at hcount
    exact Nat.not_lt.2 hcount
  simp [record?, hone]

@[simp] theorem natural?_natural (n : Nat) : (natural n).natural? = some n := rfl

@[simp] theorem string?_string (text : String) : (string text).string? = some text := rfl

section

variable {α : Type} {of? : Json → Option α} {key field : String} {j : Json} {rest : List (String × Json)}

@[simp] theorem field?_self : field? ((field, j) :: rest) field of? = of? j := by
  simp [field?]

@[simp] theorem field?_of_ne (h : field ≠ key) :
    field? ((key, j) :: rest) field of? = field? rest field of? := by
  rw [field?, field?, List.lookup_cons, beq_false_of_ne h]

@[simp] theorem optional?_nil : optional? [] field of? = some none := rfl

@[simp] theorem optional?_of_ne (h : field ≠ key) :
    optional? ((key, j) :: rest) field of? = optional? rest field of? := by
  rw [optional?, optional?, List.lookup_cons, beq_false_of_ne h]

theorem optional?_null : optional? ((field, null) :: rest) field of? = some none := by
  simp [optional?]

theorem optional?_self (h : j ≠ null) : optional? ((field, j) :: rest) field of? = (of? j).map some := by
  unfold optional?
  rw [List.lookup_cons_self]
  split
  · contradiction
  · rename_i heq
    exact absurd (Option.some.inj heq) h
  · rename_i heq
    rw [Option.some.inj heq]

end

section

variable {α : Type} {of? : Json → Option α} {toJson : α → Json} (h : ∀ a, of? (toJson a) = some a)
include h

theorem optional?_ofOption (hnull : ∀ a, toJson a ≠ null) (field : String) (a? : Option α)
    (rest : List (String × Json)) :
    optional? ((field, ofOption toJson a?) :: rest) field of? = some a? := by
  cases a? with
  | none => exact optional?_null
  | some a => rw [ofOption, optional?_self (hnull a), h, Option.map_some]

theorem list?_map (as : List α) : (array (as.map toJson)).list? of? = some as := by
  unfold list?
  induction as with
  | nil => rfl
  | cons a as ih => simp_all

end

@[simp] theorem optional?_natural (field : String) (n? : Option Nat) (rest : List (String × Json)) :
    optional? ((field, ofOption natural n?) :: rest) field (·.natural?) = some n? :=
  optional?_ofOption natural?_natural (fun _ => Json.noConfusion) field n? rest

@[simp] theorem optional?_string (field : String) (text? : Option String) (rest : List (String × Json)) :
    optional? ((field, ofOption string text?) :: rest) field (·.string?) = some text? :=
  optional?_ofOption string?_string (fun _ => Json.noConfusion) field text? rest

end Json

open Json

/-! ## Records -/

@[simp] theorem Path.ofJson?_toJson (p : Path) : Path.ofJson? p.toJson = some p := rfl

@[simp] theorem Severity.ofJson?_name (s : Severity) : Severity.ofJson? (.string s.name) = some s := by
  simp [ofJson?, choice?]

@[simp] theorem Rule.ofJson?_number (r : Rule) : Rule.ofJson? (.natural r.number) = some r := by
  simp [ofJson?]

@[simp] theorem Location.ofJson?_toJson (l : Location) : Location.ofJson? l.toJson = some l := by
  rw [toJson, ofJson?, record?_object (by simp)]
  simp

theorem suggestionOfJson?_suggestionToJson (message : String) :
    suggestionOfJson? (suggestionToJson message) = some message := by
  rw [suggestionToJson, suggestionOfJson?, record?_object (by simp)]
  simp

@[simp] theorem optional?_suggestion (field : String) (message? : Option String) (rest : List (String × Json)) :
    optional? ((field, ofOption suggestionToJson message?) :: rest) field suggestionOfJson? = some message? :=
  optional?_ofOption suggestionOfJson?_suggestionToJson (fun _ => Json.noConfusion) field message? rest

theorem Violation.ofJson?_toJson (v : Violation) : Violation.ofJson? v.toJson = some v := by
  obtain ⟨rule, code, name, severity, location, message, suggestion?, sourceLine?⟩ := v
  cases sourceLine? with
  | none =>
    rw [toJson, ofJson?, record?_object (by simp)]
    simp
  | some line =>
    rw [toJson, ofJson?, record?_object (by simp)]
    simp [optional?_self]

theorem ParseFailure.ofJson?_toJson (f : ParseFailure) : ParseFailure.ofJson? f.toJson = some f := by
  rw [toJson, ofJson?, record?_object (by simp)]
  simp

theorem Fault.ofJson?_toJson (f : Fault) : Fault.ofJson? f.toJson = some f := by
  rw [toJson, ofJson?, record?_object (by simp)]
  simp

/-! ## Reports -/

namespace Report

theorem ofJson?_toJson (r : Report) : ofJson? r.toJson = some r := by
  rw [toJson, ofJson?, record?_object (by simp)]
  simp [list?_map, Violation.ofJson?_toJson, ParseFailure.ofJson?_toJson, Fault.ofJson?_toJson]

/-- A report is read back from its JSON form as it was, and whatever JSON value a report was read from, writing
and reading it again gives the same report. -/
theorem roundTrip_json : (∀ r : Report, ofJson? r.toJson = some r) ∧
    ∀ j, (ofJson? j).bind (fun r => ofJson? r.toJson) = ofJson? j := by
  refine ⟨ofJson?_toJson, fun j => ?_⟩
  cases ofJson? j with
  | none => rfl
  | some r => exact ofJson?_toJson r

end Report
end Guardrails
