import Guardrails.Checker.Walk
import Guardrails.Proofs.Lists

/-!
# Sweeps

Every part of a walk passes the lanes from the first to the last and calls some of their checkers. A sweep
is such a pass, given by what it does to one lane. Its laws say what holds of a whole pass when something
holds of each lane.
-/

namespace Guardrails

/-- What a pass does to one lane, and the call it makes there, if any. It is told the number of the lane and
how many violations the file has so far. -/
abbrev LaneStep := Nat → Nat → Lane → Lane × Option Call

/-- Whether the calls that a step makes carry the numbers it was told. -/
structure LaneStep.IsAccurate (step : LaneStep) : Prop where
  number : ∀ {i k lane call}, (step i k lane).2 = some call → call.number = i
  found : ∀ {i k lane call}, (step i k lane).2 = some call → call.found = k

/-- The lanes after a pass, and the calls of the pass in order. -/
def sweep (step : LaneStep) : Nat → Nat → List Lane → List Lane × List Call
  | _, _, [] => ([], [])
  | number, found, lane :: rest =>
    let one := step number found lane
    let others := sweep step (number + 1) (found + (one.2.toList.flatMap (·.reports)).length) rest
    (one.1 :: others.1, one.2.toList ++ others.2)

namespace Walk

def after (w : Walk) (lanes : List Lane) (calls : List Call) : Walk :=
  { w with
    lanes
    violations := w.violations ++ calls.flatMap (·.reports)
    faults := w.faults ++ calls.filterMap (·.fault?)
    calls := calls.reverse ++ w.calls }

def swept (step : LaneStep) (w : Walk) : Walk :=
  w.after (sweep step 0 w.violations.length w.lanes).1 (sweep step 0 w.violations.length w.lanes).2

/-- The calls that were made to one checker, the latest first. -/
def callsOf (w : Walk) (number : Nat) : List Call :=
  w.calls.filter (·.number == number)

@[simp] theorem lanes_after (w : Walk) (lanes : List Lane) (calls : List Call) :
    (w.after lanes calls).lanes = lanes := rfl

@[simp] theorem calls_after (w : Walk) (lanes : List Lane) (calls : List Call) :
    (w.after lanes calls).calls = calls.reverse ++ w.calls := rfl

@[simp] theorem depthLimited_after (w : Walk) (lanes : List Lane) (calls : List Call) :
    (w.after lanes calls).depthLimited = w.depthLimited := rfl

theorem after_nil (w : Walk) : w.after w.lanes [] = w := by
  simp [after]

theorem after_record (w : Walk) (call : Call) (lanes lanes' : List Lane) (calls : List Call) :
    ({ w.record call with lanes := lanes' } : Walk).after lanes calls =
      w.after lanes (call :: calls) := by
  obtain ⟨number, occasion, found, reports, answer?, fault?⟩ := call
  cases fault? <;> simp [after, record]

end Walk

/-! ## One lane -/

section

variable {step : LaneStep}

theorem length_sweep (number found : Nat) (lanes : List Lane) :
    (sweep step number found lanes).1.length = lanes.length := by
  induction lanes generalizing number found with
  | nil => rfl
  | cons lane rest ih => simp [sweep, ih]

theorem map_checker_sweep (h : ∀ i k lane, (step i k lane).1.checker = lane.checker)
    (number found : Nat) (lanes : List Lane) :
    (sweep step number found lanes).1.map (·.checker) = lanes.map (·.checker) := by
  induction lanes generalizing number found with
  | nil => rfl
  | cons lane rest ih => simp [sweep, ih, h]

theorem exists_of_mem_sweep {number found : Nat} {lanes : List Lane} {call : Call}
    (h : call ∈ (sweep step number found lanes).2) :
    ∃ i k lane, lanes[i]? = some lane ∧ (step (number + i) k lane).2 = some call := by
  induction lanes generalizing number found with
  | nil => simp [sweep] at h
  | cons lane rest ih =>
    rw [sweep, List.mem_append, Option.mem_toList] at h
    rcases h with h | h
    · exact ⟨0, found, lane, rfl, h⟩
    · obtain ⟨i, k, lane', hlane, hcall⟩ := ih h
      have hi : number + 1 + i = number + (i + 1) := by omega
      exact ⟨i + 1, k, lane', hlane, hi ▸ hcall⟩

theorem number_le_of_mem_sweep (hstep : LaneStep.IsAccurate step)
    {number found : Nat} {lanes : List Lane} {call : Call}
    (h : call ∈ (sweep step number found lanes).2) : number ≤ call.number := by
  obtain ⟨i, k, lane, -, hcall⟩ := exists_of_mem_sweep h
  rw [hstep.number hcall]
  exact Nat.le_add_right number i

/-- What a pass does to one lane is what its step does there. -/
theorem sweep_getElem? (hstep : LaneStep.IsAccurate step)
    (number found : Nat) (lanes : List Lane) {i : Nat} {lane : Lane} (h : lanes[i]? = some lane) :
    ∃ k, (sweep step number found lanes).1[i]? = some (step (number + i) k lane).1 ∧
      (sweep step number found lanes).2.filter (·.number == number + i) =
        (step (number + i) k lane).2.toList := by
  induction lanes generalizing number found i with
  | nil => simp at h
  | cons first rest ih =>
    cases i with
    | zero =>
      obtain rfl : first = lane := by simpa using h
      refine ⟨found, rfl, ?_⟩
      have hothers : ∀ call ∈ (sweep step (number + 1)
          (found + ((step number found first).2.toList.flatMap (·.reports)).length) rest).2,
          ¬ (call.number == number) = true := by
        intro call hcall
        have := number_le_of_mem_sweep hstep hcall
        simp only [beq_iff_eq]
        omega
      simp only [sweep, Nat.add_zero, List.filter_append, List.filter_eq_nil_iff.2 hothers,
        List.append_nil]
      rw [List.filter_eq_self]
      intro call hcall
      simpa using hstep.number (Option.mem_toList.1 hcall)
    | succ i =>
      rw [List.getElem?_cons_succ] at h
      obtain ⟨k, hlane, hcalls⟩ := ih (number + 1)
        (found + ((step number found first).2.toList.flatMap (·.reports)).length) h
      have hi : number + 1 + i = number + (i + 1) := by omega
      rw [hi] at hlane hcalls
      refine ⟨k, hlane, ?_⟩
      have hfirst : ∀ call ∈ (step number found first).2.toList,
          ¬ (call.number == number + (i + 1)) = true := by
        intro call hcall
        have := hstep.number (Option.mem_toList.1 hcall)
        simp only [beq_iff_eq]
        omega
      rw [sweep, List.filter_append, List.filter_eq_nil_iff.2 hfirst, List.nil_append, hcalls]

/-- A property of a lane and the calls of its checker that every step of a pass turns into another one. -/
theorem Walk.swept_lanes {P Q : Lane → List Call → Prop} {w : Walk} (hstep : LaneStep.IsAccurate step)
    (hlanes : ∀ i k lane calls, P lane calls →
      Q (step i k lane).1 ((step i k lane).2.toList ++ calls))
    (h : ∀ i lane, w.lanes[i]? = some lane → P lane (w.callsOf i)) :
    ∀ i lane, (w.swept step).lanes[i]? = some lane → Q lane ((w.swept step).callsOf i) := by
  intro i lane hlane
  have hlt : i < w.lanes.length := by
    have hlength : (sweep step 0 w.violations.length w.lanes).1.length = w.lanes.length :=
      length_sweep 0 _ _
    rw [← hlength]
    exact (List.getElem?_eq_some_iff.1 hlane).1
  obtain ⟨k, hafter, hcalls⟩ := sweep_getElem? hstep 0 w.violations.length w.lanes
    (List.getElem?_eq_getElem hlt)
  rw [Nat.zero_add] at hafter hcalls
  have hlane' : lane = (step i k w.lanes[i]).1 := by
    rw [swept, lanes_after, hafter] at hlane
    exact (Option.some.inj hlane).symm
  have hnew : (w.swept step).callsOf i = (step i k w.lanes[i]).2.toList ++ w.callsOf i := by
    rw [callsOf, swept, calls_after, List.filter_append, List.filter_reverse, hcalls, callsOf]
    cases (step i k w.lanes[i]).2 <;> rfl
  rw [hlane', hnew]
  exact hlanes i k _ _ (h i _ (List.getElem?_eq_getElem hlt))

/-! ## Whom a pass calls -/

theorem map_number_sweep {p : Nat → Bool} (hstep : LaneStep.IsAccurate step)
    (number found : Nat) (lanes : List Lane)
    (h : ∀ i lane, lanes[i]? = some lane → ∀ k, (step (number + i) k lane).2.isSome = p (number + i)) :
    (sweep step number found lanes).2.map (·.number) =
      (List.range' number lanes.length).filter p := by
  induction lanes generalizing number found with
  | nil => rfl
  | cons lane rest ih =>
    have hrest := ih (number + 1) (found + ((step number found lane).2.toList.flatMap (·.reports)).length)
      fun i lane hlane k => by
        have hi : number + 1 + i = number + (i + 1) := by omega
        rw [hi]
        exact h (i + 1) lane hlane k
    have hfirst : (step number found lane).2.toList.map (·.number) =
        if p number then [number] else [] := by
      have hp := h 0 lane rfl found
      rw [Nat.add_zero] at hp
      cases hcall : (step number found lane).2 with
      | none => simp [← hp, hcall]
      | some call => simp [← hp, hcall, hstep.number hcall]
    rw [sweep, List.map_append, hrest, hfirst, List.length_cons, List.range'_succ, List.filter_cons]
    split_ifs <;> rfl

end

/-! ## The calls on record -/

/-- Whether each call knows how many violations there were before it, the latest call being the first. -/
def Accounted : List Call → Prop
  | [] => True
  | call :: earlier => call.found = (earlier.reverse.flatMap (·.reports)).length ∧ Accounted earlier

namespace Walk

/-- Whether a walk holds what its calls have come to. -/
structure Recorded (w : Walk) : Prop where
  violations : w.violations = w.log.flatMap (·.reports)
  faults : w.faults = w.log.filterMap (·.fault?)
  found : Accounted w.calls
  number : ∀ call ∈ w.calls, call.number < w.lanes.length

theorem log_after (w : Walk) (lanes : List Lane) (calls : List Call) :
    (w.after lanes calls).log = w.log ++ calls := by
  simp [log]

theorem accounted_sweep {step : LaneStep} (hstep : LaneStep.IsAccurate step)
    (number : Nat) (lanes : List Lane) {calls : List Call} (h : Accounted calls) :
    Accounted ((sweep step number (calls.reverse.flatMap (·.reports)).length lanes).2.reverse ++ calls) := by
  induction lanes generalizing number calls with
  | nil => simpa [sweep] using h
  | cons lane rest ih =>
    rw [sweep]
    cases hcall : (step number (calls.reverse.flatMap (·.reports)).length lane).2 with
    | none => simpa using ih (number + 1) h
    | some call =>
      have hnext : Accounted (call :: calls) := ⟨hstep.found hcall, h⟩
      have := ih (number + 1) hnext
      simpa using this

theorem Recorded.swept {step : LaneStep} {w : Walk} (h : w.Recorded) (hstep : LaneStep.IsAccurate step) :
    (w.swept step).Recorded where
  violations := by
    rw [Walk.swept, log_after, List.flatMap_append, ← h.violations]
    rfl
  faults := by
    rw [Walk.swept, log_after, List.filterMap_append, ← h.faults]
    rfl
  found := by
    rw [Walk.swept, calls_after, h.violations]
    exact accounted_sweep hstep 0 w.lanes h.found
  number := by
    intro call hcall
    rw [Walk.swept, lanes_after, length_sweep]
    rw [Walk.swept, calls_after, List.mem_append, List.mem_reverse] at hcall
    rcases hcall with hcall | hcall
    · obtain ⟨i, k, lane, hlane, hcall⟩ := exists_of_mem_sweep hcall
      rw [hstep.number hcall, Nat.zero_add]
      exact (List.getElem?_eq_some_iff.1 hlane).1
    · exact h.number call hcall

end Walk

/-! ## Some of the lanes -/

/-- What a call adds to a report. -/
def Call.outcome (call : Call) : List Violation × Option Fault :=
  (call.reports, call.fault?)

/-- A pass over some of the lanes does there what the pass over all of them does, when the step at these
lanes does not hang on their numbers or on how many violations there are. -/
theorem sweep_select {step : LaneStep} {keep : Nat → Bool} (hstep : LaneStep.IsAccurate step)
    (number found number' found' : Nat) (lanes : List Lane)
    (hsame : ∀ lane ∈ select keep number lanes, ∀ i k j l, (step i k lane).1 = (step j l lane).1 ∧
      (step i k lane).2.map Call.outcome = (step j l lane).2.map Call.outcome) :
    (sweep step number' found' (select keep number lanes)).1 =
        select keep number (sweep step number found lanes).1 ∧
      (sweep step number' found' (select keep number lanes)).2.map Call.outcome =
        ((sweep step number found lanes).2.filter fun call => keep call.number).map Call.outcome := by
  induction lanes generalizing number found number' found' with
  | nil => exact ⟨rfl, rfl⟩
  | cons lane rest ih =>
    have hfirst : ∀ call ∈ (step number found lane).2.toList, keep call.number = keep number := by
      intro call hcall
      rw [hstep.number (Option.mem_toList.1 hcall)]
    by_cases hkeep : keep number = true
    · rw [select, if_pos hkeep] at hsame ⊢
      obtain ⟨hlane, hcall⟩ := hsame lane List.mem_cons_self number' found' number found
      obtain ⟨hlanes, hcalls⟩ := ih (number + 1)
        (found + ((step number found lane).2.toList.flatMap (·.reports)).length) (number' + 1)
        (found' + ((step number' found' lane).2.toList.flatMap (·.reports)).length)
        fun lane hlane => hsame lane (List.mem_cons_of_mem _ hlane)
      refine ⟨?_, ?_⟩
      · rw [sweep, sweep, select, if_pos hkeep, hlane, hlanes]
      · have hall : (step number found lane).2.toList.filter (fun call => keep call.number) =
            (step number found lane).2.toList :=
          List.filter_eq_self.2 fun call h => (hfirst call h).trans hkeep
        have hone : (step number' found' lane).2.toList.map Call.outcome =
            (step number found lane).2.toList.map Call.outcome := by
          rw [← Option.toList_map, hcall, Option.toList_map]
        rw [sweep, sweep, List.map_append, List.filter_append, List.map_append, hall, hone, hcalls]
    · rw [select, if_neg hkeep] at hsame ⊢
      obtain ⟨hlanes, hcalls⟩ := ih (number + 1)
        (found + ((step number found lane).2.toList.flatMap (·.reports)).length) number' found' hsame
      refine ⟨?_, ?_⟩
      · rw [hlanes, sweep, select, if_neg hkeep]
      · have hnone : (step number found lane).2.toList.filter (fun call => keep call.number) = [] :=
          List.filter_eq_nil_iff.2 fun call h => by rw [hfirst call h]; exact hkeep
        rw [hcalls, sweep, List.filter_append, hnone, List.nil_append]

end Guardrails
