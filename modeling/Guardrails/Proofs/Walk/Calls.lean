import Guardrails.Proofs.Tree.Order
import Guardrails.Proofs.Walk.Sweep

/-!
# What a record of calls says

The calls of a walk say where its checkers failed and what they skip. They also say in which state each
checker is, so that a call can be held against what the checker itself answers.
-/

namespace Guardrails

def Occasion.isFinish : Occasion → Bool
  | finish => true
  | _ => false

namespace Call

/-- The place that was handed out in the call. -/
def focus? (call : Call) : Option Focus :=
  call.occasion.focus?

/-- The place at which the checker failed. -/
def failedAt? (call : Call) : Option Focus :=
  if call.fault?.isSome then call.focus? else none

/-- The place below which the checker wants to see nothing. -/
def skippedAt? (call : Call) : Option Focus :=
  if call.answer? = some .skipChildren then call.focus? else none

theorem isFinish_of_focus? {call : Call} {f : Focus} (h : call.focus? = some f) :
    call.occasion.isFinish = false := by
  unfold focus? at h
  cases hoccasion : call.occasion with
  | finish => rw [hoccasion] at h; cases h
  | _ => rfl

theorem focus?_of_failedAt? {call : Call} {f : Focus} (h : call.failedAt? = some f) :
    call.focus? = some f := by
  unfold failedAt? at h
  split_ifs at h
  exact h

theorem focus?_of_skippedAt? {call : Call} {f : Focus} (h : call.skippedAt? = some f) :
    call.focus? = some f := by
  unfold skippedAt? at h
  split_ifs at h
  exact h

end Call

/-! ## Whom a place is handed to -/

/-- Whether a checker failed at an earlier place. -/
def hasFailedBefore (calls : List Call) (f : Focus) : Bool :=
  calls.any fun call => call.failedAt?.any (·.isBefore f)

/-- Whether a checker skips the children of a place around this one. -/
def isSkipped (calls : List Call) (f : Focus) : Bool :=
  calls.any fun call => call.skippedAt?.any (·.isAbove f)

/-- Whether a checker with these calls on record is to be handed a place. -/
def Checker.wants (c : Checker) (ctx : FileContext) (calls : List Call) (f : Focus) : Bool :=
  c.kinds.contains f.node.kind && (c.start ctx).isOk && !hasFailedBefore calls f && !isSkipped calls f

/-! ## What a checker answers -/

theorem Reply.value?_eq_some {α : Type} {reply : Reply α} {a : α} :
    reply.value? = some a ↔ reply.result = .ok a := by
  obtain ⟨reports, failure | value⟩ := reply <;> simp [Reply.value?]

theorem Reply.isSome_failure? {α : Type} (reply : Reply α) :
    reply.failure?.isSome = !reply.value?.isSome := by
  obtain ⟨reports, failure | value⟩ := reply <;> rfl

namespace Checker

/-- The state in which a checker is after these calls, the latest being the first. It has none before it is
started, after a failure, and when it is finished. -/
def stateAfter (c : Checker) (ctx : FileContext) : List Call → Option c.State
  | [] => none
  | call :: earlier =>
    match call.occasion with
    | .start => (Reply.ofExcept (c.start ctx)).value?
    | .visit f => (c.stateAfter ctx earlier).bind fun state =>
      (c.visit ctx state f call.found).value?.map (·.1)
    | .finish => none

/-- The call that a checker is due on an occasion, after these calls. -/
def call? (c : Checker) (ctx : FileContext) (number found : Nat) (earlier : List Call) :
    Occasion → Option Call
  | .start => some (Walk.startCall ctx number found c (.ofExcept (c.start ctx)))
  | .visit f => (c.stateAfter ctx earlier).map fun state =>
    Walk.visitCall ctx f number found c (c.visit ctx state f found)
  | .finish => (c.stateAfter ctx earlier).map fun state =>
    Walk.finishCall ctx number found c (c.finish ctx state found)

/-- Whether every call, the latest being the first, says what the checker answers after the earlier ones. -/
def Answers (c : Checker) (ctx : FileContext) : List Call → Prop
  | [] => True
  | call :: earlier =>
    c.call? ctx call.number call.found earlier call.occasion = some call ∧ c.Answers ctx earlier

section

variable {c : Checker} {ctx : FileContext} {call : Call}

theorem Answers.of_append {later earlier : List Call} (h : c.Answers ctx (later ++ earlier)) :
    c.Answers ctx earlier := by
  induction later with
  | nil => exact h
  | cons call later ih => exact ih h.2

theorem Answers.exists_call? {calls : List Call} (h : c.Answers ctx calls) (hcall : call ∈ calls) :
    ∃ earlier, c.call? ctx call.number call.found earlier call.occasion = some call := by
  obtain ⟨later, earlier, rfl⟩ := List.append_of_mem hcall
  exact ⟨earlier, h.of_append.1⟩

theorem exists_faultAt_of_call? {number found : Nat} {earlier : List Call} {o : Occasion} {fault : Fault}
    (h : c.call? ctx number found earlier o = some call) (hfault : call.fault? = some fault) :
    ∃ e, fault = Walk.faultAt ctx c o.node? e := by
  cases o with
  | start =>
    obtain rfl := Option.some.inj h
    obtain ⟨e, -, rfl⟩ := Option.map_eq_some_iff.1 hfault
    exact ⟨e, rfl⟩
  | visit f =>
    obtain ⟨state, -, rfl⟩ := Option.map_eq_some_iff.1 h
    obtain ⟨e, -, rfl⟩ := Option.map_eq_some_iff.1 hfault
    exact ⟨e, rfl⟩
  | finish =>
    obtain ⟨state, -, rfl⟩ := Option.map_eq_some_iff.1 h
    obtain ⟨e, -, rfl⟩ := Option.map_eq_some_iff.1 hfault
    exact ⟨e, rfl⟩

end

end Checker
end Guardrails
