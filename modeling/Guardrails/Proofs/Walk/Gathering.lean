import Guardrails.Proofs.Walk.Alone

/-!
# Checkers that gather evidence

A checker that fails nowhere and goes on below every node ends in the state that its steps make of the places of its
kinds, one by one in document order. It reports what it sees at these places, and behind that what it concludes from
its last state.
-/

namespace Guardrails

/-! ## Steps that do not fail -/

theorem mapM_eq_ok {ε α β : Type} {f : α → Except ε β} {g : α → β} {l : List α}
    (h : ∀ a ∈ l, f a = .ok (g a)) : l.mapM f = .ok (l.map g) := by
  induction l with
  | nil => rfl
  | cons a l ih =>
    rw [List.mapM_cons, h a List.mem_cons_self, ih fun b hb => h b (List.mem_cons_of_mem a hb)]
    rfl

/-! ## Walks -/

/-- Whether a checker takes each of these places into its state by `next` and reports `see` there, and whether it
reports what it makes of its state in the end. -/
structure Checker.Gathers (c : Checker) (ctx : FileContext) (first : c.State) (next : c.State → Focus → c.State)
    (see : Focus → List Violation) (conclude : c.State → List Violation) (places : List Focus) : Prop where
  start : c.start ctx = .ok first
  visit : ∀ f ∈ places, f.node.kind ∈ c.kinds → ∀ state k,
    c.visit ctx state f k = ⟨see f, .ok (next state f, .enter)⟩
  finish : ∀ state k, c.finish ctx state k = ⟨conclude state, .ok ()⟩

theorem Checker.gathers_ofFindings (name : String) (rules : List Rule) {kinds : List String}
    {findings : FileContext → Focus → Except Failure (List Violation)} {ctx : FileContext} {places : List Focus}
    (h : ∀ f ∈ places, f.node.kind ∈ kinds → (findings ctx f).isOk = true) :
    (ofFindings name rules kinds .enter findings).Gathers ctx () (fun _ _ => ()) (foundAt findings ctx)
      (fun _ => []) places where
  start := rfl
  visit f hf hkind state k := by
    obtain ⟨next, hvisit⟩ := (looks_ofFindings name rules kinds findings).visit ctx state f k
    rw [hvisit]
    cases hfound : findings ctx f with
    | error e => exact absurd (h f hf hkind) (by simp [hfound, Except.isOk, Except.toBool])
    | ok vs => rfl
  finish _ _ := rfl

namespace Walk

variable {c : Checker} {ctx : FileContext} {first : c.State} {next : c.State → Focus → c.State}
  {see : Focus → List Violation} {conclude : c.State → List Violation}

theorem visitAll_of_gathers {w : Walk} {state : c.State} {fs : List Focus}
    (hvisit : ∀ f ∈ fs, f.node.kind ∈ c.kinds → ∀ state k,
      c.visit ctx state f k = ⟨see f, .ok (next state f, .enter)⟩)
    (h : w.lanes = [⟨c, some state, none⟩]) :
    (w.visitAll ctx fs).lanes = [⟨c, some ((fs.filter (·.node.kind ∈ c.kinds)).foldl next state), none⟩] ∧
      (w.visitAll ctx fs).violations = w.violations ++ (fs.filter (·.node.kind ∈ c.kinds)).flatMap see ∧
      (w.visitAll ctx fs).faults = w.faults := by
  induction fs generalizing w state with
  | nil => exact ⟨h, (List.append_nil _).symm, rfl⟩
  | cons f fs ih =>
    have ih {w : Walk} {state : c.State} := @ih w state fun g hg => hvisit g (List.mem_cons_of_mem f hg)
    rw [visitAll_cons]
    by_cases hkind : f.node.kind ∈ c.kinds
    · rw [swept_singleton _ h, visitStep_of_mem hkind, hvisit f List.mem_cons_self hkind,
        List.filter_cons_of_pos (by simpa using hkind)]
      obtain ⟨hlanes, hviolations, hfaults⟩ := ih (lanes_after w [⟨c, some (next state f), none⟩] _)
      refine ⟨hlanes, hviolations.trans ?_, hfaults.trans ?_⟩
      · simp [after, visitCall]
      · simp [after, visitCall, Reply.failure?]
    · rw [swept_eq_self h (visitStep_of_not_mem hkind 0 _), List.filter_cons_of_neg (by simpa using hkind)]
      exact ih h

/-- What a checker that gathers evidence reports on a whole tree. -/
theorem ofWalk_of_gathers {bound : Nat} {root : Node}
    (h : c.Gathers ctx first next see conclude ((Focus.root root).within bound)) :
    (FileAnalysis.ofWalk [c] bound ctx root).violations =
        (((Focus.root root).within bound).filter (·.node.kind ∈ c.kinds)).flatMap see ++
          conclude ((((Focus.root root).within bound).filter (·.node.kind ∈ c.kinds)).foldl next first) ∧
      (FileAnalysis.ofWalk [c] bound ctx root).faults = [] := by
  have hstarted : (started ctx [c]).lanes = [⟨c, some first, none⟩] ∧ (started ctx [c]).violations = [] ∧
      (started ctx [c]).faults = [] := by
    simp [started_singleton, startLane, h.start, Reply.ofExcept, Reply.value?, after, idle, startCall,
      Reply.failure?]
  obtain ⟨hlanes, hviolations, hfaults⟩ := visitAll_of_gathers h.visit hstarted.1
  have hlast : (visited [c] bound ctx root).lanes = _ := hlanes
  rw [FileAnalysis.ofWalk, run_eq, swept_singleton _ hlast]
  constructor
  · simp [after, finishStep, finishLane?, finishCall, h.finish, visited, hviolations, hstarted.2.1]
  · simp [after, finishStep, finishLane?, finishCall, h.finish, visited, hfaults, hstarted.2.2, Reply.failure?]

theorem ofWalk_of_gathers_silently {bound : Nat} {root : Node}
    (h : c.Gathers ctx first next (fun _ => []) conclude ((Focus.root root).within bound)) :
    (FileAnalysis.ofWalk [c] bound ctx root).violations =
        conclude ((((Focus.root root).within bound).filter (·.node.kind ∈ c.kinds)).foldl next first) ∧
      (FileAnalysis.ofWalk [c] bound ctx root).faults = [] := by
  obtain ⟨hviolations, hfaults⟩ := ofWalk_of_gathers h
  rw [List.flatMap_eq_nil_iff.2 fun _ _ => rfl, List.nil_append] at hviolations
  exact ⟨hviolations, hfaults⟩

/-- What a checker reports that looks at each node by itself and does not fail: what it finds at the places of its
kinds, each of them looked at once and in document order. -/
theorem ofWalk_ofFindings {name : String} {rules : List Rule} {kinds : List String}
    {findings : FileContext → Focus → Except Failure (List Violation)} {bound : Nat} {root : Node}
    (h : ∀ f ∈ (Focus.root root).within bound, f.node.kind ∈ kinds → (findings ctx f).isOk = true) :
    (FileAnalysis.ofWalk [.ofFindings name rules kinds .enter findings] bound ctx root).faults = [] ∧
      (FileAnalysis.ofWalk [.ofFindings name rules kinds .enter findings] bound ctx root).violations =
        (((Focus.root root).within bound).filter (·.node.kind ∈ kinds)).flatMap (foundAt findings ctx) ∧
      (((Focus.root root).within bound).filter (·.node.kind ∈ kinds)).Pairwise
        (fun f g => f.isBefore g = true) := by
  obtain ⟨hviolations, hfaults⟩ := ofWalk_of_gathers (Checker.gathers_ofFindings name rules h)
  exact ⟨hfaults, hviolations.trans (List.append_nil _), ((Focus.subtree_pairwise _).filter _).filter _⟩

end Walk
end Guardrails
