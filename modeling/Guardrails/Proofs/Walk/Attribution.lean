import Mathlib.Data.List.Nodup
import Guardrails.Proofs.Rules.Findings

/-!
# Who found what

Every call on record is one to a checker of the list, so what it reports and how it fails can be put down
to that checker, and to the places it was handed. Leaving checkers out of a walk leaves out what is put down
to them.
-/

namespace Guardrails

/-! ## One call -/

namespace Checker

variable {c : Checker} {ctx : FileContext}

section

variable {i k : Nat} {earlier : List Call} {o : Occasion} {call : Call}

theorem forall_reports_of_call? {P : Violation → Prop}
    (hvisit : ∀ state f, ∀ v ∈ (c.visit ctx state f k).reports, P v)
    (hfinish : ∀ state, ∀ v ∈ (c.finish ctx state k).reports, P v)
    (h : c.call? ctx i k earlier o = some call) : ∀ v ∈ call.reports, P v := by
  cases o with
  | start =>
    cases h
    exact fun _ hv => absurd hv List.not_mem_nil
  | visit f =>
    obtain ⟨state, -, rfl⟩ := Option.map_eq_some_iff.1 h
    exact hvisit state f
  | finish =>
    obtain ⟨state, -, rfl⟩ := Option.map_eq_some_iff.1 h
    exact hfinish state

theorem ReportsOwn.rule_mem (h : c.ReportsOwn) (hcall : c.call? ctx i k earlier o = some call) :
    ∀ v ∈ call.reports, v.rule ∈ c.rules :=
  forall_reports_of_call? (fun state f => h.visit ctx state f k) (fun state => h.finish ctx state k) hcall

theorem ReportsInFile.file_eq (h : c.ReportsInFile) (hcall : c.call? ctx i k earlier o = some call) :
    ∀ v ∈ call.reports, v.location.file = ctx.relative :=
  forall_reports_of_call? (fun state f => h.visit ctx state f k) (fun state => h.finish ctx state k) hcall

end

/-- Whether a checker keeps a property of its states, as long as it is handed some places only, and reports nothing
then but violations of some form. -/
structure Keeps (c : Checker) (ctx : FileContext) (covers : Focus → Prop) (kept : c.State → Prop)
    (told : Violation → Prop) : Prop where
  start : ∀ state, c.start ctx = .ok state → kept state
  visit : ∀ state f k, kept state → covers f → ∀ v ∈ (c.visit ctx state f k).reports, told v
  next : ∀ state f k next below, kept state → covers f → (c.visit ctx state f k).result = .ok (next, below) →
    kept next
  finish : ∀ state k, kept state → ∀ v ∈ (c.finish ctx state k).reports, told v

theorem Keeps.of_answers {covers : Focus → Prop} {kept : c.State → Prop} {told : Violation → Prop}
    (h : c.Keeps ctx covers kept told) {calls : List Call} (hanswers : c.Answers ctx calls)
    (hplaces : ∀ call ∈ calls, ∀ f, call.focus? = some f → covers f) :
    (∀ state, c.stateAfter ctx calls = some state → kept state) ∧
      ∀ call ∈ calls, ∀ v ∈ call.reports, told v := by
  induction calls with
  | nil => exact ⟨fun _ hnone => (nomatch hnone), fun _ hcall => absurd hcall List.not_mem_nil⟩
  | cons call earlier ih =>
    obtain ⟨hcall, hearlier⟩ := hanswers
    obtain ⟨hkept, hreports⟩ := ih hearlier fun other hother => hplaces other (List.mem_cons_of_mem _ hother)
    suffices hlatest : (∀ state, c.stateAfter ctx (call :: earlier) = some state → kept state) ∧
        ∀ v ∈ call.reports, told v by
      exact ⟨hlatest.1, List.forall_mem_cons.2 ⟨hlatest.2, hreports⟩⟩
    cases hoccasion : call.occasion with
    | start =>
      rw [hoccasion] at hcall
      have heq := Option.some.inj hcall
      constructor
      · intro state hstate
        rw [stateAfter, hoccasion] at hstate
        exact h.start state (Reply.value?_eq_some.1 hstate)
      · intro v hv
        rw [← heq] at hv
        exact absurd hv List.not_mem_nil
    | visit f =>
      have hcovers : covers f := hplaces call List.mem_cons_self f (by rw [Call.focus?, hoccasion]; rfl)
      rw [hoccasion] at hcall
      obtain ⟨before, hbefore, heq⟩ := Option.map_eq_some_iff.1 hcall
      constructor
      · intro state hstate
        simp only [stateAfter, hoccasion, hbefore, Option.bind_some, Option.map_eq_some_iff] at hstate
        obtain ⟨⟨next, below⟩, hvalue, rfl⟩ := hstate
        exact h.next before f call.found next below (hkept before hbefore) hcovers (Reply.value?_eq_some.1 hvalue)
      · intro v hv
        rw [← heq] at hv
        exact h.visit before f call.found (hkept before hbefore) hcovers v hv
    | finish =>
      rw [hoccasion] at hcall
      obtain ⟨before, hbefore, heq⟩ := Option.map_eq_some_iff.1 hcall
      constructor
      · intro state hstate
        rw [stateAfter, hoccasion] at hstate
        cases hstate
      · intro v hv
        rw [← heq] at hv
        exact h.finish before call.found (hkept before hbefore) v hv

/-- What holds of the nodes near the places that a checker was handed holds of the nodes it has got hold of
and of those at which it builds its violations. -/
theorem Holds.of_answers {held : c.State → List Node} (h : c.Holds held) {P : Node → Prop}
    {calls : List Call} (hanswers : c.Answers ctx calls)
    (hplaces : ∀ call ∈ calls, ∀ f, call.focus? = some f → ∀ n, f.IsNear n → P n) :
    (∀ state, c.stateAfter ctx calls = some state → ∀ n ∈ held state, P n) ∧
      ∀ call ∈ calls, ctx.BuildsAll c.rules P call.reports := by
  have hkeeps : c.Keeps ctx (fun f => ∀ n, f.IsNear n → P n) (fun state => ∀ n ∈ held state, P n)
      (ctx.Builds c.rules P) := by
    refine ⟨?_, ?_, ?_, ?_⟩
    · intro state hstate n hn
      rw [h.start ctx state hstate] at hn
      exact absurd hn List.not_mem_nil
    · intro state f k _ hnear v hv
      exact (h.visit ctx state f k v hv).mono hnear
    · intro state f k next below hstate hnear hresult n hn
      exact (h.keeps ctx state f k next below hresult n hn).elim (hstate n) (hnear n)
    · intro state k hstate v hv
      exact (h.finish ctx state k v hv).mono hstate
  exact hkeeps.of_answers hanswers hplaces

end Checker

/-! ## Whole walks -/

namespace Walk

section

variable (cs : List Checker) (bound : Nat) (ctx : FileContext) (root : Node)

theorem mem_subtree_of_mem_log {call : Call} {f : Focus} (h : call ∈ (run cs bound ctx root).log)
    (hf : call.focus? = some f) : f ∈ (Focus.root root).subtree := by
  have hvisit : (f, call.number) ∈ (run cs bound ctx root).visits :=
    List.mem_filterMap.2 ⟨call, h, by rw [hf, Option.map_some]⟩
  rw [visits_run] at hvisit
  obtain ⟨g, hg, hmem⟩ := List.mem_flatMap.1 hvisit
  obtain ⟨i, -, heq⟩ := List.mem_map.1 hmem
  cases heq
  exact hg

theorem builds_of_mem_violations (hcs : ∀ c ∈ cs, ∃ held, c.Holds held) {P : Node → Prop}
    (htree : ∀ f ∈ (Focus.root root).subtree, P f.node) {v : Violation}
    (hv : v ∈ (run cs bound ctx root).violations) : ∃ c ∈ cs, ctx.Builds c.rules P v := by
  rw [(recorded_run cs bound ctx root).violations] at hv
  obtain ⟨call, hcall, hv⟩ := List.mem_flatMap.1 hv
  obtain ⟨c, -, hc, -⟩ := exists_checker_of_mem_log cs bound ctx root hcall
  have hmem : c ∈ cs := List.mem_of_getElem? hc
  obtain ⟨held, hheld⟩ := hcs c hmem
  have hbuilds := (hheld.of_answers (answers_run cs bound ctx root call.number c hc) (P := P)
    fun other hother f hf => Focus.forall_isNear htree
      (mem_subtree_of_mem_log cs bound ctx root (mem_callsOf.1 hother).1 hf)).2
  exact ⟨c, hmem, hbuilds call (mem_callsOf.2 ⟨hcall, rfl⟩) v hv⟩

theorem told_of_mem_violations {covers : Focus → Prop} {told : Violation → Prop}
    (hcs : ∀ c ∈ cs, ∃ kept, c.Keeps ctx covers kept told) (htree : ∀ f ∈ (Focus.root root).subtree, covers f)
    {v : Violation} (hv : v ∈ (run cs bound ctx root).violations) : told v := by
  rw [(recorded_run cs bound ctx root).violations] at hv
  obtain ⟨call, hcall, hv⟩ := List.mem_flatMap.1 hv
  obtain ⟨c, -, hc, -⟩ := exists_checker_of_mem_log cs bound ctx root hcall
  obtain ⟨kept, hkeeps⟩ := hcs c (List.mem_of_getElem? hc)
  have htold := (hkeeps.of_answers (answers_run cs bound ctx root call.number c hc) fun other hother f hf =>
    htree f (mem_subtree_of_mem_log cs bound ctx root (mem_callsOf.1 hother).1 hf)).2
  exact htold call (mem_callsOf.2 ⟨hcall, rfl⟩) v hv

theorem file_of_mem_violations (hcs : ∀ c ∈ cs, c.ReportsInFile) {v : Violation}
    (hv : v ∈ (run cs bound ctx root).violations) : v.location.file = ctx.relative := by
  rw [(recorded_run cs bound ctx root).violations] at hv
  obtain ⟨call, hcall, hv⟩ := List.mem_flatMap.1 hv
  obtain ⟨c, earlier, hc, hanswer⟩ := exists_checker_of_mem_log cs bound ctx root hcall
  exact (hcs c (List.mem_of_getElem? hc)).file_eq hanswer v hv

theorem file_of_mem_faults {x : Fault} (hx : x ∈ (run cs bound ctx root).faults) :
    x.file = ctx.relative := by
  rw [(recorded_run cs bound ctx root).faults] at hx
  obtain ⟨call, hcall, hfault⟩ := List.mem_filterMap.1 hx
  obtain ⟨c, earlier, -, hanswer⟩ := exists_checker_of_mem_log cs bound ctx root hcall
  obtain ⟨e, rfl⟩ := Checker.exists_faultAt_of_call? hanswer hfault
  rfl

theorem depthLimited_run_eq :
    (run cs bound ctx root).depthLimited = (Focus.root root).subtree.any (·.depth == bound + 1) := by
  rw [run_eq]
  rfl

end

/-! ## Leaving checkers out -/

section

variable {cs : List Checker} {p : Checker → Bool}

theorem outcomes_filter (h : ∀ c ∈ cs, c.IsSelfContained) (bound : Nat) (ctx : FileContext) (root : Node) :
    (run (cs.filter p) bound ctx root).log.map Call.outcome =
      ((run cs bound ctx root).log.filter fun call => cs[call.number]?.any p).map Call.outcome := by
  have hselect : select (fun i => cs[i]?.any p) 0 cs = cs.filter p :=
    select_eq_filter fun i c hc => by rw [Nat.zero_add, hc, Option.any_some]
  have honly : ∀ c ∈ select (fun i => cs[i]?.any p) 0 cs, c.OnlyReports :=
    fun c hc => (h c (mem_of_mem_select hc)).onlyReports
  have hrun := isSelection_run honly bound ctx root
  rw [hselect] at hrun
  exact hrun.outcomes

/-- When no checker left out has a rule of interest, nothing of interest is lost. -/
theorem filter_violations_filter (h : ∀ c ∈ cs, c.IsSelfContained) {q : Rule → Bool}
    (hq : ∀ c ∈ cs, p c = false → ∀ r ∈ c.rules, q r = false) (bound : Nat) (ctx : FileContext)
    (root : Node) :
    (run (cs.filter p) bound ctx root).violations.filter (fun v => q v.rule) =
      (run cs bound ctx root).violations.filter fun v => q v.rule := by
  rw [(recorded_run _ bound ctx root).violations, (recorded_run cs bound ctx root).violations,
    flatMap_reports_eq (outcomes_filter h bound ctx root), List.filter_flatMap, List.filter_flatMap]
  refine flatMap_filter_eq fun call hcall hleft => ?_
  obtain ⟨c, earlier, hc, hanswer⟩ := exists_checker_of_mem_log cs bound ctx root hcall
  have hmem : c ∈ cs := List.mem_of_getElem? hc
  rw [hc, Option.any_some] at hleft
  rw [List.filter_eq_nil_iff]
  intro v hv
  rw [hq c hmem hleft v.rule ((h c hmem).reportsOwn.rule_mem hanswer v hv)]
  exact Bool.false_ne_true

theorem faults_filter (h : ∀ c ∈ cs, c.IsSelfContained) (hnames : (cs.map (·.name)).Nodup) (bound : Nat)
    (ctx : FileContext) (root : Node) :
    (run (cs.filter p) bound ctx root).faults =
      (run cs bound ctx root).faults.filter fun x => cs.any fun c => c.name == x.checker && p c := by
  rw [(recorded_run _ bound ctx root).faults, (recorded_run cs bound ctx root).faults,
    filterMap_fault?_eq (outcomes_filter h bound ctx root)]
  refine filterMap_filter_eq fun call hcall fault hfault => ?_
  obtain ⟨c, earlier, hc, hanswer⟩ := exists_checker_of_mem_log cs bound ctx root hcall
  have hmem : c ∈ cs := List.mem_of_getElem? hc
  have hname : fault.checker = c.name := by
    obtain ⟨e, rfl⟩ := Checker.exists_faultAt_of_call? hanswer hfault
    rfl
  rw [hc, Option.any_some, hname, Bool.eq_iff_iff, List.any_eq_true]
  constructor
  · rintro ⟨other, hother, hboth⟩
    obtain ⟨hsame, hp⟩ := Bool.and_eq_true_iff.1 hboth
    rwa [← List.inj_on_of_nodup_map hnames hother hmem (beq_iff_eq.1 hsame)]
  · exact fun hp => ⟨c, hmem, by rw [beq_self_eq_true, hp]; rfl⟩

end

end Walk
end Guardrails
