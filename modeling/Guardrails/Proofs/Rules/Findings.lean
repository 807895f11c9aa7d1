import Guardrails.Proofs.Walk.Isolation

/-!
# What checkers find

A checker builds its violations at the nodes it is handed, or right below them, or for the file as a whole,
and they are about its own rules.
-/

namespace Guardrails

/-- Whether a node stands at a place or right below it. -/
def Focus.IsNear (f : Focus) (n : Node) : Prop :=
  n = f.node ∨ n ∈ f.node.children

theorem Focus.isNear_node (f : Focus) : f.IsNear f.node := .inl rfl

theorem Focus.isNear_of_child? {f : Focus} {n : Node} {field : String}
    (h : f.node.child? field = some n) : f.IsNear n :=
  .inr (List.mem_of_find?_eq_some h)

theorem Focus.forall_isNear {P : Node → Prop} {root f : Focus} (h : ∀ g ∈ root.subtree, P g.node)
    (hf : f ∈ root.subtree) : ∀ n, f.IsNear n → P n := by
  rintro n (rfl | hn)
  · exact h f hf
  · rw [← map_node_children] at hn
    obtain ⟨c, hc, rfl⟩ := List.mem_map.1 hn
    exact h c (mem_subtree_of_mem_children hf hc)

/-- Whether a violation can be built about some rules, for the file or at a node that is near. -/
inductive FileContext.Builds (ctx : FileContext) (rules : List Rule) (near : Node → Prop) :
    Violation → Prop
  | atNode {r n} (message : String) (hr : r ∈ rules) (hn : near n) :
      Builds ctx rules near (ctx.violationAt r n message).withHint
  | ofFile {r} (message suggestion : String) (hr : r ∈ rules) :
      Builds ctx rules near ((ctx.fileViolation r message).withSuggestion suggestion)

theorem FileContext.Builds.rule_mem {ctx : FileContext} {rules : List Rule} {near : Node → Prop}
    {v : Violation} (h : ctx.Builds rules near v) : v.rule ∈ rules := by
  cases h with
  | atNode message hr hn => exact hr
  | ofFile message suggestion hr => exact hr

theorem FileContext.Builds.file_eq {ctx : FileContext} {rules : List Rule} {near : Node → Prop}
    {v : Violation} (h : ctx.Builds rules near v) : v.location.file = ctx.relative := by
  cases h <;> rfl

theorem FileContext.Builds.mono {ctx : FileContext} {rules : List Rule} {near near' : Node → Prop}
    {v : Violation} (h : ctx.Builds rules near v) (hnear : ∀ n, near n → near' n) :
    ctx.Builds rules near' v := by
  cases h with
  | atNode message hr hn => exact .atNode message hr (hnear _ hn)
  | ofFile message suggestion hr => exact .ofFile message suggestion hr

/-- Whether all of some violations can be built so. -/
def FileContext.BuildsAll (ctx : FileContext) (rules : List Rule) (near : Node → Prop)
    (vs : List Violation) : Prop :=
  ∀ v ∈ vs, ctx.Builds rules near v

namespace FileContext.BuildsAll

variable {ctx : FileContext} {rules : List Rule} {near : Node → Prop} {r : Rule} {n : Node}

theorem nil : ctx.BuildsAll rules near [] :=
  fun _ hv => absurd hv List.not_mem_nil

theorem atNode (message : String) (hr : r ∈ rules) (hn : near n) :
    ctx.BuildsAll rules near [(ctx.violationAt r n message).withHint] := by
  intro v hv
  obtain rfl := List.mem_singleton.1 hv
  exact .atNode message hr hn

theorem ofFile (message suggestion : String) (hr : r ∈ rules) :
    ctx.BuildsAll rules near [(ctx.fileViolation r message).withSuggestion suggestion] := by
  intro v hv
  obtain rfl := List.mem_singleton.1 hv
  exact .ofFile message suggestion hr

theorem map {names : List String} (message : String → String) (hr : r ∈ rules) (hn : near n) :
    ctx.BuildsAll rules near (names.map fun name => (ctx.violationAt r n (message name)).withHint) := by
  intro v hv
  obtain ⟨name, -, rfl⟩ := List.mem_map.1 hv
  exact .atNode (message name) hr hn

end FileContext.BuildsAll

theorem Except.bind_eq_ok {ε α β : Type} {x : Except ε α} {g : α → Except ε β} {b : β} :
    x >>= g = .ok b ↔ ∃ a, x = .ok a ∧ g a = .ok b := by
  cases x with
  | error e => exact ⟨fun h => (nomatch h), fun ⟨_, h, _⟩ => (nomatch h)⟩
  | ok a =>
    constructor
    · exact fun h => ⟨a, rfl, h⟩
    · rintro ⟨_, ha, h⟩
      cases ha
      exact h

theorem Except.map_eq_ok {ε α β : Type} {x : Except ε α} {g : α → β} {b : β} :
    x.map g = .ok b ↔ ∃ a, x = .ok a ∧ g a = b := by
  cases x with
  | error e => exact ⟨fun h => (nomatch h), fun ⟨_, h, _⟩ => (nomatch h)⟩
  | ok a =>
    constructor
    · exact fun h => ⟨a, rfl, Except.ok.inj h⟩
    · rintro ⟨_, ha, rfl⟩
      cases ha
      rfl

/-! ## Checkers and their rules -/

/-- Whether a checker reports violations of its own rules only. -/
structure Checker.ReportsOwn (c : Checker) : Prop where
  visit : ∀ ctx state f k, ∀ v ∈ (c.visit ctx state f k).reports, v.rule ∈ c.rules
  finish : ∀ ctx state k, ∀ v ∈ (c.finish ctx state k).reports, v.rule ∈ c.rules

/-- Whether a checker reports violations in the file at hand only. -/
structure Checker.ReportsInFile (c : Checker) : Prop where
  visit : ∀ ctx state f k, ∀ v ∈ (c.visit ctx state f k).reports, v.location.file = ctx.relative
  finish : ∀ ctx state k, ∀ v ∈ (c.finish ctx state k).reports, v.location.file = ctx.relative

/-- Whether a checker only reports, and only about its own rules. -/
structure Checker.IsSelfContained (c : Checker) : Prop where
  onlyReports : c.OnlyReports
  reportsOwn : c.ReportsOwn

/-- Whether these are the nodes that a checker holds in its states. It takes them from the places it is
handed, where it also builds its violations, and in the end it builds some at the nodes it holds. -/
structure Checker.Holds (c : Checker) (held : c.State → List Node) : Prop where
  start : ∀ ctx state, c.start ctx = .ok state → held state = []
  visit : ∀ (ctx : FileContext) state f k, ctx.BuildsAll c.rules f.IsNear (c.visit ctx state f k).reports
  keeps : ∀ ctx state f k next below, (c.visit ctx state f k).result = .ok (next, below) →
    ∀ n ∈ held next, n ∈ held state ∨ f.IsNear n
  finish : ∀ (ctx : FileContext) state k, ctx.BuildsAll c.rules (· ∈ held state) (c.finish ctx state k).reports

theorem Checker.Holds.reportsOwn {c : Checker} {held : c.State → List Node} (h : c.Holds held) :
    c.ReportsOwn where
  visit ctx state f k v hv := (h.visit ctx state f k v hv).rule_mem
  finish ctx state k v hv := (h.finish ctx state k v hv).rule_mem

theorem Checker.Holds.reportsInFile {c : Checker} {held : c.State → List Node} (h : c.Holds held) :
    c.ReportsInFile where
  visit ctx state f k v hv := (h.visit ctx state f k v hv).file_eq
  finish ctx state k v hv := (h.finish ctx state k v hv).file_eq

section

variable {name : String} {rules : List Rule} {kinds : List String} {below : Visit}
  {findings : FileContext → Focus → Except Failure (List Violation)}

theorem Checker.mem_reports_ofFindings {ctx : FileContext} {state : Unit} {f : Focus} {k : Nat}
    {v : Violation} (hv : v ∈ ((ofFindings name rules kinds below findings).visit ctx state f k).reports) :
    ∃ vs, findings ctx f = .ok vs ∧ v ∈ vs := by
  simp only [ofFindings, bind, Reporting.bind] at hv
  cases hfindings : findings ctx f with
  | error e =>
    rw [hfindings] at hv
    exact absurd hv List.not_mem_nil
  | ok vs =>
    rw [hfindings] at hv
    exact ⟨vs, rfl, (List.append_nil vs) ▸ hv⟩

theorem Checker.holds_ofFindings
    (h : ∀ ctx f vs, findings ctx f = .ok vs → ctx.BuildsAll rules f.IsNear vs) :
    (ofFindings name rules kinds below findings).Holds fun _ => [] where
  start _ _ _ := rfl
  visit := by
    intro ctx state f k v hv
    obtain ⟨vs, hfindings, hv⟩ := mem_reports_ofFindings hv
    exact h ctx f vs hfindings v hv
  keeps _ _ _ _ _ _ _ _ hn := absurd hn List.not_mem_nil
  finish _ _ _ _ hv := absurd hv List.not_mem_nil

end

/-! ## Replies that report nothing -/

section

variable {σ : Type}

theorem Reporting.reports_bind_pure (x : Except Failure σ) (g : σ → σ × Visit) (k : Nat) :
    ((do let state ← Reply.ofExcept x; return g state : Reporting (σ × Visit)) k).reports = [] := by
  cases x <;> rfl

theorem Reporting.result_bind_pure {x : Except Failure σ} {g : σ → σ × Visit} {k : Nat} {next : σ × Visit}
    (h : ((do let state ← Reply.ofExcept x; return g state : Reporting (σ × Visit)) k).result = .ok next) :
    ∃ state, x = .ok state ∧ g state = next := by
  cases x with
  | error e => cases h
  | ok state => exact ⟨state, rfl, Except.ok.inj h⟩

theorem Reporting.bind_pure_steady (x : Except Failure σ) (g : σ → σ × Visit) (k l : Nat) :
    (do let state ← Reply.ofExcept x; return g state : Reporting (σ × Visit)) k =
      (do let state ← Reply.ofExcept x; return g state : Reporting (σ × Visit)) l := by
  cases x <;> rfl

end

end Guardrails
