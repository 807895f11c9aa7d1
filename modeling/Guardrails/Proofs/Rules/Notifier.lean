import Mathlib.Data.List.Forall2
import Guardrails.Proofs.Lists
import Guardrails.Proofs.Tree.Family
import Guardrails.Proofs.Tree.Tour
import Guardrails.Proofs.Walk.Gathering
import Guardrails.Rules.Notifier

/-!
# Calls of a notifier and their metadata

Each call of a notifier is judged where it stands, and all of them are counted. Whether a notifier of its own is
suggested to a module depends on the count and on a call that may stand anywhere, also behind the last that counts.
-/

namespace Guardrails.NotifierMetadata

variable {x : NotifierMetadata} {ctx : FileContext} {s : Source} {root call options : Node} {f : Focus}
  {path : List String} {key : String}

/-! ## Keys of an object -/

/-- Whether a member of an object literal has this key: as a shorthand, or written out, with or without quotes. -/
inductive IsKeyOf (s : Source) : Node → String → Prop
  | shorthand {member : Node} (hkind : member.kind = "shorthand_property_identifier") :
      IsKeyOf s member (s.textOf member)
  | plain {member name : Node} (hkind : member.kind = "pair" ∨ member.kind = "method_definition")
      (hname : (member.child? "key" <|> member.child? "name") = some name) (hplain : name.stringValue? s = none) :
      IsKeyOf s member (s.textOf name)
  | quoted {member name : Node} {key : String} (hkind : member.kind = "pair" ∨ member.kind = "method_definition")
      (hname : (member.child? "key" <|> member.child? "name") = some name) (hquoted : name.stringValue? s = some key) :
      IsKeyOf s member key

/-- Whether an object literal has a member with this key. -/
def HasKey (s : Source) (options : Node) (key : String) : Prop :=
  options.kind = "object" ∧ ∃ member ∈ options.namedChildren, IsKeyOf s member key

theorem memberKey?_eq_some_iff {member : Node} : member.memberKey? s = some key ↔ IsKeyOf s member key := by
  constructor
  · intro h
    have hwritten (hkind : member.kind = "pair" ∨ member.kind = "method_definition")
        (h : ((member.child? "key" <|> member.child? "name").map fun name =>
          (name.stringValue? s).getD (s.textOf name)) = some key) : IsKeyOf s member key := by
      obtain ⟨name, hname, hkey⟩ := Option.map_eq_some_iff.1 h
      cases hvalue : name.stringValue? s with
      | none =>
        rw [hvalue, Option.getD_none] at hkey
        exact hkey ▸ .plain hkind hname hvalue
      | some value =>
        rw [hvalue, Option.getD_some] at hkey
        exact .quoted hkind hname (hvalue.trans (congrArg _ hkey))
    unfold Node.memberKey? at h
    split at h
    · exact hwritten (.inl ‹_›) h
    · exact hwritten (.inr ‹_›) h
    · cases h
      exact .shorthand ‹_›
    · cases h
  · rintro (hkind | ⟨hkind, hname, hvalue⟩ | ⟨hkind, hname, hvalue⟩)
    · simp [Node.memberKey?, hkind]
    all_goals
      rcases hkind with hkind | hkind <;> simp only [Node.memberKey?, hkind, hname, Option.map_some, hvalue] <;> rfl

theorem mem_objectKeys_iff : key ∈ options.objectKeys s ↔ HasKey s options key := by
  unfold Node.objectKeys HasKey
  by_cases hkind : options.kind = "object" <;> simp [hkind, memberKey?_eq_some_iff]

instance (s : Source) (options : Node) (key : String) : Decidable (HasKey s options key) :=
  decidable_of_iff _ mem_objectKeys_iff

/-! ## Calls -/

/-- Whether a node is a call whose callee is reached on this path. -/
structure CallsOn (ctx : FileContext) (call : Node) (path : List String) : Prop where
  kind : call.kind = "call_expression"
  callee : ∃ callee, call.child? "function" = some callee ∧ callee.accessTail ctx.source = path

/-- Whether a path ends in a notifier and a level of it. -/
def IsRaw (x : NotifierMetadata) (path : List String) : Prop :=
  ∃ front, ∃ notifier ∈ x.notifiers, ∃ level ∈ x.levels, level ≠ "withContext" ∧ path = front ++ [notifier, level]

/-- Whether a path ends in what makes a notifier with a context. -/
def IsScoped (path : List String) : Prop :=
  ∃ front, path = front ++ ["withContext"]

/-- The required keys that an object literal lacks, in the order of the configuration. -/
def lacking (x : NotifierMetadata) (s : Source) (options : Node) : List String :=
  x.requiredKeys.filter fun key => ¬ HasKey s options key

def bareReport (ctx : FileContext) (call : Node) (path : List String) : Violation :=
  (ctx.violationAt .notifierMetadata call ("`" ++ ".".intercalate path ++ "` call without an options object")).withHint

def lackReport (ctx : FileContext) (call : Node) (path missing : List String) : Violation :=
  (ctx.violationAt .notifierMetadata call
    ("`" ++ ".".intercalate path ++ "` options lack " ++ ", ".intercalate missing)).withHint

/-- What is reported of a notifier call on some path: without options all keys are missing, and options are only
looked into when they are an object literal. -/
inductive Judged (x : NotifierMetadata) (ctx : FileContext) (call : Node) (path : List String) : List Violation → Prop
  | bare (hnone : call.callArguments[1]? = none) (hkeys : x.requiredKeys ≠ []) :
      Judged x ctx call path [bareReport ctx call path]
  | free (hnone : call.callArguments[1]? = none) (hkeys : x.requiredKeys = []) : Judged x ctx call path []
  | lacking {options : Node} (hoptions : call.callArguments[1]? = some options) (hkind : options.kind = "object")
      (hlacking : x.lacking ctx.source options ≠ []) :
      Judged x ctx call path [lackReport ctx call path (x.lacking ctx.source options)]
  | complete {options : Node} (hoptions : call.callArguments[1]? = some options) (hkind : options.kind = "object")
      (hlacking : x.lacking ctx.source options = []) : Judged x ctx call path []
  | unread {options : Node} (hoptions : call.callArguments[1]? = some options) (hkind : options.kind ≠ "object") :
      Judged x ctx call path []

def suggestion (ctx : FileContext) (count : Nat) : Violation :=
  (ctx.fileViolation .notifierMetadata
    (toString count ++ " raw notifier calls and no scoped notifier")).withSuggestion scopedExample

theorem isRaw_iff : path.getLast? ≠ some "withContext" ∧ x.isRaw path = true ↔ x.IsRaw path := by
  constructor
  · rintro ⟨hlast, h⟩
    unfold isRaw at h
    split at h
    · rename_i level notifier front hreverse
      have hpath : path = front.reverse ++ [notifier, level] := by
        rw [← List.reverse_reverse path, hreverse]
        simp
      rw [Bool.and_eq_true, List.contains_iff_mem, List.contains_iff_mem] at h
      exact ⟨front.reverse, notifier, h.1, level, h.2, by simpa [hpath] using hlast, hpath⟩
    · cases h
  · rintro ⟨front, notifier, hnotifier, level, hlevel, hne, rfl⟩
    simp [isRaw, hnotifier, hlevel, hne]

theorem isScoped_iff : path.getLast? = some "withContext" ↔ IsScoped path := by
  rw [List.getLast?_eq_some_iff, IsScoped]

/-! ## What a call adds -/

/-- The path of the callee of a notifier call. -/
def rawPath? (x : NotifierMetadata) (ctx : FileContext) (n : Node) : Option (List String) :=
  ((n.child? "function").map (·.accessTail ctx.source)).filter fun path =>
    path.getLast? ≠ some "withContext" ∧ x.isRaw path = true

/-- Whether a call makes a notifier with a context. -/
def scopes (ctx : FileContext) (n : Node) : Bool :=
  ((n.child? "function").map (·.accessTail ctx.source)).any fun path => path.getLast? = some "withContext"

/-- What is reported of a call. -/
def judge (x : NotifierMetadata) (ctx : FileContext) (n : Node) : List Violation :=
  ((x.rawPath? ctx n).bind fun path => x.message? ctx.source path n.callArguments[1]?).toList.map fun message =>
    (ctx.violationAt .notifierMetadata n message).withHint

theorem rawPath?_eq_some_iff (hkind : call.kind = "call_expression") :
    x.rawPath? ctx call = some path ↔ CallsOn ctx call path ∧ x.IsRaw path := by
  simp only [rawPath?, Option.filter_eq_some_iff, Option.map_eq_some_iff, decide_eq_true_iff, isRaw_iff]
  exact and_congr_left fun _ => ⟨fun h => ⟨hkind, h⟩, fun h => h.callee⟩

theorem scopes_iff (hkind : call.kind = "call_expression") :
    scopes ctx call = true ↔ ∃ path, CallsOn ctx call path ∧ IsScoped path := by
  simp only [scopes, Option.any_eq_true, decide_eq_true_iff, isScoped_iff, Option.map_eq_some_iff]
  exact exists_congr fun path => and_congr_left fun _ => ⟨fun h => ⟨hkind, h⟩, fun h => h.callee⟩

theorem message?_none : x.message? s path none =
    if x.requiredKeys = [] then none else some ("`" ++ ".".intercalate path ++ "` call without an options object") := by
  cases hkeys : x.requiredKeys <;> simp [message?, missingKeys?, hkeys, String.append_assoc]

theorem message?_some : x.message? s path (some options) =
    if options.kind = "object" ∧ x.lacking s options ≠ [] then
      some ("`" ++ ".".intercalate path ++ "` options lack " ++ ", ".intercalate (x.lacking s options))
    else none := by
  have hmissing : x.missingKeys? s (some options) =
      if options.kind = "object" then some (x.lacking s options) else none := by
    simp [missingKeys?, lacking, ← mem_objectKeys_iff]
  rw [message?, hmissing]
  by_cases hkind : options.kind = "object"
  · cases x.lacking s options with
    | nil => simp [hkind]
    | cons key keys =>
      have hlead : "` options lack " = "` " ++ "options lack " := rfl
      rw [if_pos hkind, if_pos ⟨hkind, List.cons_ne_nil key keys⟩, hlead]
      simp only [Option.isNone_some, Bool.false_eq_true, if_false, String.append_assoc]
  · simp [hkind]

theorem judged_judge (h : x.rawPath? ctx call = some path) : Judged x ctx call path (x.judge ctx call) := by
  rw [judge, h, Option.bind_some]
  cases hoptions : call.callArguments[1]? with
  | none =>
    rw [message?_none]
    split_ifs with hkeys
    · exact .free hoptions hkeys
    · exact .bare hoptions hkeys
  | some options =>
    rw [message?_some]
    by_cases hkind : options.kind = "object"
    · by_cases hlacking : x.lacking ctx.source options = []
      · rw [if_neg fun h => h.2 hlacking]
        exact .complete hoptions hkind hlacking
      · rw [if_pos ⟨hkind, hlacking⟩]
        exact .lacking hoptions hkind hlacking
    · rw [if_neg fun h => hkind h.1]
      exact .unread hoptions hkind

/-- A call counts, or it makes a notifier with a context, and what was seen before does not change its judgement. -/
theorem see_eq (seen : Seen) (n : Node) : x.see ctx seen n =
    (⟨seen.rawCalls + (if (x.rawPath? ctx n).isSome then 1 else 0), seen.isScoped || scopes ctx n⟩, x.judge ctx n) := by
  unfold see judge rawPath? scopes
  cases n.child? "function" with
  | none => simp
  | some callee =>
    simp only [Option.map_some, Option.filter_some, Option.any_some]
    by_cases hscoped : (callee.accessTail ctx.source).getLast? = some "withContext"
    · simp [hscoped]
    · by_cases hraw : x.isRaw (callee.accessTail ctx.source) = true <;> simp [hscoped, hraw]

theorem judge_of_rawPath?_eq_none {n : Node} (h : x.rawPath? ctx n = none) : x.judge ctx n = [] := by
  rw [judge, h, Option.bind_none, Option.toList_none, List.map_nil]

/-! ## The whole module -/

/-- What was seen, and what stands at a place besides. -/
def take (x : NotifierMetadata) (ctx : FileContext) (seen : Seen) (f : Focus) : Seen :=
  ⟨seen.rawCalls + (if (x.rawPath? ctx f.node).isSome then 1 else 0), seen.isScoped || scopes ctx f.node⟩

theorem foldl_take (places : List Focus) (seen : Seen) : places.foldl (x.take ctx) seen =
    ⟨seen.rawCalls + (places.filter fun f => (x.rawPath? ctx f.node).isSome).length,
      seen.isScoped || places.any (scopes ctx ·.node)⟩ := by
  induction places generalizing seen with
  | nil => simp
  | cons f places ih =>
    rw [List.foldl_cons, ih, List.any_cons, List.filter_cons, take, Bool.or_assoc, Nat.add_assoc]
    cases (x.rawPath? ctx f.node).isSome <;> simp [Nat.add_comm]

theorem gathers_checker (x : NotifierMetadata) (ctx : FileContext) (places : List Focus) :
    x.checker.Gathers ctx ⟨0, false⟩ (x.take ctx) (x.judge ctx ·.node) (x.verdict ctx) places where
  start := rfl
  visit := by
    intro f _ _ seen k
    have hsee : x.see ctx seen f.node = (x.take ctx seen f, x.judge ctx f.node) := see_eq seen f.node
    simp only [checker]
    rw [hsee]
    simp [bind, Reporting.bind, Reply.report, liftM, monadLift, MonadLift.monadLift, pure]
  finish _ _ := rfl

theorem verdict_eq (count : Nat) (isScoped : Bool) : x.verdict ctx ⟨count, isScoped⟩ =
    if x.threshold ≤ count ∧ isScoped = false then [suggestion ctx count] else [] := by
  cases isScoped with
  | true => simp [verdict]
  | false =>
    simp only [verdict, Bool.not_false, Bool.and_true, decide_eq_true_iff, and_true]
    rfl

/-- The places of the calls of a notifier, in document order. -/
def rawCalls (x : NotifierMetadata) (ctx : FileContext) (root : Node) : List Focus :=
  ((Focus.root root).subtree.filter (·.node.kind ∈ x.checker.kinds)).filter fun f => (x.rawPath? ctx f.node).isSome

theorem ofWalk_checker (x : NotifierMetadata) (ctx : FileContext) {bound : Nat}
    (hbound : ∀ f ∈ (Focus.root root).subtree, f.depth ≤ bound) :
    (FileAnalysis.ofWalk [x.checker] bound ctx root).violations =
        ((x.rawCalls ctx root).map (x.judge ctx ·.node)).flatten ++
          x.verdict ctx ⟨(x.rawCalls ctx root).length,
            ((Focus.root root).subtree.filter (·.node.kind ∈ x.checker.kinds)).any (scopes ctx ·.node)⟩ ∧
      (FileAnalysis.ofWalk [x.checker] bound ctx root).faults = [] := by
  obtain ⟨hviolations, hfaults⟩ := Walk.ofWalk_of_gathers (gathers_checker x ctx ((Focus.root root).within bound))
  rw [Focus.within_eq_subtree hbound, ← flatMap_filter_eq (p := fun f => (x.rawPath? ctx f.node).isSome),
    List.flatMap_def] at hviolations
  · refine ⟨hviolations.trans (congrArg _ ((congrArg (x.verdict ctx) (foldl_take _ _)).trans ?_)), hfaults⟩
    rw [Nat.zero_add, Bool.false_or]
    rfl
  · exact fun f _ h => judge_of_rawPath?_eq_none (Option.isNone_iff_eq_none.1 (Option.isSome_eq_false_iff.1 h))

theorem mem_rawCalls_iff : f ∈ x.rawCalls ctx root ↔
    f ∈ (Focus.root root).subtree ∧ ∃ path, CallsOn ctx f.node path ∧ x.IsRaw path := by
  rw [rawCalls, List.mem_filter, List.mem_filter, and_assoc, Option.isSome_iff_exists, decide_eq_true_iff]
  refine and_congr_right fun _ => ?_
  constructor
  · rintro ⟨hkind, path, hpath⟩
    exact ⟨path, (rawPath?_eq_some_iff (List.mem_singleton.1 hkind)).1 hpath⟩
  · rintro ⟨path, hcall, hraw⟩
    exact ⟨List.mem_singleton.2 hcall.kind, path, (rawPath?_eq_some_iff hcall.kind).2 ⟨hcall, hraw⟩⟩

/-- Whether a notifier with a context is made somewhere in a module. -/
def HasScopedCall (ctx : FileContext) (root : Node) : Prop :=
  ∃ f ∈ (Focus.root root).subtree, ∃ path, CallsOn ctx f.node path ∧ IsScoped path

theorem any_scopes_iff : ((Focus.root root).subtree.filter (·.node.kind ∈ x.checker.kinds)).any (scopes ctx ·.node) =
    true ↔ HasScopedCall ctx root := by
  simp only [List.any_eq_true, List.mem_filter, decide_eq_true_iff, and_assoc]
  refine exists_congr fun f => and_congr_right fun _ => ?_
  constructor
  · rintro ⟨hkind, hscopes⟩
    exact (scopes_iff (List.mem_singleton.1 hkind)).1 hscopes
  · rintro ⟨path, hcall, hscoped⟩
    exact ⟨List.mem_singleton.2 hcall.kind, (scopes_iff hcall.kind).2 ⟨path, hcall, hscoped⟩⟩

/-- The calls of a notifier are judged one by one in document order. Behind that a notifier of its own is suggested to
the module, once, when it makes enough of them and no such notifier anywhere. -/
theorem violations_of_depth_le (x : NotifierMetadata) (ctx : FileContext) {bound : Nat}
    (hbound : ∀ f ∈ (Focus.root root).subtree, f.depth ≤ bound) :
    (FileAnalysis.ofWalk [x.checker] bound ctx root).faults = [] ∧
      ∃ (calls : List Focus) (found : List (List Violation)) (last : List Violation),
        calls.Pairwise (fun f g => f.isBefore g = true) ∧
        (∀ call, call ∈ calls ↔
          call ∈ (Focus.root root).subtree ∧ ∃ path, CallsOn ctx call.node path ∧ x.IsRaw path) ∧
        List.Forall₂ (fun call vs => ∃ path, CallsOn ctx call.node path ∧ Judged x ctx call.node path vs)
          calls found ∧
        (FileAnalysis.ofWalk [x.checker] bound ctx root).violations = found.flatten ++ last ∧
        (x.threshold ≤ calls.length ∧ ¬ HasScopedCall ctx root → last = [suggestion ctx calls.length]) ∧
        (calls.length < x.threshold ∨ HasScopedCall ctx root → last = []) ∧
        (suggestion ctx calls.length).location = .ofFile ctx.relative := by
  obtain ⟨hviolations, hfaults⟩ := ofWalk_checker x ctx hbound
  refine ⟨hfaults, x.rawCalls ctx root, _, _, ((Focus.subtree_pairwise _).filter _).filter _,
    fun call => mem_rawCalls_iff, ?_, hviolations, ?_, ?_, rfl⟩
  · rw [List.forall₂_map_right_iff, List.forall₂_same]
    intro call hcall
    obtain ⟨path, hpath⟩ := Option.isSome_iff_exists.1 (List.mem_filter.1 hcall).2
    obtain ⟨-, path', hcalls, hraw⟩ := mem_rawCalls_iff.1 hcall
    have hpath' := (rawPath?_eq_some_iff hcalls.kind).1 hpath
    exact ⟨path, hpath'.1, judged_judge hpath⟩
  · rintro ⟨hcount, hscoped⟩
    rw [verdict_eq, if_pos ⟨hcount, Bool.eq_false_iff.2 (mt any_scopes_iff.1 hscoped)⟩]
  · intro h
    rw [verdict_eq, if_neg]
    rintro ⟨hcount, hscoped⟩
    rcases h with hfew | hsome
    · omega
    · exact Bool.false_ne_true (hscoped.symm.trans (any_scopes_iff.2 hsome))

/-- The usual tables, with a suggestion from so many calls on. -/
def standard (threshold : Nat) : NotifierMetadata :=
  ⟨["notify", "notifier"], ["info", "warn", "warning", "error", "success", "debug"], ["group", "context"], threshold⟩

/-- The callee `notify.method` at this offset. -/
def notifyAccess (method : String) (start : Nat) : Node :=
  .plain "member_expression" "function" start (start + 7 + method.length)
    [.plain "identifier" "object" start (start + 6) [],
      .plain "property_identifier" "property" (start + 7) (start + 7 + method.length) []]

/-- The call `notify.warn('slow')`. -/
def warnCall : Node :=
  .plain "call_expression" "" 0 19
    [notifyAccess "warn" 0, .plain "arguments" "arguments" 11 19 [.plain "string" "" 12 18 []]]

/-- The call `notify.info('m', { group: 'g' })` behind it. -/
def infoCall : Node :=
  .plain "call_expression" "" 21 53 [notifyAccess "info" 21, .plain "arguments" "arguments" 32 53
    [.plain "string" "" 33 36 [], .plain "object" "" 38 52 [.plain "pair" "" 40 50
      [.plain "property_identifier" "key" 40 45 [], .plain "string" "value" 47 50 []]]]]

/-- The call `notify.withContext()` behind it. -/
def scopedCall : Node :=
  .plain "call_expression" "" 21 41 [notifyAccess "withContext" 21, .plain "arguments" "arguments" 39 41 []]

def warned (text : String) (other : Node) : FileContext × Node :=
  (.ofFile ⟨"/app"⟩ ⟨"/app/a.js"⟩ ("notify.warn('slow'); " ++ text ++ ";"), .plain "program" "" 0 (other.stop + 1)
    [.plain "expression_statement" "" 0 20 [warnCall], .plain "expression_statement" "" 21 (other.stop + 1) [other]])

/-- The source `notify.warn('slow'); notify.info('m', { group: 'g' });`. -/
def informed : FileContext × Node :=
  warned "notify.info('m', \x7b group: 'g' \x7d)" infoCall

/-- The source `notify.warn('slow'); notify.withContext();`. -/
def scopedBehind : FileContext × Node :=
  warned "notify.withContext()" scopedCall

theorem CallsOn.path_eq {callee : Node} {path' : List String} (h : CallsOn ctx call path)
    (hcallee : call.child? "function" = some callee) (hpath : callee.accessTail ctx.source = path') : path = path' := by
  obtain ⟨-, callee', hcallee', rfl⟩ := h
  rw [← hpath, Option.some.inj (hcallee'.symm.trans hcallee)]

theorem eq_rawCalls {calls : List Focus} (hordered : calls.Pairwise fun f g => f.isBefore g = true)
    (hcalls : ∀ call, call ∈ calls ↔
      call ∈ (Focus.root root).subtree ∧ ∃ path, CallsOn ctx call.node path ∧ x.IsRaw path) :
    calls = x.rawCalls ctx root :=
  Focus.eq_of_pairwise_isBefore hordered (((Focus.subtree_pairwise _).filter _).filter _)
    fun call => (hcalls call).trans mem_rawCalls_iff.symm

theorem map_node_rawCalls : (x.rawCalls ctx root).map (·.node) =
    (((Focus.root root).subtree.filter (·.node.kind ∈ x.checker.kinds)).map (·.node)).filter
      fun n => (x.rawPath? ctx n).isSome := by
  rw [List.filter_map]
  rfl

theorem map_node_rawCalls_informed :
    ((standard 2).rawCalls informed.1 informed.2).map (·.node) = [warnCall, infoCall] := by
  have hcalls : ((Focus.root informed.2).subtree.filter (·.node.kind ∈ (standard 2).checker.kinds)).map (·.node) =
      [warnCall, infoCall] := rfl
  have hraw : ∀ n ∈ [warnCall, infoCall], ((standard 2).rawPath? informed.1 n).isSome = true := by decide +kernel
  rw [map_node_rawCalls, hcalls, List.filter_eq_self.2 hraw]

theorem map_node_rawCalls_scopedBehind :
    ((standard 1).rawCalls scopedBehind.1 scopedBehind.2).map (·.node) = [warnCall] := by
  have hcalls : ((Focus.root scopedBehind.2).subtree.filter (·.node.kind ∈ (standard 1).checker.kinds)).map (·.node) =
      [warnCall, scopedCall] := rfl
  have hwarn : ((standard 1).rawPath? scopedBehind.1 warnCall).isSome = true := by decide +kernel
  have hscoped : ¬ ((standard 1).rawPath? scopedBehind.1 scopedCall).isSome = true := by decide +kernel
  rw [map_node_rawCalls, hcalls]
  simp [hwarn, hscoped]

theorem judged_warnCall {threshold : Nat} {vs : List Violation} (h : Judged (standard threshold) ctx warnCall path vs) :
    vs = [bareReport ctx warnCall path] := by
  rcases h with _ | ⟨-, hkeys⟩ | ⟨hoptions, -, -⟩ | ⟨hoptions, -, -⟩ | ⟨hoptions, -⟩
  · rfl
  · cases hkeys
  all_goals cases hoptions

theorem judged_infoCall {threshold : Nat} {vs : List Violation}
    (h : Judged (standard threshold) informed.1 infoCall path vs) :
    vs = [lackReport informed.1 infoCall path ["context"]] := by
  have hlacking {options : Node} (hoptions : infoCall.callArguments[1]? = some options) :
      (standard threshold).lacking informed.1.source options = ["context"] := by
    cases hoptions
    change (standard 0).lacking _ _ = _
    decide +kernel
  rcases h with ⟨hnone, -⟩ | ⟨hnone, -⟩ | ⟨hoptions, -, -⟩ | ⟨hoptions, -, hcomplete⟩ | ⟨hoptions, hkind⟩
  · cases hnone
  · cases hnone
  · rw [hlacking hoptions]
  · rw [hlacking hoptions] at hcomplete
    cases hcomplete
  · cases hoptions
    exact absurd rfl hkind

theorem not_hasScopedCall_informed : ¬ HasScopedCall informed.1 informed.2 := by
  rw [← any_scopes_iff (x := standard 2)]
  decide +kernel

theorem hasScopedCall_scopedBehind : HasScopedCall scopedBehind.1 scopedBehind.2 := by
  rw [← any_scopes_iff (x := standard 2)]
  decide +kernel

theorem callsOn_warnCall_informed (h : CallsOn informed.1 warnCall path) : path = ["notify", "warn"] :=
  h.path_eq rfl (by decide +kernel)

theorem callsOn_infoCall_informed (h : CallsOn informed.1 infoCall path) : path = ["notify", "info"] :=
  h.path_eq rfl (by decide +kernel)

theorem callsOn_warnCall_scopedBehind (h : CallsOn scopedBehind.1 warnCall path) : path = ["notify", "warn"] :=
  h.path_eq rfl (by decide +kernel)

theorem violations_informed :
    (FileAnalysis.ofWalk [(standard 2).checker] 4096 informed.1 informed.2).violations =
        [bareReport informed.1 warnCall ["notify", "warn"],
          lackReport informed.1 infoCall ["notify", "info"] ["context"], suggestion informed.1 2] ∧
      (FileAnalysis.ofWalk [(standard 1).checker] 4096 scopedBehind.1 scopedBehind.2).violations =
        [bareReport scopedBehind.1 warnCall ["notify", "warn"]] := by
  have hdepth : ∀ f ∈ (Focus.root informed.2).subtree, f.depth ≤ 4096 := by decide
  have hdepth' : ∀ f ∈ (Focus.root scopedBehind.2).subtree, f.depth ≤ 4096 := by decide
  constructor
  · obtain ⟨-, calls, found, last, hordered, hcalls, hjudged, hviolations, hmany, -⟩ :=
      violations_of_depth_le (standard 2) informed.1 hdepth
    have hnodes : calls.map (·.node) = [warnCall, infoCall] := by
      rw [eq_rawCalls hordered hcalls, map_node_rawCalls_informed]
    have hcount : calls.length = 2 := by rw [← List.length_map, hnodes, List.length_cons, List.length_singleton]
    have hlast : last = [suggestion informed.1 2] := by
      rw [hmany ⟨Nat.le_of_eq hcount.symm, not_hasScopedCall_informed⟩, hcount]
    have hjudged : List.Forall₂ (fun n vs => ∃ path, CallsOn informed.1 n path ∧
        Judged (standard 2) informed.1 n path vs) [warnCall, infoCall] found := by
      rwa [← hnodes, List.forall₂_map_left_iff]
    rcases hjudged with _ | ⟨⟨path, hpath, hwarn⟩, _ | ⟨⟨path', hpath', hinfo⟩, _ | _⟩⟩
    rw [hviolations, hlast, judged_warnCall hwarn, judged_infoCall hinfo, callsOn_warnCall_informed hpath,
      callsOn_infoCall_informed hpath']
    rfl
  · obtain ⟨-, calls, found, last, hordered, hcalls, hjudged, hviolations, -, hnone, -⟩ :=
      violations_of_depth_le (standard 1) scopedBehind.1 hdepth'
    have hnodes : calls.map (·.node) = [warnCall] := by
      rw [eq_rawCalls hordered hcalls, map_node_rawCalls_scopedBehind]
    have hlast : last = [] := hnone (.inr hasScopedCall_scopedBehind)
    have hjudged : List.Forall₂ (fun n vs => ∃ path, CallsOn scopedBehind.1 n path ∧
        Judged (standard 1) scopedBehind.1 n path vs) [warnCall] found := by
      rwa [← hnodes, List.forall₂_map_left_iff]
    rcases hjudged with _ | ⟨⟨path, hpath, hwarn⟩, _ | _⟩
    rw [hviolations, hlast, judged_warnCall hwarn, callsOn_warnCall_scopedBehind hpath]
    rfl

end Guardrails.NotifierMetadata
