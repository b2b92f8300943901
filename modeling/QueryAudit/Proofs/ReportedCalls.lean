import Mathlib.Data.List.Nodup
import QueryAudit.Proofs.SettledCalls
import QueryAudit.Proofs.TreeInduction

/-! A pass that is not cancelled reports exactly the calls that have to be reported, each once. A
call may be reached on two ways, by its own visit and from the call around it; the numbers of
calls keep these apart, because a chained receiver is always the next call in visiting order. -/
namespace QueryAudit

namespace Pass

variable {config : Config}

/-! ## Every candidate is settled once -/

/-- The receiver that a call is chained to is the call that follows it. -/
def Linked (config : Config) : List Call → Prop
  | [] => True
  | call :: rest =>
    (∀ receiver, call.chained? config = some receiver → rest.head? = some receiver) ∧
      Linked config rest

theorem Linked.append {left right : List Call} (first : Linked config left)
    (second : Linked config right) : Linked config (left ++ right) := by
  induction left with
  | nil => exact second
  | cons call rest ih =>
    refine ⟨?_, ih first.2⟩
    intro receiver chained
    have next := first.1 receiver chained
    cases rest with
    | nil => cases next
    | cons _ _ => exact next

theorem Linked.flatMap {α : Type} {items : List α} {calls : α → List Call}
    (linked : ∀ item ∈ items, Linked config (calls item)) : Linked config (items.flatMap calls) := by
  induction items with
  | nil => trivial
  | cons item rest ih =>
    rw [List.flatMap_cons]
    exact (linked item List.mem_cons_self).append
      (ih fun item listed => linked item (List.mem_cons_of_mem _ listed))

/-- A chained receiver is the first call in the callee. -/
theorem head?_calls_of_chained {call receiver : Call}
    (chained : call.chained? config = some receiver) :
    call.callee.calls.head? = some receiver := by
  unfold Call.chained? at chained
  split at chained
  · next marks callee arguments name shape =>
    simp only [Option.ite_none_right_eq_some, Option.some.injEq] at chained
    rw [shape, ← chained.2]
    simp [Expr.calls]
  · cases chained

theorem calls_linked (config : Config) (expr : Expr) : Linked config expr.calls := by
  induction expr with
  | anonymous marks members ih =>
    rw [Expr.calls, Expr.slotCalls_eq]
    exact .flatMap ih
  | call marks callee arguments calleeLinked ih =>
    rw [Expr.calls, Expr.slotCalls_eq]
    refine ⟨?_, calleeLinked.append (.flatMap ih)⟩
    intro receiver chained
    rw [List.head?_append, head?_calls_of_chained chained]
    rfl
  | cast marks typeName value ih | lambda marks parameters value ih | member marks value name ih
  | paren marks value ih =>
    rw [Expr.calls]
    exact ih
  | identifier | literal => simp [Expr.calls, Linked]
  | other marks text children ih =>
    rw [Expr.calls, Expr.childCalls_eq]
    exact .flatMap ih

theorem childCalls_linked (config : Config) (roots : List Expr) :
    Linked config (Expr.childCalls roots) := by
  rw [Expr.childCalls_eq]
  exact .flatMap fun root _ => calls_linked config root

/-- A chained receiver has the shape of an operator itself. -/
theorem isCandidate_of_chained {call receiver : Call}
    (chained : call.chained? config = some receiver) : receiver.isCandidate config = true := by
  unfold Call.chained? at chained
  split at chained
  · next marks callee arguments name shape =>
    simp only [Option.ite_none_right_eq_some, Option.some.injEq] at chained
    obtain ⟨named, rfl⟩ := chained
    unfold Call.namesOperator at named
    unfold Call.isCandidate
    split at named <;> simp_all
  · cases chained

/-- The sites of a list of calls, without the first call if that is settled already. -/
def openSites (settled : Bool) (number : Nat) (calls : List Call) : List Site :=
  (calls.zipIdx number).drop (if settled then 1 else 0)

/-- Settling takes up every open candidate exactly once. -/
theorem settleOrder_perm {settled : Bool} {number : Nat} {calls : List Call}
    (linked : Linked config calls) :
    (settleOrder config settled number calls).Perm
      ((openSites settled number calls).filter (·.1.isCandidate config)) := by
  induction calls generalizing settled number with
  | nil => cases settled <;> exact .nil
  | cons call rest ih =>
    have others := @ih (call.chained? config).isSome (number + 1) linked.2
    let own := if call.isCandidate config && !settled then [(call, number)] else []
    let receivers := (call.chained? config).toList.map fun receiver => (receiver, number + 1)
    have first : (openSites settled number (call :: rest)).filter (·.1.isCandidate config) =
        own ++ (rest.zipIdx (number + 1)).filter (·.1.isCandidate config) := by
      cases settled <;> cases candidate : call.isCandidate config <;>
        simp [openSites, own, List.zipIdx_cons, candidate]
    have second : receivers ++ (openSites (call.chained? config).isSome (number + 1) rest).filter
        (·.1.isCandidate config) = (rest.zipIdx (number + 1)).filter (·.1.isCandidate config) := by
      cases chained : call.chained? config with
      | none => simp [receivers, openSites, chained]
      | some receiver =>
        have next := linked.1 receiver chained
        cases rest with
        | nil => cases next
        | cons head tail =>
          cases Option.some.inj next
          simp [receivers, openSites, chained, List.zipIdx_cons, isCandidate_of_chained chained]
    have swapped : (settleOrder config settled number (call :: rest)).Perm
        ((own ++ receivers) ++
          settleOrder config (call.chained? config).isSome (number + 1) rest) :=
      List.perm_append_comm.append_right _
    rw [first, ← second, ← List.append_assoc]
    exact swapped.trans (others.append_left _)

/-- The sites of a pass are the candidates among the calls of the unit. -/
theorem sitesOf_perm (config : Config) (roots : List Expr) :
    (sitesOf config roots).Perm
      ((Expr.childCalls roots).zipIdx.filter (·.1.isCandidate config)) :=
  settleOrder_perm (childCalls_linked config roots)

theorem sitesOf_nodup (config : Config) (roots : List Expr) : (sitesOf config roots).Nodup := by
  refine (sitesOf_perm config roots).nodup_iff.mpr (List.Nodup.filter _ ?_)
  apply List.Nodup.of_map Prod.snd
  rw [List.zipIdx_map_snd]
  exact List.nodup_range'

theorem mem_sitesOf {roots : List Expr} {call : Call} {number : Nat} :
    (call, number) ∈ sitesOf config roots ↔
      (Expr.childCalls roots)[number]? = some call ∧ call.isCandidate config = true := by
  rw [(sitesOf_perm config roots).mem_iff, List.mem_filter, List.mk_mem_zipIdx_iff_getElem?]

end Pass

/-! ## Calls that have to be reported -/

/-- The shapes of an operator call: the operator by its bare name, or a member that is named like
an operator or whose receiver is. -/
inductive Call.OperatorShaped (config : Config) (call : Call) : Prop where
  | bare {marks : Marks} {name : String} (callee : call.callee = .identifier marks name)
      (recognized : config.isOperator name = true)
  | named {marks : Marks} {receiver : Expr} {name : String}
      (callee : call.callee = .member marks receiver name)
      (recognized : config.isOperator name = true)
  | ofIdentifier {marks inner : Marks} {receiver name : String}
      (callee : call.callee = .member marks (.identifier inner receiver) name)
      (recognized : config.isOperator receiver = true)
  | ofMember {marks inner : Marks} {left : Expr} {receiver name : String}
      (callee : call.callee = .member marks (.member inner left receiver) name)
      (recognized : config.isOperator receiver = true)

/-- An expression inside any number of parentheses and casts. -/
inductive Expr.Wraps : Expr → Expr → Prop where
  | bare {expr : Expr} : Wraps expr expr
  | paren {marks : Marks} {value expr : Expr} (inside : Wraps value expr) :
      Wraps (.paren marks value) expr
  | cast {marks : Marks} {typeName : String} {value expr : Expr} (inside : Wraps value expr) :
      Wraps (.cast marks typeName value) expr

/-- A call that has to be reported: it has the shape of an operator and is bound to a method of
the remote family, and its first argument, whatever it is wrapped in, is a lambda whose body has a
type that is not plain data within the limit. -/
def Reportable (config : Config) (model : Model) (call : Call) : Prop :=
  call.OperatorShaped config ∧
    (∃ method containing, model.resolve call = some (.method method (some containing)) ∧
      config.remoteFamily.contains containing = true) ∧
    ∃ argument marks parameters body type, call.firstArgument? = some argument ∧
      argument.Wraps (.lambda marks parameters body) ∧ model.converted body = some type ∧
      ¬ ∃ height ≤ config.maxTypeDepth, Evaluability.HasHeight model.types type height

theorem Call.isCandidate_iff {config : Config} {call : Call} :
    call.isCandidate config = true ↔ call.OperatorShaped config := by
  constructor
  · intro candidate
    unfold isCandidate at candidate
    split at candidate
    · next marks receiver name shape =>
      rcases Bool.or_eq_true_iff.mp candidate with recognized | recognized
      · unfold receiverNames at recognized
        split at recognized
        · exact .ofIdentifier shape recognized
        · exact .ofMember shape recognized
        · cases recognized
      · exact .named shape recognized
    · next marks name shape => exact .bare shape candidate
    · cases candidate
  · rintro (⟨shape, recognized⟩ | ⟨shape, recognized⟩ | ⟨shape, recognized⟩ | ⟨shape, recognized⟩) <;>
      simp [isCandidate, receiverNames, shape, recognized]

/-- Wrappers are taken off down to what is no wrapper. -/
theorem Expr.Wraps.unwrapped_eq {expr bare : Expr} (wraps : expr.Wraps bare) :
    expr.unwrapped = bare.unwrapped := by
  induction wraps with
  | bare => rfl
  | paren _ ih | cast _ ih => rw [Expr.unwrapped, ih]

theorem Expr.wraps_lambda_iff {expr : Expr} {marks : Marks} {parameters : List String}
    {body : Expr} :
    expr.Wraps (.lambda marks parameters body) ↔
      expr.unwrapped = .lambda marks parameters body := by
  constructor
  · intro wraps
    simpa only [Expr.unwrapped] using wraps.unwrapped_eq
  · intro shape
    induction expr with
    | paren marks value ih =>
      rw [Expr.unwrapped] at shape
      exact .paren (ih shape)
    | cast marks typeName value ih =>
      rw [Expr.unwrapped] at shape
      exact .cast (ih shape)
    | lambda =>
      rw [Expr.unwrapped] at shape
      · rw [shape]
        exact .bare
      all_goals simp
    | _ => simp [Expr.unwrapped] at shape

/-- What has to be reported is what settling a candidate finds. -/
theorem reportable_iff (context : Context) (call : Call) :
    Reportable context.config context.model call ↔
      call.isCandidate context.config = true ∧ (context.finding? call).isSome = true := by
  rw [Call.isCandidate_iff]
  refine and_congr Iff.rfl ?_
  have finds := context.finds_finding? call
  constructor
  · rintro ⟨⟨method, containing, resolved, remote⟩, argument, marks, parameters, body, type, first,
      wraps, typed, refused⟩
    have projects : context.Projects call method body type :=
      .intro resolved remote first (Expr.wraps_lambda_iff.mp wraps) typed
    generalize context.finding? call = finding at finds
    cases finds with
    | refused => rfl
    | nothing carried => exact absurd (carried method body type projects) refused
  · intro found
    generalize context.finding? call = finding at finds found
    cases finds with
    | refused projects refused faults =>
      obtain ⟨resolved, remote, first, lambda, typed⟩ := projects
      exact ⟨⟨_, _, resolved, remote⟩, _, _, _, _, _, first, Expr.wraps_lambda_iff.mpr lambda, typed,
        refused⟩
    | nothing => cases found

/-- A diagnostic on a call: it stands at the call and quotes it, and it labels the body of the
lambda with a type found inside the type of the body. -/
def Reports (context : Context) (call : Call) (diagnostic : Diagnostic) : Prop :=
  ∃ method body type offender, context.Projects call method body type ∧
    Evaluability.Reaches context.model.types type offender ∧
    diagnostic = context.diagnose call body offender type

theorem reports_of_finding {context : Context} {call : Call} {diagnostic : Diagnostic}
    (found : context.finding? call = some diagnostic) : Reports context call diagnostic := by
  have finds := context.finds_finding? call
  rw [found] at finds
  cases finds with
  | refused projects _ faults => exact ⟨_, _, _, _, projects, faults.reaches, rfl⟩

theorem forall₂_findings (context : Context) (sites : List Pass.Site) :
    List.Forall₂ (fun site diagnostic => Reports context site.1 diagnostic)
      (sites.filter fun site => (context.finding? site.1).isSome)
      (sites.flatMap fun site => (context.finding? site.1).toList) := by
  induction sites with
  | nil => exact .nil
  | cons site rest ih =>
    rw [List.flatMap_cons]
    cases found : context.finding? site.1 with
    | none => simpa [found] using ih
    | some diagnostic =>
      rw [List.filter_cons_of_pos (by simp [found])]
      exact .cons (reports_of_finding found) ih

/-- A pass that is not cancelled makes one diagnostic for each call of the unit that has to be
reported, wherever it stands in the trees, none for any other, and counts them. -/
theorem checkUnit_reports_exactly (config : Config) (model : Model) (unit : SourceUnit) :
    ∃ sites : List (Call × Nat), sites.Nodup ∧
      (∀ call number, (call, number) ∈ sites ↔
        (Expr.childCalls unit.roots)[number]? = some call ∧ Reportable config model call) ∧
      (∀ call, (∃ number, (call, number) ∈ sites) ↔
        (∃ root ∈ unit.roots, Expr.Holds call root) ∧ Reportable config model call) ∧
      List.Forall₂ (fun site diagnostic =>
          Reports ⟨config, model, unit.file, unit.text⟩ site.1 diagnostic)
        sites (Pass.checkUnit config model .never unit).diagnostics ∧
      (Pass.checkUnit config model .never unit).summary.reported = sites.length ∧
      (Pass.checkUnit config model .never unit).summary.cancelled = false := by
  let context : Context := ⟨config, model, unit.file, unit.text⟩
  let sites := (Pass.sitesOf config unit.roots).filter fun site => (context.finding? site.1).isSome
  obtain ⟨diagnostics, summary⟩ := Pass.checkUnit_settles config model unit
  have exact : ∀ call number, (call, number) ∈ sites ↔
      (Expr.childCalls unit.roots)[number]? = some call ∧ Reportable config model call := by
    intro call number
    rw [List.mem_filter, Pass.mem_sitesOf, and_assoc]
    exact and_congr Iff.rfl (reportable_iff context call).symm
  refine ⟨sites, (Pass.sitesOf_nodup config unit.roots).filter _, exact, ?_, ?_, ?_, ?_⟩
  · intro call
    rw [← Expr.mem_childCalls_iff, List.mem_iff_getElem?]
    simp only [exact, exists_and_right]
  · rw [diagnostics]
    exact forall₂_findings context _
  · rw [summary, List.countP_eq_length_filter]
  · rw [summary]

end QueryAudit
