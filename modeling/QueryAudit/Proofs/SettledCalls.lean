import Mathlib.Data.List.Forall2
import QueryAudit.Pass.Run
import QueryAudit.Proofs.BlamedTypes

/-! What a pass that is not cancelled does. Settling a call finds the same thing whatever the pass
remembers, so a pass comes down to the order in which it settles calls: a chained receiver before
the call around it, and nothing twice. -/
namespace QueryAudit

variable {context : Context} {call : Call} {memo : Evaluability.Memo} {method : String}
  {body : Expr} {type : TypeId}

/-! ## Settling one call -/

namespace Context

/-- A memory that may be used for the types and the limit of a pass. -/
abbrev Trusts (context : Context) (memo : Evaluability.Memo) : Prop :=
  memo.Sound context.model.types context.config.maxTypeDepth

theorem trusts_empty (context : Context) : context.Trusts {} :=
  .empty _ _

/-- Plain data within the limit of a pass. -/
abbrev Carries (context : Context) (type : TypeId) : Prop :=
  Evaluability.PlainWithin context.model.types context.config.maxTypeDepth type

/-- The types that an explanation in a pass leads to. -/
abbrev Faults (context : Context) (type offender : TypeId) : Prop :=
  Evaluability.Walk context.model.types context.config.maxTypeDepth context.config.maxTypeDepth []
    type offender

/-- A call of a remote method whose first argument is a lambda with a typed body. -/
inductive Projects (context : Context) (call : Call) : String → Expr → TypeId → Prop where
  | intro {method containing : String} {argument body : Expr} {marks : Marks}
      {parameters : List String} {type : TypeId}
      (resolved : context.model.resolve call = some (.method method (some containing)))
      (remote : context.config.remoteFamily.contains containing = true)
      (first : call.firstArgument? = some argument)
      (lambda : argument.unwrapped = .lambda marks parameters body)
      (typed : context.model.converted body = some type) : Projects context call method body type

theorem Projects.unique {otherMethod : String} {otherBody : Expr} {otherType : TypeId}
    (left : context.Projects call method body type)
    (right : context.Projects call otherMethod otherBody otherType) :
    method = otherMethod ∧ body = otherBody ∧ type = otherType := by
  obtain ⟨resolved, _, first, lambda, typed⟩ := left
  obtain ⟨resolvedAgain, _, firstAgain, lambdaAgain, typedAgain⟩ := right
  cases resolved.symm.trans resolvedAgain
  cases first.symm.trans firstAgain
  cases lambda.symm.trans lambdaAgain
  cases typed.symm.trans typedAgain
  exact ⟨rfl, rfl, rfl⟩

/-- A call that projects is judged by the type of the body. -/
theorem classify_projects (projects : context.Projects call method body type)
    (memo : Evaluability.Memo) :
    context.classify memo call =
      let judged := context.judge memo call method body type
      (judged.1, .askedSymbol call :: .askedType body :: judged.2.1, judged.2.2) := by
  obtain ⟨resolved, remote, first, lambda, typed⟩ := projects
  have isRemote : context.isRemote (some _) = true := remote
  simp only [classify, resolved, isRemote, ↓reduceIte, first, lambda, typed]

/-- Any other call is passed over without a look at the memory. -/
theorem classify_passes (other : ∀ method body type, ¬ context.Projects call method body type) :
    ∃ verdict events, verdict ≠ .reported ∧ Event.diagnostics events = [] ∧
      ∀ memo, context.classify memo call = (verdict, events, memo) := by
  unfold classify
  cases resolved : context.model.resolve call with
  | none => exact ⟨_, _, by decide, rfl, fun memo => rfl⟩
  | some symbol =>
    cases symbol with
    | other kind => exact ⟨_, _, by decide, rfl, fun memo => rfl⟩
    | method method containingType =>
      by_cases remote : context.isRemote containingType = true
      · simp only [remote, ↓reduceIte]
        cases first : call.firstArgument? with
        | none => exact ⟨_, _, by decide, rfl, fun memo => rfl⟩
        | some argument =>
          cases lambda : argument.unwrapped with
          | lambda marks parameters body =>
            cases typed : context.model.converted body with
            | none =>
              simp only [lambda, typed]
              exact ⟨_, _, by decide, rfl, fun memo => rfl⟩
            | some type =>
              cases containingType with
              | none => exact absurd remote (by simp [isRemote])
              | some containing =>
                exact absurd (.intro resolved remote first lambda typed) (other method body type)
          | _ =>
            simp only [lambda]
            exact ⟨_, _, by decide, rfl, fun memo => rfl⟩
      · simp only [remote, Bool.false_eq_true, ↓reduceIte]
        exact ⟨_, _, by decide, rfl, fun memo => rfl⟩

theorem diagnostics_looked (lookups : List Evaluability.Lookup) (rest : List Event) :
    Event.diagnostics (lookups.map (fun lookup => .traced (.evaluated lookup)) ++ rest) =
      Event.diagnostics rest := by
  induction lookups with
  | nil => rfl
  | cons lookup lookups ih => exact ih

/-- A body is reported exactly when its type is refused, with a type that the explanation leads
to. -/
theorem judge_answered (sound : context.Trusts memo) (call : Call) (method : String) (body : Expr)
    (type : TypeId) :
    let judged := context.judge memo call method body type
    (context.Carries type → judged.1 ≠ .reported ∧ Event.diagnostics judged.2.1 = []) ∧
      (¬ context.Carries type → judged.1 = .reported ∧ ∃ offender, context.Faults type offender ∧
        Event.diagnostics judged.2.1 = [context.diagnose call body offender type]) ∧
      context.Trusts judged.2.2 := by
  obtain ⟨outcome, soundAfter⟩ := Evaluability.evaluate_answered sound type
  obtain ⟨_, faulty, soundLast⟩ := Evaluability.explain_answered soundAfter type
  simp only [judge]
  by_cases plain : (Evaluability.evaluate context.model.types context.config.maxTypeDepth memo
      type).1.outcome = true
  · simp only [plain, ↓reduceIte]
    exact ⟨fun _ => ⟨by decide, rfl⟩, fun refused => absurd (outcome.mp plain) refused, soundAfter⟩
  · simp only [plain, Bool.false_eq_true, ↓reduceIte]
    refine ⟨fun carried => absurd (outcome.mpr carried) plain, fun refused => ⟨trivial, ?_⟩,
      soundLast⟩
    obtain ⟨offender, blamed, walk⟩ := faulty refused
    refine ⟨offender, walk, ?_⟩
    rw [diagnostics_looked, blamed]
    rfl

/-- What there is to find at a call, apart from any memory. -/
inductive Finds (context : Context) (call : Call) : Option Diagnostic → Prop where
  | refused {method : String} {body : Expr} {type offender : TypeId}
      (projects : context.Projects call method body type) (refused : ¬ context.Carries type)
      (faults : context.Faults type offender) :
      Finds context call (some (context.diagnose call body offender type))
  | nothing
      (carried : ∀ method body type, context.Projects call method body type →
        context.Carries type) : Finds context call none

theorem Finds.unique {first second : Option Diagnostic} (left : context.Finds call first)
    (right : context.Finds call second) : first = second := by
  cases left with
  | refused projects refused faults =>
    cases right with
    | refused projectsAgain refusedAgain faultsAgain =>
      obtain ⟨rfl, rfl, rfl⟩ := projects.unique projectsAgain
      rw [faults.unique faultsAgain]
    | nothing carried => exact absurd (carried _ _ _ projects) refused
  | nothing carried =>
    cases right with
    | refused projects refused => exact absurd (carried _ _ _ projects) refused
    | nothing => rfl

/-- Settling a call finds what there is to find. -/
theorem classify_finds (sound : context.Trusts memo) (call : Call) :
    ∃ finding, context.Finds call finding ∧
      Event.diagnostics (context.classify memo call).2.1 = finding.toList ∧
      ((context.classify memo call).1 = .reported ↔ finding.isSome) ∧
      context.Trusts (context.classify memo call).2.2 := by
  by_cases projected : ∃ method body type, context.Projects call method body type
  · obtain ⟨method, body, type, projects⟩ := projected
    obtain ⟨plain, faulty, soundAfter⟩ := judge_answered sound call method body type
    rw [classify_projects projects]
    by_cases carried : context.Carries type
    · obtain ⟨verdict, found⟩ := plain carried
      refine ⟨none, .nothing ?_, found, by simpa using verdict, soundAfter⟩
      intro otherMethod otherBody otherType projectsAgain
      obtain ⟨rfl, rfl, rfl⟩ := projects.unique projectsAgain
      exact carried
    · obtain ⟨verdict, offender, faults, found⟩ := faulty carried
      exact ⟨_, .refused projects carried faults, found, by simpa using verdict, soundAfter⟩
  · have other : ∀ method body type, ¬ context.Projects call method body type :=
      fun method body type projects => projected ⟨method, body, type, projects⟩
    obtain ⟨verdict, events, notReported, found, passes⟩ := classify_passes other
    rw [passes memo]
    exact ⟨none, .nothing fun method body type projects => absurd projects (other method body type),
      found, by simpa using notReported, sound⟩

/-- The diagnostic on a call, from a pass that remembers nothing. -/
def finding? (context : Context) (call : Call) : Option Diagnostic :=
  (Event.diagnostics (context.classify {} call).2.1).head?

theorem finds_finding? (context : Context) (call : Call) :
    context.Finds call (context.finding? call) := by
  obtain ⟨finding, finds, found, _⟩ := classify_finds context.trusts_empty call
  have same : context.finding? call = finding := by
    rw [finding?, found]
    cases finding <;> rfl
  rw [same]
  exact finds

theorem finding?_eq {finding : Option Diagnostic} (finds : context.Finds call finding) :
    context.finding? call = finding :=
  (context.finds_finding? call).unique finds

/-- Verdict and diagnostics do not depend on what a pass remembers. -/
theorem classify_finding (sound : context.Trusts memo) (call : Call) :
    Event.diagnostics (context.classify memo call).2.1 = (context.finding? call).toList ∧
      ((context.classify memo call).1 = .reported ↔ (context.finding? call).isSome) ∧
      context.Trusts (context.classify memo call).2.2 := by
  obtain ⟨finding, finds, found, verdict, soundAfter⟩ := classify_finds sound call
  rw [finding?_eq finds]
  exact ⟨found, verdict, soundAfter⟩

end Context

/-! ## Settling the calls of a unit -/

namespace Pass

/-- A call of a unit with its number. -/
abbrev Site : Type :=
  Call × Nat

/-- The sites that are settled when a call is visited: its chained receiver, and the call itself
unless it was settled before. -/
def siteOrder (config : Config) (settled : Bool) (number : Nat) (call : Call) : List Site :=
  (call.chained? config).toList.map (fun receiver => (receiver, number + 1)) ++
    if call.isCandidate config && !settled then [(call, number)] else []

/-- The sites that a pass settles, in order. `settled` says whether the first call was settled
by the call before it. -/
def settleOrder (config : Config) (settled : Bool) (number : Nat) : List Call → List Site
  | [] => []
  | call :: rest =>
    siteOrder config settled number call ++
      settleOrder config (call.chained? config).isSome (number + 1) rest

/-- Calls of the same shapes are settled in the same order, whatever else relates them. -/
theorem settleOrder_rel {config : Config} {related : Call → Call → Prop}
    (candidate : ∀ {call twin}, related call twin →
      call.isCandidate config = twin.isCandidate config)
    (chained : ∀ {call twin}, related call twin →
      Option.Rel related (call.chained? config) (twin.chained? config))
    (settled : Bool) (number : Nat) {calls twins : List Call}
    (same : List.Forall₂ related calls twins) :
    List.Forall₂ (fun site twin => related site.1 twin.1 ∧ site.2 = twin.2)
      (settleOrder config settled number calls) (settleOrder config settled number twins) := by
  induction same generalizing settled number with
  | nil => exact .nil
  | @cons call twin _ _ first _ ih =>
    have own : List.Forall₂ (fun site twin : Site => related site.1 twin.1 ∧ site.2 = twin.2)
        (if call.isCandidate config && !settled then [(call, number)] else [])
        (if twin.isCandidate config && !settled then [(twin, number)] else []) := by
      rw [← candidate first]
      split
      · exact .cons ⟨first, rfl⟩ .nil
      · exact .nil
    have receivers := chained first
    rw [settleOrder, settleOrder, siteOrder, siteOrder]
    generalize call.chained? config = receiver, twin.chained? config = twinReceiver at receivers
    cases receivers with
    | none => exact List.rel_append own (ih ..)
    | some receiver => exact .cons ⟨receiver, rfl⟩ (List.rel_append own (ih ..))

/-- Calls that are changed without a change of their shapes are settled in the same order. -/
theorem settleOrder_map {config : Config} {change : Call → Call}
    (candidate : ∀ call, (change call).isCandidate config = call.isCandidate config)
    (chained : ∀ call, (change call).chained? config = (call.chained? config).map change)
    (settled : Bool) (number : Nat) (calls : List Call) :
    settleOrder config settled number (calls.map change) =
      (settleOrder config settled number calls).map fun site => (change site.1, site.2) := by
  have changed : List.Forall₂ (fun call twin => change call = twin) calls (calls.map change) :=
    List.forall₂_map_right_iff.mpr (List.forall₂_same.mpr fun _ _ => rfl)
  have sites := settleOrder_rel
    (fun {call _} same => by rw [← same, candidate])
    (fun {call _} same => by
      rw [← same, chained]
      cases call.chained? config with
      | none => exact .none
      | some receiver => exact .some rfl)
    settled number changed
  rw [← List.forall₂_eq_eq_eq, List.forall₂_map_right_iff]
  exact sites.flip.imp fun _ _ same => Prod.ext same.1.symm same.2.symm

/-- Visiting a call settles no number past its own but that of its chained receiver. -/
theorem siteOrder_any (config : Config) (settled : Bool) (call : Call) {number other : Nat}
    (past : number < other) :
    (siteOrder config settled number call).any (·.2 == other) =
      ((call.chained? config).isSome && number + 1 == other) := by
  have different : (number == other) = false := by
    rw [beq_eq_false_iff_ne]
    omega
  have own : (if call.isCandidate config && !settled then [(call, number)] else []).any
      (fun site : Site => site.2 == other) = false := by
    split
    · simp [different]
    · rfl
  rw [siteOrder, List.any_append, own, Bool.or_false]
  cases call.chained? config <;> simp

/-- The part of the events of a pass that does not depend on what the pass remembers. -/
def Shows {α : Type} (context : Context) (view : Event → Option α) (shown : Call → List α) : Prop :=
  ∀ memo, context.Trusts memo → ∀ call,
    (context.classify memo call).2.1.filterMap view = shown call

theorem shows_diagnostics (context : Context) :
    Shows context Event.diagnostic? fun call => (context.finding? call).toList :=
  fun _ sound call => (context.classify_finding sound call).1

variable {α : Type} {view : Event → Option α} {shown : Call → List α} {before : State} {number : Nat}
  {settled : Bool} {sites more : List Site}

/-- Some sites have been settled, each for the first time, and nothing else has been done. -/
structure Settles (context : Context) (view : Event → Option α) (shown : Call → List α)
    (before : State) (sites : List Site) (result : List Event × State) : Prop where
  shown : result.1.filterMap view = sites.flatMap fun site => shown site.1
  sound : context.Trusts result.2.memo
  running : result.2.cancelled = before.cancelled
  marked : ∀ number, result.2.settled.contains number =
    (before.settled.contains number || sites.any (·.2 == number))
  size : result.2.settled.size = before.settled.size + sites.length
  reported : result.2.reported =
    before.reported + sites.countP fun site => (context.finding? site.1).isSome

namespace Settles

theorem nothing (sound : context.Trusts before.memo) :
    Settles context view shown before [] ([], before) :=
  ⟨rfl, sound, rfl, by simp, rfl, rfl⟩

theorem append {left right : List Event × State}
    (first : Settles context view shown before sites left)
    (second : Settles context view shown left.2 more right) :
    Settles context view shown before (sites ++ more) (left.1 ++ right.1, right.2) := by
  refine ⟨?_, second.sound, second.running.trans first.running, ?_, ?_, ?_⟩
  · simp only [List.filterMap_append, List.flatMap_append]
    rw [first.shown, second.shown]
  · intro number
    rw [second.marked, first.marked, List.any_append, Bool.or_assoc]
  · rw [second.size, first.size, List.length_append, Nat.add_assoc]
  · rw [second.reported, first.reported, List.countP_append, Nat.add_assoc]

/-- Settling the receiver of a call does not settle the call. -/
theorem own_unchanged {receivers : List Call} {result : List Event × State}
    (receiver : Settles context view shown before
      (receivers.map fun receiver => (receiver, number + 1)) result)
    (own : before.settled.contains number = settled) :
    result.2.settled.contains number = settled := by
  rw [receiver.marked, own]
  simp

/-- After a visit no number is settled past the next one, and that one only as a receiver. -/
theorem free_after {call : Call} {result : List Event × State}
    (site : Settles context view shown before (siteOrder context.config settled number call) result)
    (free : ∀ other, number < other → before.settled.contains other = false) :
    result.2.settled.contains (number + 1) = (call.chained? context.config).isSome ∧
      ∀ other, number + 1 < other → result.2.settled.contains other = false := by
  constructor
  · rw [site.marked, free _ (Nat.lt_succ_self _), siteOrder_any _ _ _ (Nat.lt_succ_self _)]
    simp
  · intro other after
    have different : (number + 1 == other) = false := by
      rw [beq_eq_false_iff_ne]
      omega
    rw [site.marked, free other (by omega), siteOrder_any _ _ _ (by omega), different]
    simp

end Settles

/-- A call that was not settled before is settled. -/
theorem settle_settles (shows : Shows context view shown) (before : State)
    (sound : context.Trusts before.memo)
    (fresh : before.settled.contains number = false) (call : Call) :
    Settles context view shown before [(call, number)] (settle context before number call) := by
  obtain ⟨_, verdict, soundAfter⟩ := context.classify_finding sound call
  simp only [settle, fresh, Bool.false_eq_true, ↓reduceIte]
  refine ⟨?_, soundAfter, rfl, ?_, ?_, ?_⟩
  · simpa using shows before.memo sound call
  · intro other
    rw [Std.HashSet.contains_insert, Bool.or_comm]
    simp
  · have absent : number ∉ before.settled := by
      rw [← Std.HashSet.contains_iff_mem, fresh]
      exact Bool.false_ne_true
    simp [Std.HashSet.size_insert, absent]
  · by_cases found : (context.finding? call).isSome = true
    · simp [verdict.mpr found, found]
    · have notReported : (context.classify before.memo call).1 ≠ .reported :=
        fun reported => found (verdict.mp reported)
      simp [notReported, found]

/-- The first half of a visit: the receiver that a call is chained to. -/
def settleReceiver (context : Context) (state : State) (number : Nat) (call : Call) :
    List Event × State :=
  match call.chained? context.config with
  | some receiver => settle context state (number + 1) receiver
  | none => ([], state)

/-- The second half of a visit: the call itself. -/
def settleOwn (context : Context) (state : State) (number : Nat) (call : Call) :
    List Event × State :=
  if call.isCandidate context.config then settle context state number call else ([], state)

theorem settleSite_halves (context : Context) (state : State) (number : Nat) (call : Call) :
    settleSite context state number call =
      let receiver := settleReceiver context state number call
      let own := settleOwn context receiver.2 number call
      (receiver.1 ++ own.1, own.2) := by
  unfold settleSite settleReceiver settleOwn
  cases call.chained? context.config <;> rfl

theorem settleReceiver_settles (shows : Shows context view shown) (before : State)
    (sound : context.Trusts before.memo)
    (free : before.settled.contains (number + 1) = false) (call : Call) :
    Settles context view shown before
      ((call.chained? context.config).toList.map fun receiver => (receiver, number + 1))
      (settleReceiver context before number call) := by
  unfold settleReceiver
  cases call.chained? context.config with
  | none => exact .nothing sound
  | some receiver => exact settle_settles shows before sound free receiver

/-- A call is left alone when it was settled together with the call around it. -/
theorem settleOwn_eq (before : State) (call : Call)
    (own : before.settled.contains number = settled) :
    settleOwn context before number call =
      if call.isCandidate context.config && !settled then settle context before number call
      else ([], before) := by
  subst own
  cases done : before.settled.contains number with
  | false => simp [settleOwn]
  | true => simp [settleOwn, settle, done]

/-- Visiting a call settles its sites, when the number after it is still free. -/
theorem settleSite_settles (shows : Shows context view shown) (before : State)
    (sound : context.Trusts before.memo)
    (own : before.settled.contains number = settled)
    (free : before.settled.contains (number + 1) = false) (call : Call) :
    Settles context view shown before (siteOrder context.config settled number call)
      (settleSite context before number call) := by
  have receiver := settleReceiver_settles shows before sound free call
  have ownAfter := receiver.own_unchanged own
  rw [settleSite_halves]
  refine receiver.append ?_
  rw [settleOwn_eq _ call ownAfter]
  split
  · rename_i unsettled
    have fresh : settled = false := by simpa using (Bool.and_eq_true_iff.mp unsettled).2
    exact settle_settles shows _ receiver.sound (ownAfter.trans fresh) call
  · exact .nothing receiver.sound

/-- A reading of a flag that is never set changes nothing but the number of readings. -/
theorem visit_never {before : State} (running : before.cancelled = false) (number : Nat)
    (call : Call) :
    visit context .never before number call =
      settleSite context { before with readings := before.readings + 1 } number call := by
  simp [visit, running, Cancellation.never]

theorem visit_settles (shows : Shows context view shown) (sound : context.Trusts before.memo)
    (running : before.cancelled = false) (own : before.settled.contains number = settled)
    (free : before.settled.contains (number + 1) = false) (call : Call) :
    Settles context view shown before (siteOrder context.config settled number call)
      (visit context .never before number call) := by
  have site := settleSite_settles shows { before with readings := before.readings + 1 } sound own
    free call
  rw [visit_never running]
  exact ⟨site.shown, site.sound, site.running, site.marked, site.size, site.reported⟩

theorem visitAll_cons (flag : Cancellation) (state : State) (number : Nat) (call : Call)
    (rest : List Call) :
    visitAll context flag state number (call :: rest) =
      let visited := visit context flag state number call
      let more := visitAll context flag visited.2 (number + 1) rest
      (visited.1 ++ more.1, more.2) :=
  rfl

/-- Visiting calls settles them in order, from a state in which no number past the first one is
settled. -/
theorem visitAll_settles (shows : Shows context view shown) (calls : List Call)
    (sound : context.Trusts before.memo) (running : before.cancelled = false)
    (own : before.settled.contains number = settled)
    (free : ∀ other, number < other → before.settled.contains other = false) :
    Settles context view shown before (settleOrder context.config settled number calls)
      (visitAll context .never before number calls) := by
  induction calls generalizing before number settled with
  | nil => exact .nothing sound
  | cons call rest ih =>
    have site := visit_settles shows sound running own (free _ (Nat.lt_succ_self _)) call
    obtain ⟨ownAfter, freeAfter⟩ := site.free_after free
    rw [visitAll_cons]
    exact site.append (ih site.sound (site.running.trans running) ownAfter freeAfter)

/-- The sites of a unit in the order a pass settles them. -/
def sitesOf (config : Config) (roots : List Expr) : List Site :=
  settleOrder config false 0 (Expr.childCalls roots)

/-- A pass that is not cancelled shows what its sites show and counts them. -/
theorem run_settles (shows : Shows context view shown) (roots : List Expr) :
    (run context .never roots).events.filterMap view =
        (sitesOf context.config roots).flatMap (fun site => shown site.1) ∧
      (run context .never roots).summary = ⟨(sitesOf context.config roots).length,
        (sitesOf context.config roots).countP fun site => (context.finding? site.1).isSome, false⟩ := by
  have settles : Settles context view shown {} (sitesOf context.config roots)
      (visitAll context .never {} 0 (Expr.childCalls roots)) :=
    visitAll_settles shows (Expr.childCalls roots) context.trusts_empty rfl (by simp) (by simp)
  refine ⟨settles.shown, ?_⟩
  simp only [run, State.summary, settles.size, settles.reported, settles.running, sitesOf]
  simp

/-- A check of a unit finds what its sites show, in the order they are settled, and counts them. -/
theorem checkUnit_settles (config : Config) (model : Model) (unit : SourceUnit) :
    let context : Context := ⟨config, model, unit.file, unit.text⟩
    (checkUnit config model .never unit).diagnostics =
        (sitesOf config unit.roots).flatMap (fun site => (context.finding? site.1).toList) ∧
      (checkUnit config model .never unit).summary = ⟨(sitesOf config unit.roots).length,
        (sitesOf config unit.roots).countP fun site => (context.finding? site.1).isSome, false⟩ := by
  intro context
  obtain ⟨shown, summary⟩ := run_settles (shows_diagnostics context) unit.roots
  refine ⟨?_, summary⟩
  simp only [checkUnit, Report.diagnostics, Event.diagnostics, List.filterMap_append]
  rw [shown]
  simp [Event.diagnostic?, context]

end Pass
end QueryAudit
