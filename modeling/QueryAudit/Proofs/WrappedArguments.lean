import Mathlib.Data.List.Forall2
import QueryAudit.Proofs.ReplayedPasses

/-! Parentheses and casts around the arguments of calls. They hold no calls of their own, the shape
of a call does not depend on its arguments, and a lambda is looked for inside of them. So two units
that differ in such wrappers only are checked alike, step by step; what differs is the text of a call
where it is printed. -/
namespace QueryAudit

/-! ## Trees that differ in wrappers -/

namespace Expr

/-- Two trees that differ in parentheses and casts around arguments of calls only: wherever a call
stands in the one, a call with the same nodes stands in the other, and corresponding arguments are
the same expression inside any wrappers. What stands on the node of an argument may differ, because
that node stands where the outermost wrapper does. -/
inductive Rewrapped : Expr → Expr → Prop where
  | anonymous {marks : Marks} {members twins : List (Slot Expr)}
      (marked : members.map Slot.mark = twins.map Slot.mark)
      (named : members.map Slot.name = twins.map Slot.name)
      (inside : List.Forall₂ Rewrapped (members.map Slot.value) (twins.map Slot.value)) :
      Rewrapped (.anonymous marks members) (.anonymous marks twins)
  | call {marks : Marks} {callee twinCallee : Expr} {arguments twins : List (Slot Expr)}
      {bare twinBare : List Expr} (sameCallee : Rewrapped callee twinCallee)
      (named : arguments.map Slot.name = twins.map Slot.name)
      (wraps : List.Forall₂ Wraps (arguments.map Slot.value) bare)
      (twinWraps : List.Forall₂ Wraps (twins.map Slot.value) twinBare)
      (inside : List.Forall₂ Rewrapped bare twinBare) :
      Rewrapped (.call marks callee arguments) (.call marks twinCallee twins)
  | cast {marks : Marks} {typeName : String} {value twin : Expr} (inside : Rewrapped value twin) :
      Rewrapped (.cast marks typeName value) (.cast marks typeName twin)
  | identifier (marks : Marks) (name : String) :
      Rewrapped (.identifier marks name) (.identifier marks name)
  | lambda {marks : Marks} {parameters : List String} {body twin : Expr}
      (inside : Rewrapped body twin) :
      Rewrapped (.lambda marks parameters body) (.lambda marks parameters twin)
  | literal (marks : Marks) (value : Literal) :
      Rewrapped (.literal marks value) (.literal marks value)
  | member {marks : Marks} {left twin : Expr} {name : String} (inside : Rewrapped left twin) :
      Rewrapped (.member marks left name) (.member marks twin name)
  | paren {marks : Marks} {value twin : Expr} (inside : Rewrapped value twin) :
      Rewrapped (.paren marks value) (.paren marks twin)
  | other {marks : Marks} {text : String} {children twins : List Expr}
      (inside : List.Forall₂ Rewrapped children twins) :
      Rewrapped (.other marks text children) (.other marks text twins)

end Expr

/-- Two calls that differ in wrappers around arguments only, their own or those of calls inside. -/
def Call.Rewrapped (call twin : Call) : Prop :=
  Expr.Rewrapped (.call ⟨{}, call.mark⟩ call.callee call.arguments)
    (.call ⟨{}, twin.mark⟩ twin.callee twin.arguments)

namespace Expr

variable {expr twin : Expr}

/-- Wrappers hold no calls besides those of what they are around. -/
theorem Wraps.calls_eq {bare : Expr} (wraps : expr.Wraps bare) : expr.calls = bare.calls := by
  induction wraps with
  | bare => rfl
  | paren _ ih | cast _ ih => rw [calls, ih]

theorem flatMap_calls_of_wraps {exprs bare : List Expr} (wraps : List.Forall₂ Wraps exprs bare) :
    exprs.flatMap calls = bare.flatMap calls := by
  induction wraps with
  | nil => rfl
  | cons first _ ih => rw [List.flatMap_cons, List.flatMap_cons, first.calls_eq, ih]

namespace Rewrapped

theorem marks_eq (same : expr.Rewrapped twin) : expr.marks = twin.marks := by
  cases same <;> rfl

theorem unwrapped (same : expr.Rewrapped twin) : expr.unwrapped.Rewrapped twin.unwrapped := by
  induction expr generalizing twin with
  | cast _ _ _ ih | paren _ _ ih =>
    cases same with
    | _ inside => simpa only [Expr.unwrapped] using ih inside
  | anonymous | call | identifier | lambda | literal | member | other =>
    have bare := same
    cases same
    simpa only [Expr.unwrapped] using bare

/-- Trees that differ in wrappers only have corresponding calls, in the same order. -/
theorem calls (same : expr.Rewrapped twin) :
    List.Forall₂ Call.Rewrapped expr.calls twin.calls := by
  -- Lists of parts are compared by the calls of all their members.
  refine @Rewrapped.rec (fun expr twin _ => List.Forall₂ Call.Rewrapped expr.calls twin.calls)
    (fun exprs twins _ =>
      List.Forall₂ Call.Rewrapped (exprs.flatMap Expr.calls) (twins.flatMap Expr.calls))
    ?anonymous ?call ?cast ?identifier ?lambda ?literal ?member ?paren ?other ?nil ?cons _ _ same
  case anonymous =>
    intro _ members twins _ _ _ ih
    rwa [List.flatMap_map, List.flatMap_map, ← slotCalls_eq, ← slotCalls_eq] at ih
  case call =>
    intro marks callee twinCallee arguments twins bare twinBare sameCallee named wraps twinWraps
      inside ihCallee ihArguments
    rw [← flatMap_calls_of_wraps wraps, ← flatMap_calls_of_wraps twinWraps, List.flatMap_map,
      List.flatMap_map, ← slotCalls_eq, ← slotCalls_eq] at ihArguments
    exact .cons (.call sameCallee named wraps twinWraps inside)
      (List.rel_append ihCallee ihArguments)
  case cast | lambda | member | paren =>
    intros
    assumption
  case identifier | literal =>
    intros
    exact .nil
  case other =>
    intro _ _ children twins _ ih
    rwa [← childCalls_eq, ← childCalls_eq] at ih
  case nil => exact .nil
  case cons =>
    intro _ _ _ _ _ _ ihFirst ihRest
    exact List.rel_append ihFirst ihRest

end Rewrapped

theorem childCalls_rewrapped {roots others : List Expr}
    (same : List.Forall₂ Rewrapped roots others) :
    List.Forall₂ Call.Rewrapped (childCalls roots) (childCalls others) := by
  induction same with
  | nil => exact .nil
  | cons first _ ih => exact List.rel_append first.calls ih

end Expr

/-! ## Calls that differ in wrappers -/

namespace Call.Rewrapped

variable {call twin : Call}

theorem mark_eq (same : call.Rewrapped twin) : call.mark = twin.mark :=
  congrArg Marks.inner (Expr.Rewrapped.marks_eq same)

/-- First arguments that differ in wrappers are the same expression inside of them. -/
theorem firstArgument? (same : call.Rewrapped twin) :
    Option.Rel (fun argument twinArgument => argument.unwrapped.Rewrapped twinArgument.unwrapped)
      call.firstArgument? twin.firstArgument? := by
  obtain ⟨mark, callee, arguments⟩ := call
  obtain ⟨twinMark, twinCallee, twins⟩ := twin
  cases same with
  | call _ _ wraps twinWraps inside =>
    cases inside with
    | nil =>
      cases List.map_eq_nil_iff.mp (List.forall₂_nil_right_iff.mp wraps)
      cases List.map_eq_nil_iff.mp (List.forall₂_nil_right_iff.mp twinWraps)
      exact .none
    | cons first _ =>
      cases arguments with
      | nil => cases wraps
      | cons argument _ =>
        cases twins with
        | nil => cases twinWraps
        | cons twinArgument _ =>
          cases wraps with
          | cons wraps _ =>
            cases twinWraps with
            | cons twinWraps _ =>
              refine .some ?_
              rw [wraps.unwrapped_eq, twinWraps.unwrapped_eq]
              exact first.unwrapped

theorem receiverNames_eq (config : Config) {expr twin : Expr} (same : expr.Rewrapped twin) :
    receiverNames config expr = receiverNames config twin := by
  cases same <;> rfl

theorem isCandidate_eq (config : Config) (same : call.Rewrapped twin) :
    call.isCandidate config = twin.isCandidate config := by
  obtain ⟨mark, callee, arguments⟩ := call
  obtain ⟨twinMark, twinCallee, twins⟩ := twin
  cases same with
  | call sameCallee =>
    cases sameCallee with
    | member inside => simp only [isCandidate, receiverNames_eq config inside]
    | _ => rfl

theorem namesOperator_eq (config : Config) (same : call.Rewrapped twin) :
    call.namesOperator config = twin.namesOperator config := by
  obtain ⟨mark, callee, arguments⟩ := call
  obtain ⟨twinMark, twinCallee, twins⟩ := twin
  cases same with
  | call sameCallee => cases sameCallee <;> rfl

theorem chained? (config : Config) (same : call.Rewrapped twin) :
    Option.Rel Call.Rewrapped (call.chained? config) (twin.chained? config) := by
  obtain ⟨mark, callee, arguments⟩ := call
  obtain ⟨twinMark, twinCallee, twins⟩ := twin
  cases same with
  | call sameCallee =>
    cases sameCallee with
    | member sameReceiver =>
      cases sameReceiver with
      | @call marks callee twinCallee arguments twins _ _ inner named wraps twinWraps inside =>
        have receivers : Call.Rewrapped ⟨marks.inner, callee, arguments⟩
            ⟨marks.inner, twinCallee, twins⟩ :=
          .call inner named wraps twinWraps inside
        simp only [Call.chained?, namesOperator_eq config receivers]
        split
        · exact .some receivers
        · exact .none
      | _ => exact .none
    | _ => exact .none

end Call.Rewrapped

namespace Pass

/-- Sites with the same number whose calls differ in wrappers around arguments only. -/
def Site.Rewrapped (site twin : Site) : Prop :=
  site.1.Rewrapped twin.1 ∧ site.2 = twin.2

theorem sitesOf_rewrapped (config : Config) {roots others : List Expr}
    (same : List.Forall₂ Expr.Rewrapped roots others) :
    List.Forall₂ Site.Rewrapped (sitesOf config roots) (sitesOf config others) :=
  settleOrder_rel (fun same => same.isCandidate_eq config) (fun same => same.chained? config)
    false 0 (Expr.childCalls_rewrapped same)

end Pass

/-! ## Settling one call -/

/-- A diagnostic but for its message, which quotes the call. -/
def Diagnostic.unworded (diagnostic : Diagnostic) : Diagnostic :=
  { diagnostic with message := "" }

/-- A pass over the same places of another text. -/
def Context.withText (context : Context) (text : Option String) : Context :=
  { context with text }

@[simp] theorem Context.withText_model (context : Context) (text : Option String) :
    (context.withText text).model = context.model :=
  rfl

@[simp] theorem Context.withText_config (context : Context) (text : Option String) :
    (context.withText text).config = context.config :=
  rfl

/-- Two passes do the same but for wrappers around arguments and for the text of calls. Of
diagnostics it is said that they label the bodies of lambdas that are first arguments. -/
inductive Event.Alike (context other : Context) : Event → Event → Prop where
  | askedSymbol {call twin : Call} (same : call.Rewrapped twin) :
      Alike context other (.askedSymbol call) (.askedSymbol twin)
  | askedType {body twinBody : Expr} (same : body.Rewrapped twinBody) :
      Alike context other (.askedType body) (.askedType twinBody)
  | traced (record : Record) : Alike context other (.traced record) (.traced record)
  | reporting (method : String) {call twin : Call} (same : call.Rewrapped twin) :
      Alike context other (.traced (.reporting method (context.quote call)))
        (.traced (.reporting method (other.quote twin)))
  | reported {call twin : Call} {method : String} {body twinBody : Expr} {type : TypeId}
      (offender : TypeId) (same : call.Rewrapped twin)
      (sameBody : body.Rewrapped twinBody)
      (projects : context.Projects call method body type)
      (twinProjects : other.Projects twin method twinBody type) :
      Alike context other (.reported (context.diagnose call body offender type))
        (.reported (other.diagnose twin twinBody offender type))

namespace Context

/-- Two calls are settled alike: with the same verdict, and the same is remembered afterwards. -/
structure SettledAlike (context other : Context)
    (settled twin : Verdict × List Event × Evaluability.Memo) : Prop where
  verdict : settled.1 = twin.1
  events : List.Forall₂ (Event.Alike context other) settled.2.1 twin.2.1
  memo : settled.2.2 = twin.2.2

variable {context : Context} {types : Store} (otherText : Option String) {call twin : Call}
  {method : String} {body twinBody : Expr} {type : TypeId}

theorem judge_alike (same : call.Rewrapped twin)
    (sameBody : body.Rewrapped twinBody)
    (projects : context.Projects call method body type)
    (twinProjects : (context.withText otherText).Projects twin method twinBody type)
    (memo : Evaluability.Memo) :
    SettledAlike context (context.withText otherText)
      (context.judge memo call method body type)
      ((context.withText otherText).judge memo twin method twinBody type) := by
  have looked (lookups : List Evaluability.Lookup) :
      List.Forall₂ (Event.Alike context (context.withText otherText))
        (lookups.map fun lookup => .traced (.evaluated lookup))
        (lookups.map fun lookup => .traced (.evaluated lookup)) := by
    rw [List.forall₂_map_left_iff, List.forall₂_map_right_iff, List.forall₂_same]
    exact fun lookup _ => .traced _
  simp only [judge, withText_model, withText_config]
  by_cases plain : (Evaluability.evaluate context.model.types context.config.maxTypeDepth memo
      type).1.outcome = true
  · simp only [plain, ↓reduceIte]
    exact ⟨rfl, looked _, rfl⟩
  · simp only [plain, Bool.false_eq_true, ↓reduceIte]
    refine ⟨rfl, List.rel_append (looked _) ?_, rfl⟩
    exact .cons (.reporting method same)
      (.cons (.reported _ same sameBody projects twinProjects) .nil)

/-- The first argument of a call is not a lambda, also inside wrappers. -/
theorem classify_notLambda (context : Context) {containing : Option String} {argument : Expr}
    (resolved : context.model.resolve call = some (.method method containing))
    (remote : context.isRemote containing = true)
    (first : call.firstArgument? = some argument) (notLambda : argument.unwrapped.isLambda = false)
    (memo : Evaluability.Memo) :
    context.classify memo call =
      (.notLambda, [.askedSymbol call, .traced (.notLambda method)], memo) := by
  simp only [classify, resolved, remote, ↓reduceIte, first]
  cases shape : argument.unwrapped with
  | lambda => simp [shape, Expr.isLambda] at notLambda
  | _ => rfl

/-- Two lambdas with bodies that differ in wrappers only are judged by the same type, if any. -/
theorem classify_lambda_alike {containing : Option String} {argument twinArgument : Expr}
    {marks : Marks} {parameters : List String} (factual : context.model = .ofFacts types)
    (same : call.Rewrapped twin)
    (resolved : context.model.resolve call = some (.method method containing))
    (twinResolved : context.model.resolve twin = some (.method method containing))
    (remote : context.isRemote containing = true) (first : call.firstArgument? = some argument)
    (twinFirst : twin.firstArgument? = some twinArgument)
    (shape : argument.unwrapped = .lambda marks parameters body)
    (twinShape : twinArgument.unwrapped = .lambda marks parameters twinBody)
    (sameBody : body.Rewrapped twinBody) (memo : Evaluability.Memo) :
    SettledAlike context (context.withText otherText) (context.classify memo call)
      ((context.withText otherText).classify memo twin) := by
  have twinRemote : (context.withText otherText).isRemote containing = true := remote
  have twinTyped : context.model.converted twinBody = context.model.converted body := by
    rw [factual]
    exact congrArg (·.outer.facts.convertedType) sameBody.marks_eq.symm
  cases typed : context.model.converted body with
  | none =>
    rw [typed] at twinTyped
    simp only [classify, withText_model, resolved, twinResolved, remote, twinRemote, ↓reduceIte,
      first, twinFirst, shape, twinShape, typed, twinTyped]
    exact ⟨rfl, .cons (.askedSymbol same) (.cons (.askedType sameBody) .nil), rfl⟩
  | some type =>
    rw [typed] at twinTyped
    cases containing with
    | none => cases remote
    | some name =>
      have projects : context.Projects call method body type :=
        .intro resolved remote first shape typed
      have twinProjects : (context.withText otherText).Projects twin method twinBody type :=
        .intro twinResolved remote twinFirst twinShape twinTyped
      obtain ⟨verdict, events, memo⟩ :=
        judge_alike otherText same sameBody projects twinProjects memo
      rw [classify_projects projects, classify_projects twinProjects]
      exact ⟨verdict, .cons (.askedSymbol same) (.cons (.askedType sameBody) events), memo⟩

theorem classify_remote_alike {containing : Option String}
    (factual : context.model = .ofFacts types) (same : call.Rewrapped twin)
    (resolved : context.model.resolve call = some (.method method containing))
    (twinResolved : context.model.resolve twin = some (.method method containing))
    (remote : context.isRemote containing = true) (memo : Evaluability.Memo) :
    SettledAlike context (context.withText otherText) (context.classify memo call)
      ((context.withText otherText).classify memo twin) := by
  have twinRemote : (context.withText otherText).isRemote containing = true := remote
  have sameFirst := same.firstArgument?
  generalize first : call.firstArgument? = argument, twinFirst : twin.firstArgument? = twinArgument
    at sameFirst
  cases sameFirst with
  | none =>
    simp only [classify, withText_model, resolved, twinResolved, remote, twinRemote, ↓reduceIte,
      first, twinFirst]
    exact ⟨rfl, .cons (.askedSymbol same) .nil, rfl⟩
  | @some argument twinArgument sameArgument =>
    generalize shape : argument.unwrapped = bare, twinShape : twinArgument.unwrapped = twinBare
      at sameArgument
    cases sameArgument with
    | lambda sameBody =>
      exact classify_lambda_alike otherText factual same resolved twinResolved remote first twinFirst
        shape twinShape sameBody memo
    | _ =>
      rw [classify_notLambda context resolved remote first (by rw [shape]; rfl),
        classify_notLambda (context.withText otherText) twinResolved twinRemote twinFirst
          (by rw [twinShape]; rfl)]
      exact ⟨rfl, .cons (.askedSymbol same) (.cons (.traced _) .nil), rfl⟩

/-- Wrappers around arguments make no difference for what is done at a call. -/
theorem classify_alike (factual : context.model = .ofFacts types)
    (same : call.Rewrapped twin) (memo : Evaluability.Memo) :
    SettledAlike context (context.withText otherText) (context.classify memo call)
      ((context.withText otherText).classify memo twin) := by
  have mark : call.mark = twin.mark := same.mark_eq
  have twinResolved : context.model.resolve twin = context.model.resolve call := by
    rw [factual]
    exact congrArg (·.facts.symbol) mark.symm
  cases resolved : context.model.resolve call with
  | none =>
    simp only [classify, withText_model, twinResolved, resolved, mark]
    exact ⟨rfl, .cons (.askedSymbol same) (.cons (.traced _) .nil), rfl⟩
  | some symbol =>
    rw [resolved] at twinResolved
    cases symbol with
    | other kind =>
      simp only [classify, withText_model, twinResolved, resolved, mark]
      exact ⟨rfl, .cons (.askedSymbol same) (.cons (.traced _) .nil), rfl⟩
    | method method containing =>
      by_cases remote : context.isRemote containing = true
      · exact classify_remote_alike otherText factual same resolved twinResolved remote memo
      · have twinRemote : ¬ (context.withText otherText).isRemote containing = true := remote
        simp only [classify, withText_model, twinResolved, resolved, remote, twinRemote,
          Bool.false_eq_true, ↓reduceIte]
        exact ⟨rfl, .cons (.askedSymbol same) (.cons (.traced _) .nil), rfl⟩

/-- Calls that differ in wrappers only are settled alike one after the other. -/
theorem classifyAll_alike (factual : context.model = .ofFacts types) {calls twins : List Call}
    (same : List.Forall₂ Call.Rewrapped calls twins) (memo : Evaluability.Memo) :
    let settled := context.classifyAll memo calls
    let twinSettled := (context.withText otherText).classifyAll memo twins
    settled.1.map Prod.snd = twinSettled.1.map Prod.snd ∧
      List.Forall₂ (Event.Alike context (context.withText otherText)) settled.2 twinSettled.2 := by
  induction same generalizing memo with
  | nil => exact ⟨rfl, .nil⟩
  | @cons call twin _ _ first _ ih =>
    obtain ⟨verdict, events, remembered⟩ := classify_alike otherText factual first memo
    obtain ⟨verdicts, more⟩ := ih ((context.classify memo call).2.2)
    simp only [classifyAll_cons, List.map_cons, ← remembered]
    exact ⟨by rw [verdict, verdicts], List.rel_append events more⟩

/-- Diagnostics on calls that differ in wrappers only differ in their messages. -/
theorem diagnose_unworded (context : Context) (same : call.Rewrapped twin)
    (sameBody : body.Rewrapped twinBody) (offender type : TypeId) :
    (context.diagnose call body offender type).unworded =
      ((context.withText otherText).diagnose twin twinBody offender type).unworded := by
  have sameLoc : body.loc = twinBody.loc :=
    congrArg (·.outer.loc) sameBody.marks_eq
  simp only [Diagnostic.unworded, diagnose, Code.warning, sameLoc, same.mark_eq]
  rfl

end Context

/-! ## Passes -/

theorem Event.diagnostics_unworded {context : Context} {otherText : Option String}
    {events others : List Event}
    (alike : List.Forall₂ (Event.Alike context (context.withText otherText)) events others) :
    (diagnostics events).map Diagnostic.unworded = (diagnostics others).map Diagnostic.unworded := by
  induction alike with
  | nil => rfl
  | cons first _ ih =>
    cases first with
    | askedSymbol | askedType | traced | reporting => exact ih
    | @reported _ _ _ _ _ type offender same sameBody =>
      exact congrArg₂ List.cons (context.diagnose_unworded otherText same sameBody offender type) ih

namespace Pass

/-- A check that is not cancelled counts its sites and its diagnostics. -/
theorem summary_counts {config : Config} {model : Model} {flag : Cancellation} {unit : SourceUnit}
    (uncancelled : (checkUnit config model flag unit).summary.cancelled = false) :
    let report := checkUnit config model flag unit
    report.summary =
      ⟨(sitesOf config unit.roots).length, report.diagnostics.length, false⟩ := by
  intro report
  obtain ⟨found, summary⟩ := checkUnit_settles config model unit
  rw [show report = _ from checkUnit_uncancelled uncancelled, summary, found]
  congr 1
  generalize sitesOf config unit.roots = sites
  induction sites with
  | nil => rfl
  | cons site rest ih =>
    rw [List.countP_cons, List.flatMap_cons, List.length_append, ih, Nat.add_comm]
    cases Context.finding? ⟨config, model, unit.file, unit.text⟩ site.1 <;> rfl

/-- Checks of two units that differ in parentheses and casts around arguments settle corresponding
calls, in the same order and with the same verdicts. They report alike, and the labels are the same:
they stand on the bodies of the same lambdas and say the same. Only the message of a diagnostic may
differ, where it quotes the call. -/
theorem checkUnit_ignores_wrappers (config : Config) (types : Store) (file : FileId)
    (text otherText : Option String) (roots others : List Expr) (flag otherFlag : Cancellation)
    (same : List.Forall₂ Expr.Rewrapped roots others)
    (uncancelled :
      (checkUnit config (.ofFacts types) flag ⟨file, text, roots⟩).summary.cancelled = false)
    (otherUncancelled : (checkUnit config (.ofFacts types) otherFlag
      ⟨file, otherText, others⟩).summary.cancelled = false) :
    let context : Context := ⟨config, .ofFacts types, file, text⟩
    let other : Context := ⟨config, .ofFacts types, file, otherText⟩
    let report := checkUnit config (.ofFacts types) flag ⟨file, text, roots⟩
    let otherReport := checkUnit config (.ofFacts types) otherFlag ⟨file, otherText, others⟩
    let sites := sitesOf config roots
    let otherSites := sitesOf config others
    let settled := context.classifyAll {} (sites.map Prod.fst)
    let otherSettled := other.classifyAll {} (otherSites.map Prod.fst)
    report.events = settled.2 ++ [.traced (.analyzed file roots.length report.summary)] ∧
      otherReport.events =
        otherSettled.2 ++ [.traced (.analyzed file others.length otherReport.summary)] ∧
      List.Forall₂ Site.Rewrapped sites otherSites ∧
      settled.1.map Prod.snd = otherSettled.1.map Prod.snd ∧
      List.Forall₂ (Event.Alike context other) report.events otherReport.events ∧
      report.diagnostics.map Diagnostic.unworded =
        otherReport.diagnostics.map Diagnostic.unworded ∧
      report.summary = otherReport.summary := by
  intro context other report otherReport sites otherSites settled otherSettled
  have sameSites : List.Forall₂ Site.Rewrapped sites otherSites := sitesOf_rewrapped config same
  have sameCalls : List.Forall₂ Call.Rewrapped (sites.map Prod.fst) (otherSites.map Prod.fst) :=
    List.rel_map (fun _ _ site => site.1) sameSites
  have factual : context.model = .ofFacts types := rfl
  obtain ⟨verdicts, events⟩ := Context.classifyAll_alike otherText factual sameCalls {}
  have replayed : report.events = _ := checkUnit_replays uncancelled
  have otherReplayed : otherReport.events = _ := checkUnit_replays otherUncancelled
  have diagnostics : report.diagnostics.map Diagnostic.unworded =
      otherReport.diagnostics.map Diagnostic.unworded := by
    rw [show report.diagnostics = _ from diagnostics_replayed uncancelled,
      show otherReport.diagnostics = _ from diagnostics_replayed otherUncancelled]
    exact Event.diagnostics_unworded events
  have summary : report.summary = otherReport.summary := by
    have sitesLength : sites.length = otherSites.length := sameSites.length_eq
    have reports : report.diagnostics.length = otherReport.diagnostics.length := by
      simpa using congrArg List.length diagnostics
    rw [show report.summary = _ from summary_counts uncancelled,
      show otherReport.summary = _ from summary_counts otherUncancelled]
    exact congrArg₂ (Summary.mk · · false) sitesLength reports
  refine ⟨replayed, otherReplayed, sameSites, verdicts, ?_, diagnostics, summary⟩
  have rootsLength : roots.length = others.length := same.length_eq
  rw [replayed, otherReplayed, ← summary, ← rootsLength]
  exact List.rel_append events (.cons (.traced _) .nil)

end Pass

/-! ## A chain of queries -/

namespace Expr

/-- An expression in layers, the outermost one first: parentheses, or a cast to a type. -/
def wrapIn (layers : List (Option String)) (value : Expr) : Expr :=
  layers.foldr (fun layer inside => layer.elim (.paren {} inside) (.cast {} · inside)) value

theorem wrapIn_wraps (layers : List (Option String)) (value : Expr) :
    (value.wrapIn layers).Wraps value := by
  induction layers with
  | nil => exact .bare
  | cons layer rest ih =>
    cases layer with
    | none => exact .paren ih
    | some typeName => exact .cast ih

end Expr

namespace Pass

/-- A chain of two queries, with layers around the lambda of each and around an argument inside the
body of the second lambda. -/
def chainedQuery (filter projection inner : List (Option String)) : Expr :=
  .call ⟨{}, ⟨{}, { symbol := some (.method "Select" (some "System.Linq.Queryable")) }⟩⟩
    (.member {}
      (.call ⟨{}, ⟨{}, { symbol := some (.method "Where" (some "System.Linq.Queryable")) }⟩⟩
        (.member {} (.identifier {} "orders") "Where")
        [{ value := (Expr.lambda {} ["o"] (.identifier {} "open")).wrapIn filter }])
      "Select")
    [{ value := (Expr.lambda {} ["o"]
        (.call ⟨⟨{}, { convertedType := some ⟨19⟩ }⟩, {}⟩ (.identifier {} "copy")
          [{ value := (Expr.identifier {} "o").wrapIn inner }])).wrapIn projection }]

theorem chainedQuery_rewrapped (filter projection inner : List (Option String)) :
    (chainedQuery [] [] []).Rewrapped (chainedQuery filter projection inner) :=
  have body : Expr.Rewrapped
      (.call ⟨⟨{}, { convertedType := some ⟨19⟩ }⟩, {}⟩ (.identifier {} "copy")
        [{ value := .identifier {} "o" }])
      (.call ⟨⟨{}, { convertedType := some ⟨19⟩ }⟩, {}⟩ (.identifier {} "copy")
        [{ value := (Expr.identifier {} "o").wrapIn inner }]) :=
    .call (.identifier ..) rfl (.cons .bare .nil) (.cons (Expr.wrapIn_wraps ..) .nil)
      (.cons (.identifier ..) .nil)
  .call
    (.member (.call (.member (.identifier ..)) rfl (.cons .bare .nil)
      (.cons (Expr.wrapIn_wraps ..) .nil) (.cons (.lambda (.identifier ..)) .nil)))
    rfl (.cons .bare .nil) (.cons (Expr.wrapIn_wraps ..) .nil) (.cons (.lambda body) .nil)

/-- The chain as it is, and with seven, nine and four layers around its arguments: one of the calls
is reported. -/
theorem checkUnit_ignores_wrappers_chained :
    let check flag root := checkUnit .default (.ofFacts (Store.empty.named "Order").2) flag
      ⟨⟨0⟩, none, [root]⟩
    let bare := chainedQuery [] [] []
    let wrapped := chainedQuery
      [none, none, some "object", none, some "Filter", some "object", none]
      [some "object", none, none, none, none, some "Shape", none, some "object", none]
      [none, none, none, some "Order"]
    let report := check .never bare
    let otherReport := check (.showing (3 ≤ ·)) wrapped
    (List.Forall₂ Expr.Rewrapped [bare] [wrapped] ∧
        report.summary.cancelled = false ∧ otherReport.summary.cancelled = false) ∧
      report.diagnostics.length = 1 ∧
      report.diagnostics.map Diagnostic.unworded =
        otherReport.diagnostics.map Diagnostic.unworded ∧
      report.summary = otherReport.summary := by
  intro check bare wrapped report otherReport
  have same : List.Forall₂ Expr.Rewrapped [bare] [wrapped] :=
    .cons (chainedQuery_rewrapped ..) .nil
  have uncancelled : report.summary.cancelled = false := by cbv
  have otherUncancelled : otherReport.summary.cancelled = false := by cbv
  have found : report.diagnostics.length = 1 := by cbv
  obtain ⟨_, _, _, _, _, diagnostics, summary⟩ := checkUnit_ignores_wrappers .default _ ⟨0⟩ none none
    [bare] [wrapped] _ _ same uncancelled otherUncancelled
  exact ⟨⟨same, uncancelled, otherUncancelled⟩, found, diagnostics, summary⟩

end Pass
end QueryAudit
