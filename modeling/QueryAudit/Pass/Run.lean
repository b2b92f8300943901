import QueryAudit.Pass.Verdict
import QueryAudit.Tree.Visit
import Std.Data.HashSet

/-! A pass over a unit. Calls are visited in order and numbered as they come. At each call the
cancellation flag is read; then an operator call that it is chained to is settled, and then the
call itself if it has the shape of an operator. A chained call comes directly after the call
around it, so its number is known before it is visited, and it is not settled a second time when
its own turn comes. -/
namespace QueryAudit

/-! ## Calls shaped like a query operator

A chain `x.A().B()` is the call of member `B` of the call of member `A` of `x`, so besides a call's
own name its receiver is looked at. -/

namespace Call

/-- Whether a receiver that is not a call names an operator. -/
def receiverNames (config : Config) : Expr → Bool
  | .identifier _ name => config.isOperator name
  | .member _ _ name => config.isOperator name
  | _ => false

/-- Whether a call has the shape of an operator: it calls an operator by its bare name, or a
member that is named like one or whose receiver is named like one. -/
def isCandidate (config : Config) (call : Call) : Bool :=
  match call.callee with
  | .member _ receiver name => receiverNames config receiver || config.isOperator name
  | .identifier _ name => config.isOperator name
  | _ => false

/-- Whether a call names an operator itself. -/
def namesOperator (config : Config) (call : Call) : Bool :=
  match call.callee with
  | .member _ _ name => config.isOperator name
  | .identifier _ name => config.isOperator name
  | _ => false

/-- The receiver of a member call, when it is a call that names an operator. -/
def chained? (config : Config) (call : Call) : Option Call :=
  match call.callee with
  | .member _ (.call marks callee arguments) _ =>
    let receiver : Call := ⟨marks.inner, callee, arguments⟩
    if receiver.namesOperator config then some receiver else none
  | _ => none

end Call

/-! ## Passes -/

/-- What a pass has done so far, for whoever controls the cancellation flag. -/
structure Progress where
  /-- Earlier readings of the flag. -/
  readings : Nat
  classified : Nat
  reported : Nat

/-- The value that the cancellation flag shows at a reading. -/
abbrev Cancellation : Type :=
  Progress → Bool

namespace Cancellation

def never : Cancellation :=
  fun _ => false

/-- Set once `limit` call-sites have been settled, `before` of them by earlier passes. -/
def after (limit before : Nat) : Cancellation :=
  fun progress => limit ≤ before + progress.classified

end Cancellation

namespace Pass

structure State where
  memo : Evaluability.Memo := {}
  /-- Numbers of the calls that have been settled. -/
  settled : Std.HashSet Nat := ∅
  readings : Nat := 0
  reported : Nat := 0
  cancelled : Bool := false

namespace State

def progress (state : State) : Progress :=
  ⟨state.readings, state.settled.size, state.reported⟩

def summary (state : State) : Summary :=
  ⟨state.settled.size, state.reported, state.cancelled⟩

end State

/-- Settles a call unless it has been settled before. -/
def settle (context : Context) (state : State) (number : Nat) (call : Call) :
    List Event × State :=
  if state.settled.contains number then ([], state)
  else
    let (verdict, events, memo) := context.classify state.memo call
    (events, { state with
      memo
      settled := state.settled.insert number
      reported := if verdict = .reported then state.reported + 1 else state.reported })

/-- Settles a call's chained receiver, then the call itself, as far as their shapes ask for it. -/
def settleSite (context : Context) (state : State) (number : Nat) (call : Call) :
    List Event × State :=
  let (chained, state) := match call.chained? context.config with
    | some receiver => settle context state (number + 1) receiver
    | none => ([], state)
  let (own, state) :=
    if call.isCandidate context.config then settle context state number call else ([], state)
  (chained ++ own, state)

/-- Visits one call: once the flag was seen set, nothing more is settled. -/
def visit (context : Context) (flag : Cancellation) (state : State) (number : Nat) (call : Call) :
    List Event × State :=
  if state.cancelled then ([], state)
  else
    let isSet := flag state.progress
    let state := { state with readings := state.readings + 1 }
    if isSet then ([], { state with cancelled := true })
    else settleSite context state number call

/-- Visits calls in order, the first under the given number. -/
def visitAll (context : Context) (flag : Cancellation) (state : State) (number : Nat) :
    List Call → List Event × State
  | [] => ([], state)
  | call :: rest =>
    let (events, state) := visit context flag state number call
    let (more, state) := visitAll context flag state (number + 1) rest
    (events ++ more, state)

/-- What a pass did, and what it found. -/
structure Report where
  events : List Event
  summary : Summary

namespace Report

/-- The diagnostics of a pass in the order they were found. -/
def diagnostics (report : Report) : List Diagnostic :=
  Event.diagnostics report.events

end Report

/-- Checks trees one after the other with one memory. -/
def run (context : Context) (flag : Cancellation) (roots : List Expr) : Report :=
  let (events, state) := visitAll context flag {} 0 (Expr.childCalls roots)
  ⟨events, state.summary⟩

/-- Checks a unit, and records in the trace that it was checked. -/
def checkUnit (config : Config) (model : Model) (flag : Cancellation) (unit : SourceUnit) :
    Report :=
  let report := run ⟨config, model, unit.file, unit.text⟩ flag unit.roots
  { report with events := report.events ++
      [.traced (.analyzed unit.file unit.roots.length report.summary)] }

/-- Checks a single tree without source text. -/
def checkExpr (config : Config) (model : Model) (flag : Cancellation) (file : FileId)
    (root : Expr) : Report :=
  run ⟨config, model, file, none⟩ flag [root]

/-- Checks made one after the other under one flag, which is set once `limit` call-sites have
been settled. -/
def runEach (limit : Option Nat) (before : Nat) : List (Cancellation → Report) → List Report
  | [] => []
  | check :: rest =>
    let report := check (limit.elim .never fun limit => .after limit before)
    report :: runEach limit (before + report.summary.classified) rest

/-- Diagnostics of one unit, sorted. -/
structure UnitReport where
  file : FileId
  diagnostics : List Diagnostic
  summary : Summary
  events : List Event

/-- Checks units independently of one another. Reports come in the order of the units. -/
def checkUnits (config : Config) (model : Model) (units : List SourceUnit) : List UnitReport :=
  units.map fun unit =>
    let report := checkUnit config model .never unit
    ⟨unit.file, Diagnostic.sort report.diagnostics, report.summary, report.events⟩

end Pass
end QueryAudit
