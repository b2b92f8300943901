import QueryAudit.Diagnostic.Basic
import QueryAudit.Text.Quoted
import QueryAudit.Tree.Expr
import QueryAudit.Types.Evaluability

/-! What happens during a pass, in order: questions to the model, records of the trace, and
diagnostics. -/
namespace QueryAudit

/-- How many call-sites a pass settled and reported, and whether it was stopped early. -/
structure Summary where
  classified : Nat := 0
  reported : Nat := 0
  cancelled : Bool := false
  deriving DecidableEq

/-- An entry of the trace. The first four are events; the last two are spans of work, entered in
the trace when they end. -/
inductive Record where
  | unresolved (loc : Loc)
  | notRemote (method : String) (containingType : Option String)
  | notLambda (method : String)
  | reporting (method expression : String)
  | evaluated (lookup : Evaluability.Lookup)
  | analyzed (file : FileId) (roots : Nat) (summary : Summary)

namespace Record

inductive Level where
  | trace
  | debug
  deriving DecidableEq

def Level.name : Level → String
  | trace => "TRACE"
  | debug => "DEBUG"

def level : Record → Level
  | unresolved _ | notRemote .. | notLambda _ => .trace
  | reporting .. | evaluated _ | analyzed .. => .debug

/-- Name of the span that ends with the record; `none` for an event. -/
def span? : Record → Option String
  | evaluated _ => some "linq_check.evaluable"
  | analyzed .. => some "linq_check.analyze"
  | _ => none

/-- A name that may be missing, as the trace writes it. -/
def optionText : Option String → String
  | none => "None"
  | some name => "Some(" ++ Text.quoted name ++ ")"

def fields : Record → List (String × Json)
  | unresolved loc => [
      ("message", .string "call-site has no method symbol"),
      ("loc", .string s!"Loc({loc.start}, {loc.stop})")]
  | notRemote method containingType => [
      ("message", .string "not a remote query operator"),
      ("method", .string method),
      ("containing_type", .string (optionText containingType))]
  | notLambda method => [
      ("message", .string "first argument is not a lambda"),
      ("method", .string method)]
  | reporting method expression => [
      ("message", .string "reporting non-translatable query"),
      ("code", .string Code.nonRemoteProjection.id),
      ("method", .string method),
      ("expression", .string expression)]
  | evaluated lookup => [
      ("type_id", .ofNat lookup.type.index),
      ("cache_hit", .bool lookup.known),
      ("outcome", .bool lookup.outcome)]
  | analyzed file roots summary => [
      ("file", .ofNat file.index),
      ("roots", .ofNat roots),
      ("classified", .ofNat summary.classified),
      ("reported", .ofNat summary.reported)]

/-- The record as a line of a written trace: an event stands in the span of its unit, and the end
of a span is an event of that span with the spans around it. -/
def line (unitSpan : Json) (record : Record) : Json :=
  let (fields, span) := match record.span? with
    | some name =>
      (Json.object [("message", .string "close")],
        Json.object (record.fields ++ [("name", Json.string name)]))
    | none => (Json.object record.fields, unitSpan)
  let spans := match record with
    | analyzed .. => []
    | _ => [unitSpan]
  .object [
    ("level", .string record.level.name), ("fields", fields), ("span", span),
    ("spans", .array spans)]

end Record

inductive Event where
  /-- The model is asked what a call is bound to. -/
  | askedSymbol (call : Call)
  /-- The model is asked for the type of an expression. -/
  | askedType (expr : Expr)
  | traced (record : Record)
  | reported (diagnostic : Diagnostic)

namespace Event

def diagnostic? : Event → Option Diagnostic
  | reported diagnostic => some diagnostic
  | _ => none

def record? : Event → Option Record
  | traced record => some record
  | _ => none

/-- The diagnostics among events, in order. -/
def diagnostics (events : List Event) : List Diagnostic :=
  events.filterMap diagnostic?

/-- The trace records among events, in order. -/
def records (events : List Event) : List Record :=
  events.filterMap record?

end Event
end QueryAudit
