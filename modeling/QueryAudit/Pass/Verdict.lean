import QueryAudit.Config.Basic
import QueryAudit.Pass.Event
import QueryAudit.Tree.Print

/-! Settling one call-site: it is reported when it is bound to a remote operator and the body of
its first argument, a lambda, has a type that the remote provider cannot carry. What calls are
bound to and what types expressions have is answered by a model. -/
namespace QueryAudit

/-- Read-only answers about resolution and typing. -/
structure Model where
  types : Store
  resolve : Call → Option Symbol
  converted : Expr → Option TypeId

namespace Model

/-- The model that reads the facts stored on the nodes themselves. -/
def ofFacts (types : Store) : Model where
  types
  resolve call := call.mark.facts.symbol
  converted expr := expr.marks.outer.facts.convertedType

end Model

/-- A source unit; the places of its nodes refer to its text, when that is known. -/
structure SourceUnit where
  file : FileId
  text : Option String := none
  roots : List Expr

/-- How a call-site was settled. -/
inductive Verdict where
  /-- Not bound, or bound to something other than a method. -/
  | notResolved
  /-- Bound to a method outside the remote family. -/
  | notRemote
  | noArgument
  /-- The first argument is not a lambda, also inside parentheses and casts. -/
  | notLambda
  /-- The type of the lambda body is not known. -/
  | untyped
  | evaluable
  | reported
  deriving DecidableEq

/-- What stays the same for all call-sites of a unit. -/
structure Context where
  config : Config
  model : Model
  file : FileId
  text : Option String := none

namespace Context

/-- A call as it is written when its text is known, otherwise as the tree prints. -/
def quote (context : Context) (call : Call) : String :=
  (context.text >>= call.mark.loc.slice?).getD call.print

/-- Says which type cannot be carried, and inside which type it was found. -/
def offenderMessage (types : Store) (offender type : TypeId) : String :=
  "`" ++ types.display offender ++ "` is not representable by the remote query provider" ++
    if offender = type then "" else " (in `" ++ types.display type ++ "`)"

/-- The diagnostic for a call whose lambda body has a type that cannot be carried. -/
def diagnose (context : Context) (call : Call) (body : Expr) (offender type : TypeId) :
    Diagnostic :=
  let warning := Code.nonRemoteProjection.warning
    ("query cannot be translated for remote evaluation: `" ++ context.quote call ++ "`")
    (.ofLoc context.file call.mark.loc)
  let label : Label :=
    ⟨.ofLoc context.file body.loc, offenderMessage context.model.types offender type, false⟩
  { warning with labels := warning.labels ++ [label] }

/-- Judges the type of a lambda body. -/
def judge (context : Context) (memo : Evaluability.Memo) (call : Call) (method : String)
    (body : Expr) (type : TypeId) : Verdict × List Event × Evaluability.Memo :=
  let types := context.model.types
  let limit := context.config.maxTypeDepth
  let looked (lookups : List Evaluability.Lookup) : List Event :=
    lookups.map fun lookup => .traced (.evaluated lookup)
  let (lookup, memo) := Evaluability.evaluate types limit memo type
  if lookup.outcome then (.evaluable, looked [lookup], memo)
  else
    let (offender, lookups, memo) := Evaluability.explain types limit memo type
    let events := looked (lookup :: lookups) ++ [
      .traced (.reporting method (context.quote call)),
      .reported (context.diagnose call body (offender.getD type) type)]
    (.reported, events, memo)

/-- Whether a declaring type is known and holds remote operators. -/
def isRemote (context : Context) (containingType : Option String) : Bool :=
  containingType.any context.config.remoteFamily.contains

/-- Settles one call-site. -/
def classify (context : Context) (memo : Evaluability.Memo) (call : Call) :
    Verdict × List Event × Evaluability.Memo :=
  let asked := Event.askedSymbol call
  match context.model.resolve call with
  | some (.method method containingType) =>
    if context.isRemote containingType then
      match call.firstArgument? with
      | none => (.noArgument, [asked], memo)
      | some argument =>
        match argument.unwrapped with
        | .lambda _ _ body =>
          match context.model.converted body with
          | none => (.untyped, [asked, .askedType body], memo)
          | some type =>
            let (verdict, events, memo) := context.judge memo call method body type
            (verdict, asked :: .askedType body :: events, memo)
        | _ => (.notLambda, [asked, .traced (.notLambda method)], memo)
    else (.notRemote, [asked, .traced (.notRemote method containingType)], memo)
  | some (.other _) | none => (.notResolved, [asked, .traced (.unresolved call.mark.loc)], memo)

/-- Settles every call in a list, whatever its shape. -/
def classifyAll (context : Context) (memo : Evaluability.Memo) :
    List Call → List (Call × Verdict) × List Event
  | [] => ([], [])
  | call :: rest =>
    let (verdict, events, memo) := context.classify memo call
    let (verdicts, more) := context.classifyAll memo rest
    ((call, verdict) :: verdicts, events ++ more)

end Context
end QueryAudit
