import QueryAudit.Diagnostic.Span
import QueryAudit.Json.Basic

/-! Diagnostics, the order in which they and their labels are shown, and the codes they are
registered under. -/
namespace QueryAudit

inductive Severity where
  | error
  | warning
  deriving DecidableEq

namespace Severity

def name : Severity → String
  | error => "error"
  | warning => "warning"

end Severity

/-- A remark on a span. -/
structure Label where
  span : Span
  message : String
  isPrimary : Bool
  deriving DecidableEq

structure Diagnostic where
  code : String
  severity : Severity
  message : String
  primary : Span
  labels : List Label := []
  notes : List String := []
  deriving DecidableEq

namespace Label

/-- Primary labels come first, then labels are ordered by span and by message. -/
def order : Label → Label → Ordering :=
  compareLex (compareOn (!·.isPrimary))
    (compareLex (fun left right => Span.order left.span right.span) (compareOn (·.message)))

def sort (labels : List Label) : List Label :=
  labels.mergeSort fun left right => (order left right).isLE

end Label

namespace Diagnostic

/-- Diagnostics are ordered by primary span, then by code, then by message. -/
def order : Diagnostic → Diagnostic → Ordering :=
  compareLex (fun left right => Span.order left.primary right.primary)
    (compareLex (compareOn (·.code)) (compareOn (·.message)))

/-- Equal keys keep the order they were reported in. -/
def sort (diagnostics : List Diagnostic) : List Diagnostic :=
  diagnostics.mergeSort fun left right => (order left right).isLE

end Diagnostic

namespace Span

def toJson (span : Span) : Json :=
  .object [
    ("file", .ofNat span.file.index),
    ("range", .object [("start", .ofNat span.range.start), ("end", .ofNat span.range.stop)])]

end Span

namespace Label

def toJson (label : Label) : Json :=
  .object [
    ("span", label.span.toJson),
    ("message", .string label.message),
    ("is_primary", .bool label.isPrimary)]

end Label

namespace Diagnostic

def toJson (diagnostic : Diagnostic) : Json :=
  .object [
    ("code", .string diagnostic.code),
    ("severity", .string diagnostic.severity.name),
    ("message", .string diagnostic.message),
    ("primary", diagnostic.primary.toJson),
    ("labels", .ofList Label.toJson diagnostic.labels),
    ("notes", .ofList .string diagnostic.notes)]

end Diagnostic

/-- A code with what it reports and the notes that go with it. -/
structure Code where
  id : String
  description : String
  notes : List String

namespace Code

/-- A warning under this code, with its notes. -/
def warning (code : Code) (message : String) (primary : Span) : Diagnostic :=
  { code := code.id, severity := .warning, message, primary, notes := code.notes }

/-- A remote query operator projects a type that the remote provider cannot represent. The
primary span is the whole operator call; a label on the lambda body names the offending type. -/
def nonRemoteProjection : Code where
  id := "LINQ0001"
  description := "query cannot be translated for remote evaluation"
  notes :=
    ["remote query providers only represent scalars, enums, anonymous records and arrays of them"]

end Code
end QueryAudit
