import QueryAudit.Diagnostic.Basic
import QueryAudit.Diagnostic.Excerpt
import QueryAudit.Diagnostic.Files

/-! Diagnostics as text with source excerpts. Every label gets its own excerpt; a file is named
where it changes from one label to the next. The way an excerpt is taken is a parameter: it may
fail, and then rendering fails with it. -/
namespace QueryAudit.Diagnostic

variable {σ : Type} [SourceProvider σ] {m : Type → Type} [Monad m]

/-- Shown for a file that is not known. -/
def unknownFile : String := "<unknown>"

/-- A label on a file without text. -/
def renderWithoutText (isNewFile : Bool) (name : String) (label : Label) : String :=
  (if isNewFile then " --> " ++ name ++ ":?:?\n  | <source unavailable>\n" else "") ++
    (if label.message.isEmpty then "" else "  = label: " ++ label.message ++ "\n")

/-- A label with the line it starts on and marks below what it covers. -/
def renderWithText (isNewFile : Bool) (name : String) (label : Label) (excerpt : Excerpt) :
    String :=
  let number := toString excerpt.lineNumber
  let gutter := "".pushn ' ' number.length
  let mark := if label.isPrimary then '^' else '-'
  (if isNewFile then " --> " ++ name ++ ":" ++ number ++ ":" ++ toString excerpt.column ++ "\n"
    else "") ++
    gutter ++ " |\n" ++
    number ++ " | " ++ excerpt.line ++ "\n" ++
    gutter ++ " | " ++ "".pushn ' ' excerpt.lead.length ++ "".pushn mark excerpt.width ++
    (if label.message.isEmpty then "" else " " ++ label.message) ++ "\n"

/-- Labels in order; `current` is the file named last, and `excerpt` takes the excerpt of a range
from a text. -/
def renderLabelsWith (excerpt : String → TextRange → m Excerpt) (sources : σ)
    (current : Option FileId) : List Label → m String
  | [] => pure ""
  | label :: rest => do
    let file := label.span.file
    let name := (SourceProvider.name? sources file).getD unknownFile
    let isNewFile := current != some file
    let shown ← match SourceProvider.text? sources file with
      | none => pure (renderWithoutText isNewFile name label)
      | some text => renderWithText isNewFile name label <$> excerpt text label.span.range
    let more ← renderLabelsWith excerpt sources (some file) rest
    return shown ++ more

def renderLabels (sources : σ) (current : Option FileId) (labels : List Label) : String :=
  Id.run (renderLabelsWith (fun text range => pure (.ofRange text range)) sources current labels)

/-- The diagnostic's own message as a label on its primary span, and its other labels. -/
def shownLabels (diagnostic : Diagnostic) : List Label :=
  Label.sort (⟨diagnostic.primary, diagnostic.message, true⟩ :: diagnostic.labels)

def renderWith (excerpt : String → TextRange → m Excerpt) (sources : σ) (diagnostic : Diagnostic) :
    m String := do
  let labels ← renderLabelsWith excerpt sources none diagnostic.shownLabels
  return diagnostic.severity.name ++ "[" ++ diagnostic.code ++ "]: " ++ diagnostic.message ++ "\n" ++
    labels ++ String.join (diagnostic.notes.map fun note => "= note: " ++ note ++ "\n")

def render (sources : σ) (diagnostic : Diagnostic) : String :=
  Id.run (renderWith (fun text range => pure (.ofRange text range)) sources diagnostic)

theorem renderLabels_nil (sources : σ) (current : Option FileId) :
    renderLabels sources current [] = "" :=
  rfl

theorem renderLabels_cons (sources : σ) (current : Option FileId) (label : Label)
    (rest : List Label) :
    renderLabels sources current (label :: rest) =
      (match SourceProvider.text? sources label.span.file with
        | none => renderWithoutText (current != some label.span.file)
          ((SourceProvider.name? sources label.span.file).getD unknownFile) label
        | some text => renderWithText (current != some label.span.file)
          ((SourceProvider.name? sources label.span.file).getD unknownFile) label
          (.ofRange text label.span.range)) ++
        renderLabels sources (some label.span.file) rest := by
  rw [renderLabels, renderLabelsWith]
  cases SourceProvider.text? sources label.span.file <;> rfl

theorem render_eq (sources : σ) (diagnostic : Diagnostic) :
    render sources diagnostic =
      diagnostic.severity.name ++ "[" ++ diagnostic.code ++ "]: " ++ diagnostic.message ++ "\n" ++
        renderLabels sources none diagnostic.shownLabels ++
        String.join (diagnostic.notes.map fun note => "= note: " ++ note ++ "\n") :=
  rfl

end QueryAudit.Diagnostic
