import QueryAudit.Diagnostic.Span

/-! Excerpts: the line of a text that a range starts on, and the part of the line that the range
covers. A range may lie anywhere, also past the end of the text or inside a character; it is
first moved down to offsets between characters. -/
namespace QueryAudit

/-- Offsets of an excerpt. -/
structure Extent where
  /-- Start of the range. -/
  start : Nat
  /-- End of the range, not before its start. -/
  stop : Nat
  /-- The line that holds the start. -/
  line : Text.Line

namespace Extent

def ofRange (text : String) (range : TextRange) : Extent :=
  let chars := text.toList
  let start := Text.floor range.start chars
  { start
    stop := max (Text.floor range.stop chars) start
    line := Text.lineAt chars start }

/-- Where the marked part of the line ends. -/
def markedStop (extent : Extent) : Nat :=
  min extent.stop extent.line.stop

end Extent

/-- The line of a range, cut at the start of the range and at the end of its marked part. -/
structure Excerpt where
  lineNumber : Nat
  line : String
  /-- The line up to the range. -/
  lead : String
  /-- The part of the range that lies on the line. -/
  marked : String

namespace Excerpt

/-- The text between two offsets that are known to bound a slice. -/
def cut (text : String) (start stop : Nat) : String :=
  (Text.slice? text start stop).getD ""

def ofRange (text : String) (range : TextRange) : Excerpt :=
  let extent := Extent.ofRange text range
  { lineNumber := extent.line.number
    line := cut text extent.line.start extent.line.stop
    lead := cut text extent.line.start extent.start
    marked := cut text extent.start extent.markedStop }

/-- Column of the range, counted in characters from one. -/
def column (excerpt : Excerpt) : Nat :=
  excerpt.lead.length + 1

/-- Number of marks below the line; an empty range is marked once. -/
def width (excerpt : Excerpt) : Nat :=
  max excerpt.marked.length 1

end Excerpt
end QueryAudit
