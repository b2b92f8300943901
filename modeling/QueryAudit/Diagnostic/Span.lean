import QueryAudit.Text.Offset

/-! Spans: ranges of bytes in numbered files. -/
namespace QueryAudit

structure TextRange where
  start : Nat
  stop : Nat
  deriving DecidableEq

namespace TextRange

/-- The largest offset a range can hold. -/
def greatestOffset : Nat := (1 <<< 32) - 1

/-- The range of a place; an offset that does not fit becomes the largest one. -/
def ofLoc (loc : Loc) : TextRange :=
  ⟨min loc.start greatestOffset, min loc.stop greatestOffset⟩

def length (range : TextRange) : Nat :=
  range.stop - range.start

def isEmpty (range : TextRange) : Bool :=
  range.stop ≤ range.start

end TextRange

/-- Number of a source file. -/
structure FileId where
  index : Nat
  deriving DecidableEq

structure Span where
  file : FileId
  range : TextRange
  deriving DecidableEq

namespace Span

def ofLoc (file : FileId) (loc : Loc) : Span :=
  ⟨file, .ofLoc loc⟩

/-- Spans are ordered by file, then by start, then by end. -/
def order : Span → Span → Ordering :=
  compareLex (compareOn (·.file.index))
    (compareLex (compareOn (·.range.start)) (compareOn (·.range.stop)))

end Span
end QueryAudit
