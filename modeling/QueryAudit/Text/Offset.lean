/-! Byte offsets into text. Offsets count UTF-8 bytes, so an offset may fall inside a character
or past the end; a slice exists only between two offsets that do neither. -/
namespace QueryAudit.Text

/-- Bytes that characters take in UTF-8. -/
def byteSize (chars : List Char) : Nat :=
  chars.foldr (fun c rest => c.utf8Size + rest) 0

/-- Splits characters at a byte offset that falls between two of them. -/
def splitAt? : (offset : Nat) → List Char → Option (List Char × List Char)
  | 0, chars => some ([], chars)
  | _ + 1, [] => none
  | offset + 1, c :: rest =>
    if c.utf8Size ≤ offset + 1 then
      (splitAt? (offset + 1 - c.utf8Size) rest).map fun (before, after) => (c :: before, after)
    else none

/-- The text between two byte offsets. -/
def slice? (text : String) (start stop : Nat) : Option String := do
  if start ≤ stop then
    let (_, after) ← splitAt? start text.toList
    let (inside, _) ← splitAt? (stop - start) after
    return String.ofList inside
  else none

/-- The greatest offset between characters that is not above the given one. -/
def floor : (offset : Nat) → List Char → Nat
  | _, [] => 0
  | offset, c :: rest =>
    if c.utf8Size ≤ offset then c.utf8Size + floor (offset - c.utf8Size) rest else 0

/-- A line of a text: its number, counted from one, and the offsets of its ends. -/
structure Line where
  number : Nat
  start : Nat
  stop : Nat

/-- The line that holds an offset. -/
def lineAt (chars : List Char) (offset : Nat) : Line :=
  let (before, after) := (splitAt? offset chars).getD (chars, [])
  let notBreak := fun c => c != '\n'
  { number := before.count '\n' + 1
    start := offset - byteSize (before.reverse.takeWhile notBreak)
    stop := offset + byteSize (after.takeWhile notBreak) }

end QueryAudit.Text

namespace QueryAudit

/-- A place in a text: the bytes from `start` up to `stop`. A node that was made up has the empty
place `0, 0`; an empty place says nothing about the text. -/
structure Loc where
  start : Nat := 0
  stop : Nat := 0
  deriving DecidableEq

namespace Loc

def isEmpty (loc : Loc) : Bool :=
  loc.stop ≤ loc.start

def length (loc : Loc) : Nat :=
  loc.stop - loc.start

/-- The text at a place that is not empty. -/
def slice? (loc : Loc) (text : String) : Option String :=
  if loc.isEmpty then none else Text.slice? text loc.start loc.stop

end Loc

end QueryAudit
