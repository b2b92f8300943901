import QueryAudit.Json.Token

/-! The outline of a JSON text: its grammar checked and its brackets matched, but numbers not
yet valued, escapes not yet joined and nesting not yet limited. A part of a text that nobody
asks for needs no more than an outline. -/
namespace QueryAudit

inductive JsonOutline where
  | null
  | bool (value : Bool)
  | number (numeral : Numeral)
  | text (pieces : List JsonPiece)
  | array (items : List JsonOutline)
  | object (fields : List (List JsonPiece × JsonOutline))

namespace JsonOutline

/-- An open bracket with what was read since, last first. An open object also holds the key
whose value is being read. -/
inductive Frame where
  | array (items : List JsonOutline)
  | object (fields : List (List JsonPiece × JsonOutline)) (key : List JsonPiece)

/-- What may come next. -/
inductive Awaiting where
  | value
  /-- A value, or the end of an array. -/
  | firstItem
  | key
  /-- A key, or the end of an object. -/
  | firstKey
  | colon
  /-- A comma or a closing bracket; nothing at all once every bracket is closed. -/
  | separator

/-- Open brackets, innermost first, and the finished value once there are none. -/
structure Progress where
  frames : List Frame := []
  awaiting : Awaiting := .value
  finished : Option JsonOutline := none

def ofWord? (chars : List Char) : Option JsonOutline :=
  if chars = "null".toList then some .null
  else if chars = "true".toList then some (.bool true)
  else if chars = "false".toList then some (.bool false)
  else (Numeral.ofChars? chars).map .number

/-- Puts a complete value where it belongs. -/
def place (value : JsonOutline) : List Frame → Progress
  | [] => { awaiting := .separator, finished := some value }
  | .array items :: rest => { frames := .array (value :: items) :: rest, awaiting := .separator }
  | .object fields key :: rest =>
    { frames := .object ((key, value) :: fields) [] :: rest, awaiting := .separator }

/-- Starts a value. -/
def begin? (frames : List Frame) : JsonToken → Option Progress
  | .word chars => (ofWord? chars).map (place · frames)
  | .text pieces => some (place (.text pieces) frames)
  | .openBracket => some { frames := .array [] :: frames, awaiting := .firstItem }
  | .openBrace => some { frames := .object [] [] :: frames, awaiting := .firstKey }
  | _ => none

/-- Closes the innermost bracket, which must be of the token's kind. -/
def close? : List Frame → JsonToken → Option Progress
  | .array items :: rest, .closeBracket => some (place (.array items.reverse) rest)
  | .object fields _ :: rest, .closeBrace => some (place (.object fields.reverse) rest)
  | _, _ => none

def key? : List Frame → JsonToken → Option Progress
  | .object fields _ :: rest, .text pieces =>
    some { frames := .object fields pieces :: rest, awaiting := .colon }
  | _, _ => none

/-- Goes on after a comma. -/
def next? : List Frame → Option Progress
  | [] => none
  | frames@(.array _ :: _) => some { frames, awaiting := .value }
  | frames@(.object .. :: _) => some { frames, awaiting := .key }

def step (progress : Progress) (token : JsonToken) : Option Progress :=
  let frames := progress.frames
  match progress.awaiting, token with
  | .firstItem, .closeBracket => close? frames token
  | .value, _ | .firstItem, _ => begin? frames token
  | .firstKey, .closeBrace => close? frames token
  | .key, _ | .firstKey, _ => key? frames token
  | .colon, .colon => some { frames, awaiting := .value }
  | .colon, _ => none
  | .separator, .comma => next? frames
  | .separator, _ => close? frames token

/-- The outline of a text that holds exactly one value. -/
def ofText? (text : String) : Option JsonOutline := do
  let tokens ← JsonToken.ofChars? text.toList
  let progress ← tokens.foldlM step {}
  progress.finished

end JsonOutline
end QueryAudit
