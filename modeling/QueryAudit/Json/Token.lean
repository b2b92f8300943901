import QueryAudit.Json.Number

/-! JSON text as tokens, read one character at a time. Letters, digits and signs that stand
together form one word: no two values touch in JSON, so a word is a literal or nothing. -/
namespace QueryAudit

/-- Part of a string: a character, or the code of a `\u` escape, which may be half a pair. -/
inductive JsonPiece where
  | char (value : Char)
  | code (unit : Nat)

inductive JsonToken where
  | openBrace
  | closeBrace
  | openBracket
  | closeBracket
  | comma
  | colon
  | word (chars : List Char)
  | text (pieces : List JsonPiece)

namespace JsonToken

/-- What is being read. Characters and pieces are kept last first. -/
inductive Reading where
  | between
  | word (taken : List Char)
  | text (taken : List JsonPiece)
  | escape (taken : List JsonPiece)
  /-- `missing` more digits of a code follow. -/
  | code (taken : List JsonPiece) (missing value : Nat)

/-- What is being read, and the tokens before it, last first. -/
structure Progress where
  reading : Reading := .between
  tokens : List JsonToken := []

def isBlank (c : Char) : Bool :=
  c == ' ' || c == '\n' || c == '\t' || c == '\r'

def mark? : Char → Option JsonToken
  | '{' => some openBrace
  | '}' => some closeBrace
  | '[' => some openBracket
  | ']' => some closeBracket
  | ',' => some comma
  | ':' => some colon
  | _ => none

def hexDigit? (c : Char) : Option Nat :=
  if c.isDigit then some (c.toNat - '0'.toNat)
  else if 'a' ≤ c ∧ c ≤ 'f' then some (c.toNat - 'a'.toNat + 10)
  else if 'A' ≤ c ∧ c ≤ 'F' then some (c.toNat - 'A'.toNat + 10)
  else none

/-- The character that a one-letter escape stands for. -/
def escaped? : Char → Option Char
  | '"' => some '"'
  | '\\' => some '\\'
  | '/' => some '/'
  | 'b' => some '\x08'
  | 'f' => some '\x0c'
  | 'n' => some '\n'
  | 'r' => some '\r'
  | 't' => some '\t'
  | _ => none

/-- A character outside strings, after the given tokens. -/
def outside (tokens : List JsonToken) (c : Char) : Progress :=
  if isBlank c then { tokens }
  else if c = '"' then { reading := .text [], tokens }
  else match mark? c with
    | some token => { tokens := token :: tokens }
    | none => { reading := .word [c], tokens }

/-- Reads one more character; a string holds no control characters. -/
def step (progress : Progress) (c : Char) : Option Progress :=
  let tokens := progress.tokens
  match progress.reading with
  | .between => some (outside tokens c)
  | .word taken =>
    if isBlank c || c == '"' || (mark? c).isSome then
      some (outside (word taken.reverse :: tokens) c)
    else some { reading := .word (c :: taken), tokens }
  | .text taken =>
    if c = '"' then some { tokens := text taken.reverse :: tokens }
    else if c = '\\' then some { reading := .escape taken, tokens }
    else if c < ' ' then none
    else some { reading := .text (.char c :: taken), tokens }
  | .escape taken =>
    if c = 'u' then some { reading := .code taken 4 0, tokens }
    else (escaped? c).map fun value => { reading := .text (.char value :: taken), tokens }
  | .code taken missing value =>
    (hexDigit? c).map fun digit =>
      let value := value * 16 + digit
      if missing ≤ 1 then { reading := .text (.code value :: taken), tokens }
      else { reading := .code taken (missing - 1) value, tokens }

/-- The tokens of a text; `none` when a string is not closed or not well formed. -/
def ofChars? (chars : List Char) : Option (List JsonToken) :=
  match chars.foldlM step {} with
  | some ⟨.between, tokens⟩ => some tokens.reverse
  | some ⟨.word taken, tokens⟩ => some (word taken.reverse :: tokens).reverse
  | _ => none

end JsonToken
end QueryAudit
