import QueryAudit.Json.Basic
import QueryAudit.Decimal.Shortest

/-! JSON values as text, on one line or indented. -/
namespace QueryAudit.Json

/-- Lower-case hexadecimal digits, at least `width` of them. -/
def hex (width value : Nat) : String :=
  let digits := Nat.toDigits 16 value
  String.ofList (List.replicate (width - digits.length) '0' ++ digits)

/-- A character inside a string. Control characters are escaped, all others stand as they are. -/
def escapeChar (c : Char) : String :=
  match c with
  | '"' => "\\\""
  | '\\' => "\\\\"
  | '\n' => "\\n"
  | '\r' => "\\r"
  | '\t' => "\\t"
  | '\x08' => "\\b"
  | '\x0c' => "\\f"
  | c => if c < ' ' then "\\u" ++ hex 4 c.toNat else c.toString

def quoted (text : String) : String :=
  text.foldl (fun done c => done ++ escapeChar c) "\"" ++ "\""

/-- The shortest digits that read back. They are written with a point from `1e-5` up to `1e16`,
always with a fraction, and outside that range with an exponent. -/
def decimalText (decimal : Decimal) : String :=
  let digits := toString decimal.digits
  let point : Int := decimal.exponent + digits.length
  if decimal.digits = 0 then "0.0"
  else if -5 < point ∧ point ≤ 16 then
    if point ≤ 0 then "0." ++ "".pushn '0' point.natAbs ++ digits
    else
      let whole := digits.toList.take point.natAbs
      let fraction := digits.toList.drop point.natAbs
      let zeros := List.replicate (point.natAbs - digits.length) '0'
      String.ofList (whole ++ zeros ++ '.' :: (if fraction.isEmpty then ['0'] else fraction))
  else
    let rest := digits.toList.drop 1
    let exponent := point - 1
    String.ofList (digits.toList.take 1 ++ (if rest.isEmpty then [] else '.' :: rest)) ++
      (if exponent < 0 then "e-" else "e+") ++ toString exponent.natAbs

def numberText : JsonNumber → String
  | .natural value => toString value
  | .negative value => "-" ++ toString value
  | .double negative magnitude =>
    (if negative then "-" else "") ++ decimalText (.shortest magnitude)

mutual

/-- The value on one line, without blanks. -/
def compact : Json → String
  | null => "null"
  | bool value => if value then "true" else "false"
  | number value => numberText value
  | string value => quoted value
  | array items => "[" ++ ",".intercalate (compactItems items) ++ "]"
  | object fields => "\x7b" ++ ",".intercalate (compactFields fields) ++ "\x7d"

def compactItems : List Json → List String
  | [] => []
  | item :: rest => compact item :: compactItems rest

def compactFields : List (String × Json) → List String
  | [] => []
  | (key, value) :: rest => (quoted key ++ ":" ++ compact value) :: compactFields rest

end

/-- Lines between brackets, one step further in than the brackets. -/
def bracketed (indent : Nat) (opening closing : String) (lines : List String) : String :=
  if lines.isEmpty then opening ++ closing
  else
    let inner := "\n" ++ "".pushn ' ' (indent + 2)
    opening ++ inner ++ ("," ++ inner).intercalate lines ++ "\n" ++ "".pushn ' ' indent ++ closing

mutual

/-- The value with one item or field to a line, two blanks further in at every bracket. -/
def indentedBy (indent : Nat) : Json → String
  | array items => bracketed indent "[" "]" (indentedItems (indent + 2) items)
  | object fields => bracketed indent "\x7b" "\x7d" (indentedFields (indent + 2) fields)
  | null => "null"
  | bool value => if value then "true" else "false"
  | number value => numberText value
  | string value => quoted value

def indentedItems (indent : Nat) : List Json → List String
  | [] => []
  | item :: rest => indentedBy indent item :: indentedItems indent rest

def indentedFields (indent : Nat) : List (String × Json) → List String
  | [] => []
  | (key, value) :: rest =>
    (quoted key ++ ": " ++ indentedBy indent value) :: indentedFields indent rest

end

def indented (value : Json) : String :=
  value.indentedBy 0

end QueryAudit.Json
