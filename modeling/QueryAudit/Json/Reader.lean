import QueryAudit.Json.Outline

/-! Reading JSON values. Brackets may nest to a fixed depth, numbers must be in range, and the
two halves of a surrogate pair must stand together. -/
namespace QueryAudit.Json

/-- Arrays and objects that may stand inside one another. -/
def nestingLimit : Nat := 127

/-- The characters of a string; `none` when half of a surrogate pair stands alone. -/
def joinPieces : List JsonPiece → Option (List Char)
  | [] => some []
  | .char c :: rest => (joinPieces rest).map (c :: ·)
  | .code high :: .code low :: rest =>
    if 0xD800 ≤ high ∧ high < 0xDC00 ∧ 0xDC00 ≤ low ∧ low < 0xE000 then
      (joinPieces rest).map (Char.ofNat (0x10000 + (high - 0xD800) * 0x400 + (low - 0xDC00)) :: ·)
    else if 0xD800 ≤ high ∧ high < 0xE000 then none
    else (joinPieces (.code low :: rest)).map (Char.ofNat high :: ·)
  | .code unit :: rest =>
    if 0xD800 ≤ unit ∧ unit < 0xE000 then none
    else (joinPieces rest).map (Char.ofNat unit :: ·)

def text? (pieces : List JsonPiece) : Option String :=
  (joinPieces pieces).map String.ofList

/-- The value of an outline with at most `levels` brackets inside one another. -/
def ofOutline? : (levels : Nat) → JsonOutline → Option Json
  | _, .null => some .null
  | _, .bool value => some (.bool value)
  | _, .number numeral => numeral.value?.map .number
  | _, .text pieces => (text? pieces).map .string
  | 0, .array _ | 0, .object _ => none
  | levels + 1, .array items => (items.mapM (ofOutline? levels)).map .array
  | levels + 1, .object fields =>
    (fields.mapM fun (key, value) => do
      return (← text? key, ← ofOutline? levels value)).map .object

/-- Reads a text that holds one value. -/
def read? (text : String) : Option Json :=
  JsonOutline.ofText? text >>= ofOutline? nestingLimit

/-- Reads a text, skipping the fields of an outermost object whose keys are not known. Of a
skipped value only the outline is checked. -/
def readKnown? (known : List String) (text : String) : Option Json := do
  match ← JsonOutline.ofText? text with
  | .object fields =>
    let kept ← fields.filterMapM fun (pieces, outline) => do
      let key ← text? pieces
      if key ∈ known then
        let value ← ofOutline? (nestingLimit - 1) outline
        return some (key, value)
      else return none
    return .object kept
  | outline => ofOutline? nestingLimit outline

end QueryAudit.Json
