import QueryAudit.Dump.Basic
import QueryAudit.Dump.Layout
import QueryAudit.Json.Reader

/-! Unit dumps from JSON. Unknown keys are passed over everywhere except in a named argument,
known keys must not be given twice, and a default stands for a missing field only, never for
`null`. -/
namespace QueryAudit

namespace Scalar

/-- A tag, or an object with the tag as its only key and `null` as its value. -/
def ofJson? : Json → Option Scalar
  | .string tag => ofTag? tag
  | .object [(tag, .null)] => ofTag? tag
  | _ => none

/-- Inside a type entry an empty object may stand in the place of `null`. -/
def ofEntry? : Json → Option Scalar
  | .object [(tag, .object [])] => ofTag? tag
  | value => ofJson? value

end Scalar

namespace MemberEntry

def ofJson? (value : Json) : Option MemberEntry := do
  let layout ← Layout.ofJson? value
  guard (layout.fits 2)
  let name ← layout.required "name" 0 Json.string?
  let type ← layout.required "type" 1 Json.natural?
  return ⟨name, type⟩

end MemberEntry

namespace TypeEntry

/-- The largest rank that can be written down. -/
def greatestRank : Nat := 255

def rank? (value : Json) : Option Nat := do
  let rank ← value.natural?
  guard (rank ≤ greatestRank)
  return rank

def ofLayout? (kind : String) (layout : Layout) : Option TypeEntry :=
  match kind with
  | "scalar" => do
    guard (layout.fits 1)
    return scalar (← layout.required "scalar" 0 Scalar.ofEntry?)
  | "enum" => do
    guard (layout.fits 2)
    let name ← layout.required "name" 0 Json.string?
    let underlying ← layout.withDefault "underlying" 1 .int32 Scalar.ofEntry?
    return enumeration name underlying
  | "anonymous" => do
    guard (layout.fits 1)
    return anonymous (← layout.required "members" 0 (Json.list? MemberEntry.ofJson?))
  | "array" => do
    guard (layout.fits 2)
    let element ← layout.required "element" 0 Json.natural?
    let rank ← layout.withDefault "rank" 1 1 rank?
    return array element rank
  | "named" => do
    guard (layout.fits 2)
    let name ← layout.required "name" 0 Json.string?
    let arguments ← layout.withDefault "args" 1 [] (Json.list? Json.natural?)
    return named name arguments
  | _ => none

/-- An object with the kind of the type among its fields, or an array with the kind in front. -/
def ofJson? : Json → Option TypeEntry
  | .object fields => do
    let kind ← Json.required fields "kind" Json.string?
    ofLayout? kind (.keyed fields)
  | .array (.string kind :: items) => ofLayout? kind (.ordered items)
  | _ => none

end TypeEntry

namespace Note

def loc? : Json → Option Loc
  | .array [start, stop] => do return ⟨← start.natural?, ← stop.natural?⟩
  | _ => none

def ofFields? (fields : List (String × Json)) : Option Note := do
  let loc ← Json.withDefault fields "loc" none (Json.nullable? loc?)
  let convertedType ← Json.withDefault fields "converted_type" none (Json.nullable? Json.natural?)
  return ⟨loc, convertedType⟩

end Note

namespace Symbol

def method? (fields : List (String × Json)) : Option Symbol := do
  let name ← Json.required fields "method" Json.string?
  let containingType ←
    Json.withDefault fields "containing_type" none (Json.nullable? Json.string?)
  return method name containingType

/-- A method if the fields of one can be read, otherwise another symbol. -/
def ofJson? : Json → Option Symbol
  | .object fields => method? fields <|> (Json.required fields "other" Json.string?).map other
  | _ => none

end Symbol

namespace ExprEntry

/-- Shapes of expression, in the order of their numbers. -/
inductive Shape where
  | anonymous
  | call
  | cast
  | identifier
  | lambda
  | literal
  | member
  | paren
  | other

namespace Shape

/-- Every shape with its name. -/
def named : List (String × Shape) :=
  [("anon", anonymous), ("call", call), ("cast", cast), ("id", identifier), ("lambda", lambda),
    ("lit", literal), ("member", member), ("paren", paren), ("other", other)]

/-- A shape is given by its name or by its number. -/
def ofJson? : Json → Option Shape
  | .string name => named.lookup name
  | .number (.natural position) => named[position]?.map Prod.snd
  | _ => none

end Shape

mutual

def ofJson? (value : Json) : Option ExprEntry :=
  match value with
  | .object fields => do
    let note ← Note.ofFields? fields
    let shape ← Json.required fields "kind" Shape.ofJson?
    match shape with
    | .anonymous =>
      let members ← (← Json.requiredParts? fields "members").mapM fun ⟨item, _⟩ => member? item
      return anonymous note members
    | .call =>
      let ⟨callee, _⟩ ← ← Json.part? fields "callee"
      let callee ← ofJson? callee
      let arguments ← (← Json.defaultParts? fields "args").mapM fun ⟨item, _⟩ => argument? item
      let resolved ← Json.withDefault fields "resolved" none (Json.nullable? Symbol.ofJson?)
      return call note callee arguments resolved
    | .cast =>
      let typeName ← Json.required fields "type_name" Json.string?
      let ⟨inner, _⟩ ← ← Json.part? fields "value"
      return cast note typeName (← ofJson? inner)
    | .identifier => return identifier note (← Json.required fields "name" Json.string?)
    | .lambda =>
      let parameters ← Json.withDefault fields "params" [] (Json.list? Json.string?)
      let ⟨body, _⟩ ← ← Json.part? fields "body"
      return lambda note parameters (← ofJson? body)
    | .literal => return literal note (← Json.required fields "value" some)
    | .member =>
      let ⟨left, _⟩ ← ← Json.part? fields "left"
      let left ← ofJson? left
      return member note left (← Json.required fields "name" Json.string?)
    | .paren =>
      let ⟨inner, _⟩ ← ← Json.part? fields "value"
      return paren note (← ofJson? inner)
    | .other =>
      let text ← Json.withDefault fields "text" "" Json.string?
      let children ← (← Json.defaultParts? fields "children").mapM fun ⟨item, _⟩ => ofJson? item
      return other note text children
  | _ => none
termination_by (sizeOf value, 0)

/-- A member of an anonymous record: an object with an optional name, or name and value in an
array. -/
def member? (value : Json) : Option (SlotEntry ExprEntry) :=
  match value with
  | .object fields => do
    let name ← Json.withDefault fields "name" none (Json.nullable? Json.string?)
    let ⟨inner, _⟩ ← ← Json.part? fields "value"
    return ⟨name, ← ofJson? inner⟩
  | .array [name, inner] => do
    return ⟨← Json.nullable? Json.string? name, ← ofJson? inner⟩
  | _ => none
termination_by (sizeOf value, 0)

/-- A named argument: an object with exactly a name and a value, or both in an array. -/
def namedArgument? (value : Json) : Option (SlotEntry ExprEntry) :=
  match value with
  | .object fields =>
    if fields.all fun field => field.1 == "name" || field.1 == "value" then do
      let name ← Json.required fields "name" Json.string?
      let ⟨inner, _⟩ ← ← Json.part? fields "value"
      return ⟨some name, ← ofJson? inner⟩
    else none
  | .array [name, inner] => do
    return ⟨some (← name.string?), ← ofJson? inner⟩
  | _ => none
termination_by (sizeOf value, 1)

/-- A named argument if it can be read as one, otherwise an expression. -/
def argument? (value : Json) : Option (SlotEntry ExprEntry) :=
  match namedArgument? value with
  | some slot => some slot
  | none => (ofJson? value).map fun expr => ⟨none, expr⟩
termination_by (sizeOf value, 2)

end

end ExprEntry

namespace UnitDump

/-- The fields of a dump, in order. -/
def keys : List String :=
  ["file", "text", "types", "roots"]

def ofJson? (value : Json) : Option UnitDump := do
  let layout ← Layout.ofJson? value
  guard (layout.fits keys.length)
  let file ← layout.required "file" 0 Json.string?
  let text ← layout.withDefault "text" 1 none (Json.nullable? Json.string?)
  let types ← layout.withDefault "types" 2 [] (Json.list? TypeEntry.ofJson?)
  let roots ← layout.withDefault "roots" 3 [] (Json.list? ExprEntry.ofJson?)
  return ⟨file, text, types, roots⟩

/-- Reads a dump. Values of unknown fields of the dump itself are skipped, however deep they
nest. -/
def read? (text : String) : Option UnitDump :=
  Json.readKnown? keys text >>= ofJson?

end UnitDump
end QueryAudit
