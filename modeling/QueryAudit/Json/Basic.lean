import QueryAudit.Decimal.Binary64

/-! JSON values. Objects keep their fields in the order of the text, repeated keys included. -/
namespace QueryAudit

/-- A JSON number: an integer of at most 64 bits, or a signed double for everything else. -/
inductive JsonNumber where
  | natural (value : Nat)
  /-- The integer `-value`. -/
  | negative (value : Nat)
  | double (negative : Bool) (magnitude : Binary64)
  deriving DecidableEq

inductive Json where
  | null
  | bool (value : Bool)
  | number (value : JsonNumber)
  | string (value : String)
  | array (items : List Json)
  | object (fields : List (String × Json))

namespace Json

def ofNat (value : Nat) : Json :=
  .number (.natural value)

/-- `null` for a missing value. -/
def ofOption {α : Type} (encode : α → Json) : Option α → Json
  | none => .null
  | some value => encode value

def ofList {α : Type} (encode : α → Json) (values : List α) : Json :=
  .array (values.map encode)

def natural? : Json → Option Nat
  | number (.natural value) => some value
  | _ => none

def string? : Json → Option String
  | string value => some value
  | _ => none

def array? : Json → Option (List Json)
  | array items => some items
  | _ => none

/-- Reads an array item by item. -/
def list? {α : Type} (decode : Json → Option α) (value : Json) : Option (List α) :=
  value.array? >>= List.mapM decode

/-- Reads `null` as absence. -/
def nullable? {α : Type} (decode : Json → Option α) : Json → Option (Option α)
  | null => some none
  | value => (decode value).map some

/-- The values given for a key, in the order of the text. -/
def valuesOf (fields : List (String × Json)) (key : String) : List Json :=
  fields.filterMap fun field => if field.1 = key then some field.2 else none

/-- The value of a key that may be missing but must not be given twice. -/
def field? (fields : List (String × Json)) (key : String) : Option (Option Json) :=
  match valuesOf fields key with
  | [] => some none
  | [value] => some (some value)
  | _ => none

/-- Reads a field that must be there. -/
def required {α : Type} (fields : List (String × Json)) (key : String)
    (decode : Json → Option α) : Option α :=
  field? fields key >>= fun value => value >>= decode

/-- Reads a field that has a default when it is missing; `null` does not count as missing. -/
def withDefault {α : Type} (fields : List (String × Json)) (key : String) (default : α)
    (decode : Json → Option α) : Option α :=
  field? fields key >>= fun value => value.elim (some default) decode

/-- Replaces a key's value in fields sorted by key, or puts the field in its place. -/
def insertField (key : String) (value : Json) : List (String × Json) → List (String × Json)
  | [] => [(key, value)]
  | field :: rest =>
    if key < field.1 then (key, value) :: field :: rest
    else if key = field.1 then (key, value) :: rest
    else field :: insertField key value rest

mutual

/-- The value with the fields of every object sorted by key, the last of equal keys kept. -/
def sorted : Json → Json
  | null => null
  | bool value => bool value
  | number value => number value
  | string value => string value
  | array items => array (sortedItems items)
  | object fields => object (sortedFields [] fields)

def sortedItems : List Json → List Json
  | [] => []
  | item :: rest => sorted item :: sortedItems rest

def sortedFields (done : List (String × Json)) : List (String × Json) → List (String × Json)
  | [] => done
  | (key, value) :: rest => sortedFields (insertField key (sorted value) done) rest

end

end Json
end QueryAudit
