import QueryAudit.Json.Basic

/-! Records in JSON. A record is an object, whose fields may come in any order among fields that
nobody asks for, or an array of its fields in order, whose end may be left out. Values inside a
record are handed out with the fact that they are smaller than the record, so that a reader can
go into them. -/
namespace QueryAudit

/-- The fields of a record, by key or by position. -/
inductive Layout where
  | keyed (fields : List (String × Json))
  | ordered (items : List Json)

namespace Layout

def ofJson? : Json → Option Layout
  | .object fields => some (keyed fields)
  | .array items => some (ordered items)
  | _ => none

/-- The value of a field; `none` for a key that is given twice. -/
def field? (layout : Layout) (key : String) (position : Nat) : Option (Option Json) :=
  match layout with
  | keyed fields => Json.field? fields key
  | ordered items => some items[position]?

/-- Whether an array holds no more than the given number of fields. -/
def fits (layout : Layout) (count : Nat) : Bool :=
  match layout with
  | keyed _ => true
  | ordered items => items.length ≤ count

/-- Reads a field that must be there. -/
def required {α : Type} (layout : Layout) (key : String) (position : Nat)
    (decode : Json → Option α) : Option α :=
  layout.field? key position >>= fun value => value >>= decode

/-- Reads a field that has a default when it is missing. -/
def withDefault {α : Type} (layout : Layout) (key : String) (position : Nat) (default : α)
    (decode : Json → Option α) : Option α :=
  layout.field? key position >>= fun value => value.elim (some default) decode

end Layout

namespace Json

theorem sizeOf_lt_of_mem_valuesOf {fields : List (String × Json)} {key : String} {value : Json}
    (member : value ∈ valuesOf fields key) : sizeOf value < sizeOf fields := by
  obtain ⟨⟨own, found⟩, inside, kept⟩ := List.mem_filterMap.mp member
  have smaller := List.sizeOf_lt_of_mem inside
  split at kept
  · cases kept
    simp only [Prod.mk.sizeOf_spec] at smaller ⊢
    omega
  · cases kept

/-- A value inside the fields of an object. -/
abbrev Inside (fields : List (String × Json)) : Type :=
  { value : Json // sizeOf value < sizeOf fields }

/-- The value of a key that may be missing but must not be given twice, as a part of the
object. -/
def part? (fields : List (String × Json)) (key : String) : Option (Option (Inside fields)) :=
  match (valuesOf fields key).attach with
  | [] => some none
  | [⟨value, member⟩] => some (some ⟨value, sizeOf_lt_of_mem_valuesOf member⟩)
  | _ => none

/-- The items of an array inside the fields of an object. -/
def itemsInside? {fields : List (String × Json)} : Inside fields → Option (List (Inside fields))
  | ⟨.array items, smaller⟩ =>
    some (items.attach.map fun ⟨item, member⟩ => ⟨item, by
      have inner := List.sizeOf_lt_of_mem member
      simp only [array.sizeOf_spec] at smaller
      omega⟩)
  | _ => none

/-- The items of an array field that must be there. -/
def requiredParts? (fields : List (String × Json)) (key : String) : Option (List (Inside fields)) := do
  itemsInside? (← ← part? fields key)

/-- The items of an array field that is empty when it is missing. -/
def defaultParts? (fields : List (String × Json)) (key : String) : Option (List (Inside fields)) := do
  match ← part? fields key with
  | none => return []
  | some value => itemsInside? value

end Json
end QueryAudit
