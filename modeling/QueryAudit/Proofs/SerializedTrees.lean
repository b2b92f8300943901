import Mathlib.Data.String.Basic
import Mathlib.Tactic.TFAE
import QueryAudit.Proofs.RemarkedTrees
import QueryAudit.Proofs.WrittenDumps
import QueryAudit.Tree.Serial

/-! Trees told from their JSON values. The tag of a shape stands among the fields of that shape, and
several shapes have fields of the same names; still nothing of a tree but its marks is lost in its
value, in whatever order the fields of objects are written. -/
namespace QueryAudit

/-! ## Objects with their fields in order -/

namespace Json

variable {key : String} {value : Json} {field : String × Json}
  {fields done rest : List (String × Json)}

theorem insertField_before (before : key < field.1) :
    insertField key value (field :: rest) = (key, value) :: field :: rest :=
  if_pos before

theorem insertField_behind (behind : field.1 < key) :
    insertField key value (field :: rest) = field :: insertField key value rest := by
  rw [insertField, if_neg (String.lt_asymm behind), if_neg (String.ne_of_lt behind).symm]

theorem insertField_last (last : ∀ before ∈ fields.map Prod.fst, before < key) :
    insertField key value fields = fields ++ [(key, value)] := by
  induction fields with
  | nil => rfl
  | cons field rest ih =>
    rw [List.map_cons, List.forall_mem_cons] at last
    rw [insertField_behind last.1, ih last.2, List.cons_append]

/-- Fields that are in order stay where they are. -/
theorem sortedFields_ascending
    (ascending : (done.map Prod.fst ++ fields.map Prod.fst).Pairwise (· < ·)) :
    sortedFields done fields = done ++ fields.map fun field => (field.1, field.2.sorted) := by
  induction fields generalizing done with
  | nil => rw [sortedFields, List.map_nil, List.append_nil]
  | cons field rest ih =>
    obtain ⟨key, value⟩ := field
    have last : ∀ before ∈ done.map Prod.fst, before < key := fun before listed =>
      (List.pairwise_append.mp ascending).2.2 before listed key List.mem_cons_self
    rw [sortedFields, insertField_last last, ih (by simpa using ascending), List.map_cons,
      List.append_assoc, List.singleton_append]

theorem sorted_object (ascending : (fields.map Prod.fst).Pairwise (· < ·)) :
    (object fields).sorted = object (fields.map fun field => (field.1, field.2.sorted)) := by
  rw [sorted, sortedFields_ascending (by exact ascending), List.nil_append]

theorem sorted_ofList_string (texts : List String) :
    (ofList string texts).sorted = ofList string texts := by
  have items : sortedItems (texts.map string) = texts.map string := by
    induction texts with
    | nil => rfl
    | cons text rest ih => rw [List.map_cons, sortedItems, ih, sorted]
  rw [ofList, sorted, items]

end Json

namespace Expr

variable {tag key other : String} {value inner : Json} {fields : List (String × Json)}

theorem sorted_tagged (ascending : ("$t" :: fields.map Prod.fst).Pairwise (· < ·)) :
    (tagged tag fields).sorted =
      tagged tag (fields.map fun field => (field.1, field.2.sorted)) := by
  rw [tagged, Json.sorted_object (by exact ascending), List.map_cons, Json.sorted, tagged]

/-- Two fields that are declared the other way round change places. -/
theorem sorted_tagged_swap (first : "$t" < key) (second : key < other) :
    (tagged tag [(other, inner), (key, value)]).sorted =
      tagged tag [(key, value.sorted), (other, inner.sorted)] := by
  simp only [tagged, Json.sorted, Json.sortedFields]
  rw [Json.insertField, Json.insertField_behind (String.lt_trans first second), Json.insertField,
    Json.insertField_behind first, Json.insertField_before second]

end Expr

/-! ## Reading -/

/-- A literal from a value with its fields in order. -/
def Literal.ofSorted? : Json → Option Literal
  | .object [("kind", .string "Bool"), ("value", .bool value)] => some (.bool value)
  | .object [("kind", .string "Null")] => some .null
  | .object [("kind", .string "Num"), ("value", .string written)] => some (.number written)
  | .object [("kind", .string "Str"), ("value", .string value)] => some (.string value)
  | _ => none

namespace Expr

mutual

/-- A tree from a value with the fields of every object in order. No node has a place or facts. -/
def ofSorted? : Json → Option Expr
  | .object (("$t", .string tag) :: fields) => ofFields? tag fields
  | _ => none

/-- The shape that a tag stands for, from its own fields. -/
def ofFields? (tag : String) : List (String × Json) → Option Expr
  | [("members", .array members)] =>
    if tag = "AnonObj" then (slots? members).map (anonymous {}) else none
  | [("arguments", .array arguments), ("callee", callee)] =>
    if tag = "Call" then do return call {} (← ofSorted? callee) (← slots? arguments) else none
  | [("type_name", .string typeName), ("value", value)] =>
    if tag = "Cast" then (ofSorted? value).map (cast {} typeName) else none
  | [("name", .string name)] => if tag = "Id" then some (identifier {} name) else none
  | [("body", body), ("params", parameters)] =>
    if tag = "Lambda" then do
      return lambda {} (← parameters.list? Json.string?) (← ofSorted? body)
    else none
  -- A literal and parentheses have a field of the same name, and only their tags differ.
  | [("value", value)] =>
    if tag = "Lit" then (Literal.ofSorted? value).map (literal {})
    else if tag = "Paren" then (ofSorted? value).map (paren {})
    else none
  | [("left", left), ("right", .string name)] =>
    if tag = "Member" then (ofSorted? left).map (member {} · name) else none
  | [("children", .array children), ("text", .string text)] =>
    if tag = "Other" then (children? children).map (other {} text) else none
  | _ => none

def slots? : List Json → Option (List (Slot Expr))
  | [] => some []
  | .object [("name", name), ("value", value)] :: rest => do
    let name ← name.nullable? Json.string?
    let value ← ofSorted? value
    return { name, value } :: (← slots? rest)
  | _ => none

def children? : List Json → Option (List Expr)
  | [] => some []
  | child :: rest => do return (← ofSorted? child) :: (← children? rest)

end

/-- A tree from a value. The fields of an object may come in any order. -/
def ofJson? (value : Json) : Option Expr :=
  ofSorted? value.sorted

/-- A tree without places and facts. -/
abbrev unmarked (expr : Expr) : Expr :=
  expr.remark fun _ => {}

end Expr

/-! ## Reading back -/

theorem Literal.ofSorted?_toJson (literal : Literal) :
    ofSorted? literal.toJson.sorted = some literal := by
  have ordered : ["kind", "value"].Pairwise (· < ·) := by decide
  cases literal with
  | null => rfl
  | bool | number | string =>
    rw [toJson, Json.sorted_object (by exact ordered)]
    rfl

@[simp] theorem Marks.map_unmarked (marks : Marks) : marks.map (fun _ => {}) = {} := rfl

namespace Expr

theorem slots?_toJson {slots : List (Slot Expr)}
    (each : ∀ slot ∈ slots, ofSorted? slot.value.toJson.sorted = some slot.value.unmarked) :
    slots? (Json.sortedItems (slotsToJson slots)) = some (remarkSlots (fun _ => {}) slots) := by
  have ordered : ["name", "value"].Pairwise (· < ·) := by decide
  induction slots with
  | nil => rfl
  | cons slot rest ih =>
    obtain ⟨mark, name, value⟩ := slot
    have first := each _ List.mem_cons_self
    have others := ih fun other listed => each other (List.mem_cons_of_mem _ listed)
    have named : Json.nullable? Json.string? (Json.ofOption .string name).sorted = some name := by
      cases name with
      | none | some => rfl
    rw [slotsToJson, Json.sortedItems, Json.sorted_object (by exact ordered)]
    simp [slots?, named, first, others]

theorem children?_toJson {children : List Expr}
    (each : ∀ child ∈ children, ofSorted? child.toJson.sorted = some child.unmarked) :
    children? (Json.sortedItems (childrenToJson children)) =
      some (remarkChildren (fun _ => {}) children) := by
  induction children with
  | nil => rfl
  | cons child rest ih =>
    have first := each child List.mem_cons_self
    have others := ih fun other listed => each other (List.mem_cons_of_mem _ listed)
    simp [childrenToJson, Json.sortedItems, children?, first, others]

theorem ofSorted?_toJson (expr : Expr) : ofSorted? expr.toJson.sorted = some expr.unmarked := by
  induction expr with
  | anonymous marks members each =>
    rw [toJson, sorted_tagged (by simp only [List.map]; decide)]
    simp [tagged, ofSorted?, ofFields?, Json.sorted, slots?_toJson each]
  | call marks callee arguments ih each =>
    rw [toJson, sorted_tagged_swap (by decide) (by decide)]
    simp [tagged, ofSorted?, ofFields?, Json.sorted, slots?_toJson each, ih]
  | cast marks typeName value ih =>
    rw [toJson, sorted_tagged (by simp only [List.map]; decide)]
    simp [tagged, ofSorted?, ofFields?, Json.sorted, ih]
  | identifier marks name =>
    rw [toJson, sorted_tagged (by simp only [List.map]; decide)]
    simp [tagged, ofSorted?, ofFields?, Json.sorted]
  | lambda marks parameters body ih =>
    rw [toJson, sorted_tagged_swap (by decide) (by decide)]
    simp [tagged, ofSorted?, ofFields?, Json.sorted_ofList_string,
      Json.list?_string?_ofList, ih]
  | literal marks value =>
    rw [toJson, sorted_tagged (by simp only [List.map]; decide)]
    simp [tagged, ofSorted?, ofFields?, Literal.ofSorted?_toJson]
  | member marks left name ih =>
    rw [toJson, sorted_tagged (by simp only [List.map]; decide)]
    simp [tagged, ofSorted?, ofFields?, Json.sorted, ih]
  | paren marks value ih =>
    rw [toJson, sorted_tagged (by simp only [List.map]; decide)]
    simp [tagged, ofSorted?, ofFields?, ih]
  | other marks text children each =>
    rw [toJson, sorted_tagged_swap (by decide) (by decide)]
    simp [tagged, ofSorted?, ofFields?, Json.sorted, children?_toJson each]

/-! ## Marks are left out -/

variable {change : Mark → Mark}

theorem slotsToJson_remark {slots : List (Slot Expr)}
    (same : ∀ slot ∈ slots, (slot.value.remark change).toJson = slot.value.toJson) :
    slotsToJson (remarkSlots change slots) = slotsToJson slots := by
  induction slots with
  | nil => rfl
  | cons slot rest ih =>
    simp only [remarkSlots, slotsToJson]
    rw [same slot List.mem_cons_self,
      ih fun other listed => same other (List.mem_cons_of_mem _ listed)]

theorem childrenToJson_remark {children : List Expr}
    (same : ∀ child ∈ children, (child.remark change).toJson = child.toJson) :
    childrenToJson (remarkChildren change children) = childrenToJson children := by
  induction children with
  | nil => rfl
  | cons child rest ih =>
    simp only [remarkChildren, childrenToJson]
    rw [same child List.mem_cons_self,
      ih fun other listed => same other (List.mem_cons_of_mem _ listed)]

theorem toJson_remark (expr : Expr) : (expr.remark change).toJson = expr.toJson := by
  induction expr with
  | anonymous marks members ih => simp only [remark, toJson, slotsToJson_remark ih]
  | call marks callee arguments ihCallee ihArguments =>
    simp only [remark, toJson, ihCallee, slotsToJson_remark ihArguments]
  | cast _ _ _ ih | lambda _ _ _ ih | member _ _ _ ih | paren _ _ ih =>
    simp only [remark, toJson, ih]
  | identifier | literal => simp only [remark, toJson]
  | other marks text children ih => simp only [remark, toJson, childrenToJson_remark ih]

/-- The value of a tree says all of it but its marks. Two trees have the same value, with the fields
of objects as they are written or in any order, exactly when they differ in marks at most; the tree
without marks is read back from its value; and trees with the same value print the same. -/
theorem toJson_determines_tree :
    (∀ left right : Expr, List.TFAE [left.toJson = right.toJson,
      left.toJson.sorted = right.toJson.sorted, left.unmarked = right.unmarked]) ∧
    (∀ expr : Expr, ofJson? expr.toJson = some expr.unmarked) ∧
    ∀ left right : Expr, left.toJson.sorted = right.toJson.sorted → left.print = right.print := by
  have told (left right : Expr) (same : left.toJson.sorted = right.toJson.sorted) :
      left.unmarked = right.unmarked := by
    have read := congrArg ofSorted? same
    rw [ofSorted?_toJson, ofSorted?_toJson] at read
    exact Option.some.inj read
  refine ⟨?_, ofSorted?_toJson, ?_⟩
  · intro left right
    tfae_have 1 → 2 := congrArg Json.sorted
    tfae_have 2 → 3 := told left right
    tfae_have 3 → 1 := fun same =>
      calc left.toJson
          = left.unmarked.toJson := (toJson_remark left).symm
        _ = right.unmarked.toJson := congrArg toJson same
        _ = right.toJson := toJson_remark right
    tfae_finish
  · intro left right same
    calc left.print
        = left.unmarked.print := (print_remark left).symm
      _ = right.unmarked.print := congrArg print (told left right same)
      _ = right.print := print_remark right

end Expr
end QueryAudit
