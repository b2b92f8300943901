import Mathlib.Control.Basic
import Mathlib.Data.Option.Basic
import Mathlib.Data.String.Basic
import QueryAudit.Dump.Reader
import QueryAudit.Proofs.EntryTrees
import QueryAudit.Proofs.WrittenTexts

/-! Dumps written as JSON values, every field under its name, and read back. An entry of any
nesting is read back as it was, in whatever position it stands: a named argument has no key
besides its name and its value and so never passes for an expression, which has a kind. A dump on
one line is read back too. -/
namespace QueryAudit

/-! ## Writing -/

def Scalar.toJson (scalar : Scalar) : Json :=
  .string scalar.tag

def MemberEntry.toJson (entry : MemberEntry) : Json :=
  .object [("name", .string entry.name), ("type", .ofNat entry.type)]

def TypeEntry.toJson : TypeEntry → Json
  | scalar own => .object [("kind", .string "scalar"), ("scalar", own.toJson)]
  | enumeration name underlying =>
    .object [("kind", .string "enum"), ("name", .string name), ("underlying", underlying.toJson)]
  | anonymous members =>
    .object [("kind", .string "anonymous"), ("members", .ofList MemberEntry.toJson members)]
  | array element rank =>
    .object [("kind", .string "array"), ("element", .ofNat element), ("rank", .ofNat rank)]
  | named name arguments =>
    .object [("kind", .string "named"), ("name", .string name), ("args", .ofList .ofNat arguments)]

/-- Ranks have one byte. -/
def TypeEntry.RankFits : TypeEntry → Prop
  | array _ rank => rank ≤ greatestRank
  | _ => True

def Loc.toJson (loc : Loc) : Json :=
  .array [.ofNat loc.start, .ofNat loc.stop]

/-- The annotations stand among the fields of the expression that they belong to. -/
def Note.fields (note : Note) : List (String × Json) :=
  [("loc", .ofOption Loc.toJson note.loc),
    ("converted_type", .ofOption Json.ofNat note.convertedType)]

def Symbol.toJson : Symbol → Json
  | method name containingType =>
    .object [("method", .string name), ("containing_type", .ofOption .string containingType)]
  | other name => .object [("other", .string name)]

namespace SlotEntry

/-- A member of an anonymous record, around its value. -/
def memberJson (name : Option String) (value : Json) : Json :=
  .object [("name", .ofOption .string name), ("value", value)]

/-- An argument: just its name and its value, or the value alone if it has no name. -/
def argumentJson : (name : Option String) → (value : Json) → Json
  | some name, value => .object [("name", .string name), ("value", value)]
  | none, value => value

end SlotEntry

namespace ExprEntry

mutual

def toJson : ExprEntry → Json
  | anonymous note members =>
    .object (note.fields ++ [("kind", .string "anon"),
      ("members", .array (slotsJson SlotEntry.memberJson members))])
  | call note callee arguments resolved =>
    .object (note.fields ++ [("kind", .string "call"), ("callee", callee.toJson),
      ("args", .array (slotsJson SlotEntry.argumentJson arguments)),
      ("resolved", .ofOption Symbol.toJson resolved)])
  | cast note typeName value =>
    .object (note.fields ++ [("kind", .string "cast"), ("type_name", .string typeName),
      ("value", value.toJson)])
  | identifier note name =>
    .object (note.fields ++ [("kind", .string "id"), ("name", .string name)])
  | lambda note parameters body =>
    .object (note.fields ++ [("kind", .string "lambda"),
      ("params", .ofList .string parameters), ("body", body.toJson)])
  | literal note value => .object (note.fields ++ [("kind", .string "lit"), ("value", value)])
  | member note left name =>
    .object (note.fields ++ [("kind", .string "member"), ("left", left.toJson),
      ("name", .string name)])
  | paren note value =>
    .object (note.fields ++ [("kind", .string "paren"), ("value", value.toJson)])
  | other note text children =>
    .object (note.fields ++ [("kind", .string "other"), ("text", .string text),
      ("children", .array (childrenJson children))])

def slotsJson (wrap : Option String → Json → Json) : List (SlotEntry ExprEntry) → List Json
  | [] => []
  | ⟨name, value⟩ :: rest => wrap name value.toJson :: slotsJson wrap rest

def childrenJson : List ExprEntry → List Json
  | [] => []
  | child :: rest => child.toJson :: childrenJson rest

end

theorem slotsJson_eq_map (wrap : Option String → Json → Json)
    (slots : List (SlotEntry ExprEntry)) :
    slotsJson wrap slots = slots.map fun slot => wrap slot.name slot.value.toJson := by
  induction slots with
  | nil => rw [slotsJson, List.map_nil]
  | cons slot rest ih => rw [slotsJson, ih, List.map_cons]

theorem childrenJson_eq_map (children : List ExprEntry) :
    childrenJson children = children.map toJson := by
  induction children with
  | nil => rw [childrenJson, List.map_nil]
  | cons child rest ih => rw [childrenJson, ih, List.map_cons]

end ExprEntry

def UnitDump.toJson (dump : UnitDump) : Json :=
  .object [("file", .string dump.file), ("text", .ofOption .string dump.text),
    ("types", .ofList TypeEntry.toJson dump.types), ("roots", .ofList ExprEntry.toJson dump.roots)]

/-! ## Reading values back -/

namespace Json

variable {α : Type} {decode : Json → Option α} {encode : α → Json}
  {fields : List (String × Json)} {key : String}

@[simp] theorem valuesOf_nil : valuesOf [] key = [] :=
  rfl

@[simp] theorem valuesOf_cons (own : String) (value : Json) (rest : List (String × Json)) :
    valuesOf ((own, value) :: rest) key =
      if own = key then value :: valuesOf rest key else valuesOf rest key := by
  by_cases same : own = key
  · simp [valuesOf, same]
  · simp [valuesOf, same]

theorem valuesOf_eq_nil_iff :
    valuesOf fields key = [] ↔ ∀ field ∈ fields, field.1 ≠ key := by
  simp [valuesOf]

theorem mapM_map_encode_iff (values : List α) :
    (values.map encode).mapM decode = some values ↔
      ∀ value ∈ values, decode (encode value) = some value := by
  induction values with
  | nil => simp
  | cons head rest ih =>
    rw [List.map_cons, List.mapM_cons, List.forall_mem_cons, ← ih]
    constructor
    · intro read
      obtain ⟨first, headRead, read⟩ := Option.bind_eq_some_iff.mp read
      obtain ⟨later, restRead, read⟩ := Option.bind_eq_some_iff.mp read
      cases read
      exact ⟨headRead, restRead⟩
    · rintro ⟨headRead, restRead⟩
      rw [headRead, restRead]
      rfl

theorem list?_ofList_iff (values : List α) :
    list? decode (ofList encode values) = some values ↔
      ∀ value ∈ values, decode (encode value) = some value :=
  mapM_map_encode_iff values

theorem nullable?_ofOption (value : Option α) (present : ∀ inner, encode inner ≠ .null)
    (each : ∀ inner, decode (encode inner) = some inner) :
    nullable? decode (ofOption encode value) = some value := by
  cases value with
  | none => rfl
  | some inner =>
    have skipped : nullable? decode (encode inner) = (decode (encode inner)).map some := by
      unfold nullable?
      split
      · next isNull => exact absurd isNull (present inner)
      · rfl
    rw [ofOption, skipped, each inner, Option.map_some]

@[simp] theorem natural?_ofNat (value : Nat) : (ofNat value).natural? = some value :=
  rfl

@[simp] theorem string?_string (value : String) : (string value).string? = some value :=
  rfl

theorem list?_string?_ofList (texts : List String) :
    list? string? (ofList string texts) = some texts :=
  (list?_ofList_iff texts).mpr fun text _ => string?_string text

@[simp] theorem nullable?_string?_ofOption (value : Option String) :
    nullable? string? (ofOption string value) = some value :=
  nullable?_ofOption value (fun _ => nofun) fun _ => rfl

/-! Reading through parts that are known to be smaller is plain reading. -/

theorem field?_eq_part? : field? fields key = (part? fields key).map (Option.map Subtype.val) := by
  have values : (valuesOf fields key).attach.map Subtype.val = valuesOf fields key :=
    List.attach_map_subtype_val _
  unfold field? part?
  generalize (valuesOf fields key).attach = parts at values ⊢
  -- The parts mention the values in their type, so only the left side is rewritten.
  conv_lhs => rw [← values]
  match parts with
  | [] | [_] | _ :: _ :: _ => rfl

theorem required_eq_part? : required fields key decode =
    (part? fields key >>= fun value => value >>= fun inner => decode inner.val) := by
  rw [required, field?_eq_part?]
  match part? fields key with
  | none | some none | some (some _) => rfl

theorem list?_eq_itemsInside? (value : Inside fields) :
    list? decode value.val =
      (itemsInside? value >>= fun items => items.mapM fun item => decode item.val) := by
  match value with
  | ⟨.array items, _⟩ =>
    have unattached : items.mapM decode = items.attach.mapM (decode ∘ Subtype.val) := by
      rw [← List.mapM_map, List.attach_map_subtype_val]
    rw [itemsInside?, Option.bind_eq_bind, Option.bind_some, List.mapM_map]
    exact unattached
  | ⟨.null, _⟩ | ⟨.bool _, _⟩ | ⟨.number _, _⟩ | ⟨.string _, _⟩ | ⟨.object _, _⟩ => rfl

theorem required_list?_eq : required fields key (list? decode) =
    (requiredParts? fields key >>= fun items => items.mapM fun item => decode item.val) := by
  rw [required_eq_part?, requiredParts?]
  simp only [list?_eq_itemsInside?, bind_assoc]

theorem withDefault_list?_eq : withDefault fields key [] (list? decode) =
    (defaultParts? fields key >>= fun items => items.mapM fun item => decode item.val) := by
  rw [withDefault, field?_eq_part?, defaultParts?]
  match part? fields key with
  | none | some none => rfl
  | some (some value) => exact list?_eq_itemsInside? value

end Json

namespace ExprEntry

/-- The fields of each shape, besides the annotations and the kind. -/
def ofShape? (note : Note) (fields : List (String × Json)) : Shape → Option ExprEntry
  | .anonymous => do
    return anonymous note (← Json.required fields "members" (Json.list? member?))
  | .call => do
    let callee ← Json.required fields "callee" ofJson?
    let arguments ← Json.withDefault fields "args" [] (Json.list? argument?)
    let resolved ← Json.withDefault fields "resolved" none (Json.nullable? Symbol.ofJson?)
    return call note callee arguments resolved
  | .cast => do
    let typeName ← Json.required fields "type_name" Json.string?
    return cast note typeName (← Json.required fields "value" ofJson?)
  | .identifier => do return identifier note (← Json.required fields "name" Json.string?)
  | .lambda => do
    let parameters ← Json.withDefault fields "params" [] (Json.list? Json.string?)
    return lambda note parameters (← Json.required fields "body" ofJson?)
  | .literal => do return literal note (← Json.required fields "value" some)
  | .member => do
    let left ← Json.required fields "left" ofJson?
    return member note left (← Json.required fields "name" Json.string?)
  | .paren => do return paren note (← Json.required fields "value" ofJson?)
  | .other => do
    let text ← Json.withDefault fields "text" "" Json.string?
    return other note text (← Json.withDefault fields "children" [] (Json.list? ofJson?))

theorem ofJson?_object (fields : List (String × Json)) :
    ofJson? (.object fields) =
      Note.ofFields? fields >>= fun note =>
        Json.required fields "kind" Shape.ofJson? >>= ofShape? note fields := by
  rw [ofJson?]
  refine bind_congr fun note => bind_congr fun shape => ?_
  cases shape with
  | anonymous => simp only [ofShape?, Json.required_list?_eq, bind_assoc]
  | call =>
    simp only [ofShape?, Json.required_eq_part?, Json.withDefault_list?_eq, bind_assoc]
  | cast | lambda | member | paren => simp only [ofShape?, Json.required_eq_part?, bind_assoc]
  | identifier | literal => rfl
  | other => simp only [ofShape?, Json.withDefault_list?_eq, bind_assoc]

theorem member?_object (fields : List (String × Json)) :
    member? (.object fields) = do
      let name ← Json.withDefault fields "name" none (Json.nullable? Json.string?)
      let value ← Json.required fields "value" ofJson?
      return ⟨name, value⟩ := by
  rw [member?]
  simp only [Json.required_eq_part?, bind_assoc]

theorem namedArgument?_object (fields : List (String × Json)) :
    namedArgument? (.object fields) =
      if fields.all fun field => field.1 == "name" || field.1 == "value" then do
        let name ← Json.required fields "name" Json.string?
        let value ← Json.required fields "value" ofJson?
        return ⟨some name, value⟩
      else none := by
  rw [namedArgument?]
  simp only [Json.required_eq_part?, bind_assoc]

end ExprEntry

/-! ## Round trips -/

namespace Layout

variable {α : Type} {fields : List (String × Json)} {key : String} {position : Nat}
  {decode : Json → Option α}

@[simp] theorem ofJson?_object : ofJson? (.object fields) = some (keyed fields) :=
  rfl

@[simp] theorem fits_keyed (count : Nat) : (keyed fields).fits count = true :=
  rfl

@[simp] theorem required_keyed :
    (keyed fields).required key position decode = Json.required fields key decode :=
  rfl

@[simp] theorem withDefault_keyed {default : α} :
    (keyed fields).withDefault key position default decode =
      Json.withDefault fields key default decode :=
  rfl

end Layout

theorem Scalar.ofEntry?_toJson (scalar : Scalar) : ofEntry? scalar.toJson = some scalar :=
  ofTag?_tag scalar

theorem MemberEntry.ofJson?_toJson (entry : MemberEntry) : ofJson? entry.toJson = some entry := by
  simp [toJson, ofJson?, Json.required, Json.field?]

theorem TypeEntry.ofJson?_toJson_iff (entry : TypeEntry) :
    ofJson? entry.toJson = some entry ↔ entry.RankFits := by
  cases entry with
  | scalar own =>
    simp [toJson, ofJson?, ofLayout?, Json.required, Json.field?, RankFits, Scalar.ofEntry?_toJson]
  | enumeration name underlying =>
    simp [toJson, ofJson?, ofLayout?, Json.required, Json.withDefault, Json.field?, RankFits,
      Scalar.ofEntry?_toJson]
  | anonymous members =>
    have read : Json.list? MemberEntry.ofJson? (.ofList MemberEntry.toJson members) =
        some members :=
      (Json.list?_ofList_iff members).mpr fun member _ => member.ofJson?_toJson
    simp [toJson, ofJson?, ofLayout?, Json.required, Json.field?, RankFits, read]
  | array element rank =>
    by_cases fits : rank ≤ greatestRank
    · simp [toJson, ofJson?, ofLayout?, Json.required, Json.withDefault, Json.field?, RankFits,
        rank?, fits]
    · simp [toJson, ofJson?, ofLayout?, Json.required, Json.withDefault, Json.field?, RankFits,
        rank?, fits, failure]
  | named name arguments =>
    have read : Json.list? Json.natural? (.ofList .ofNat arguments) = some arguments :=
      (Json.list?_ofList_iff arguments).mpr fun argument _ => Json.natural?_ofNat argument
    simp [toJson, ofJson?, ofLayout?, Json.required, Json.withDefault, Json.field?, RankFits, read]

theorem Symbol.ofJson?_toJson (symbol : Symbol) : ofJson? symbol.toJson = some symbol := by
  cases symbol with
  | method name containingType =>
    simp [toJson, ofJson?, method?, Json.required, Json.withDefault, Json.field?]
  | other kind => simp [toJson, ofJson?, method?, Json.required, Json.field?]

theorem Symbol.toJson_ne_null (symbol : Symbol) : symbol.toJson ≠ .null := by
  cases symbol <;> simp [toJson]

namespace Note

variable {own : List (String × Json)} {key : String}

theorem loc?_toJson (loc : Loc) : loc? loc.toJson = some loc :=
  rfl

theorem ofFields?_eq {fields : List (String × Json)} (note : Note)
    (located : Json.valuesOf fields "loc" = [.ofOption Loc.toJson note.loc])
    (typed : Json.valuesOf fields "converted_type" = [.ofOption Json.ofNat note.convertedType]) :
    ofFields? fields = some note := by
  have loc : Json.nullable? loc? (.ofOption Loc.toJson note.loc) = some note.loc :=
    Json.nullable?_ofOption note.loc (fun _ => nofun) loc?_toJson
  have type : Json.nullable? Json.natural? (.ofOption Json.ofNat note.convertedType) =
      some note.convertedType :=
    Json.nullable?_ofOption note.convertedType (fun _ => nofun) Json.natural?_ofNat
  simp [ofFields?, Json.withDefault, Json.field?, located, typed, loc, type]

end Note

namespace ExprEntry

/-- The keys that an expression of any shape has. -/
def commonKeys : List String :=
  ["loc", "converted_type", "kind"]

/-- An expression with its annotations and its kind in front is read from the fields that its
shape has. -/
theorem ofJson?_tagged (note : Note) {tag : String} {shape : Shape} {own : List (String × Json)}
    (known : Shape.named.lookup tag = some shape) (apart : ∀ field ∈ own, field.1 ∉ commonKeys) :
    ofJson? (.object (note.fields ++ ("kind", .string tag) :: own)) = ofShape? note own shape := by
  have missing : ∀ key ∈ commonKeys, Json.valuesOf own key = [] := by
    intro key common
    rw [Json.valuesOf_eq_nil_iff]
    rintro field given rfl
    exact apart field given common
  have noted : Note.ofFields? (note.fields ++ ("kind", .string tag) :: own) = some note := by
    apply Note.ofFields?_eq
    · simp [Note.fields, missing "loc" (by decide)]
    · simp [Note.fields, missing "converted_type" (by decide)]
  have shaped : Json.required (note.fields ++ ("kind", .string tag) :: own) "kind" Shape.ofJson? =
      some shape := by
    simp [Note.fields, Json.required, Json.field?, missing "kind" (by decide), Shape.ofJson?, known]
  have unhidden : ∀ key ∉ commonKeys,
      Json.field? (note.fields ++ ("kind", .string tag) :: own) key = Json.field? own key := by
    intro key own
    simp only [commonKeys, List.mem_cons, List.not_mem_nil, or_false, not_or] at own
    simp [Note.fields, Json.field?, Ne.symm own.1, Ne.symm own.2.1, Ne.symm own.2.2]
  rw [ofJson?_object, noted, shaped]
  cases shape <;>
    simp [ofShape?, Json.required, Json.withDefault, unhidden, commonKeys]

theorem kind_of_ofJson? {value : Json} {entry : ExprEntry} (read : ofJson? value = some entry) :
    ∃ fields, value = .object fields ∧ Json.valuesOf fields "kind" ≠ [] := by
  cases value with
  | object fields =>
    refine ⟨fields, rfl, fun missing => ?_⟩
    rw [ofJson?_object] at read
    simp [Json.required, Json.field?, missing] at read
  | null | bool | number | string | array => simp [ofJson?] at read

/-- An argument with a name is not an expression. -/
theorem ofJson?_eq_none_of_namedArgument? {value : Json} {slot : SlotEntry ExprEntry}
    (named : namedArgument? value = some slot) : ofJson? value = none := by
  by_contra readable
  obtain ⟨entry, read⟩ := Option.ne_none_iff_exists'.mp readable
  obtain ⟨fields, rfl, kind⟩ := kind_of_ofJson? read
  rw [namedArgument?_object] at named
  split at named
  · next only =>
    apply kind
    rw [Json.valuesOf_eq_nil_iff]
    intro field given isKind
    have known := List.all_eq_true.mp only field given
    simp [isKind] at known
  · cases named

theorem argument?_argumentJson {value : ExprEntry} (name : Option String)
    (read : ofJson? value.toJson = some value) :
    argument? (SlotEntry.argumentJson name value.toJson) = some ⟨name, value⟩ := by
  cases name with
  | some name =>
    have named : namedArgument? (SlotEntry.argumentJson (some name) value.toJson) =
        some ⟨some name, value⟩ := by
      simp [SlotEntry.argumentJson, namedArgument?_object, Json.required, Json.field?, read]
    rw [argument?, named]
  | none =>
    have positional : namedArgument? value.toJson = none := by
      by_contra readable
      obtain ⟨slot, named⟩ := Option.ne_none_iff_exists'.mp readable
      rw [ofJson?_eq_none_of_namedArgument? named] at read
      cases read
    rw [SlotEntry.argumentJson, argument?, positional, read]
    rfl

theorem member?_memberJson {value : ExprEntry} (name : Option String)
    (read : ofJson? value.toJson = some value) :
    member? (SlotEntry.memberJson name value.toJson) = some ⟨name, value⟩ := by
  simp [SlotEntry.memberJson, member?_object, Json.required, Json.withDefault, Json.field?, read]

/-- Slots are read back if each of them is. -/
theorem list?_slotsJson {slots : List (SlotEntry ExprEntry)}
    {wrap : Option String → Json → Json} {decode : Json → Option (SlotEntry ExprEntry)}
    (each : ∀ slot ∈ slots, decode (wrap slot.name slot.value.toJson) = some slot) :
    Json.list? decode (.array (slotsJson wrap slots)) = some slots := by
  rw [slotsJson_eq_map]
  exact (Json.list?_ofList_iff slots).mpr each

theorem ofJson?_toJson (entry : ExprEntry) : ofJson? entry.toJson = some entry := by
  induction entry with
  | anonymous note members each =>
    have read : Json.list? member? (.array (slotsJson SlotEntry.memberJson members)) =
        some members :=
      list?_slotsJson fun slot given => member?_memberJson slot.name (each slot given)
    rw [toJson, ofJson?_tagged note rfl (by simp [commonKeys])]
    simp [ofShape?, Json.required, Json.field?, read]
  | call note callee arguments resolved calleeRead each =>
    have read : Json.list? argument? (.array (slotsJson SlotEntry.argumentJson arguments)) =
        some arguments :=
      list?_slotsJson fun slot given => argument?_argumentJson slot.name (each slot given)
    have symbol : Json.nullable? Symbol.ofJson? (.ofOption Symbol.toJson resolved) =
        some resolved :=
      Json.nullable?_ofOption resolved Symbol.toJson_ne_null Symbol.ofJson?_toJson
    rw [toJson, ofJson?_tagged note rfl (by simp [commonKeys])]
    simp [ofShape?, Json.required, Json.withDefault, Json.field?, calleeRead, read, symbol]
  | cast note typeName value read =>
    rw [toJson, ofJson?_tagged note rfl (by simp [commonKeys])]
    simp [ofShape?, Json.required, Json.field?, read]
  | identifier note name =>
    rw [toJson, ofJson?_tagged note rfl (by simp [commonKeys])]
    simp [ofShape?, Json.required, Json.field?]
  | lambda note parameters body read =>
    have named : Json.list? Json.string? (.ofList .string parameters) = some parameters :=
      (Json.list?_ofList_iff parameters).mpr fun parameter _ => Json.string?_string parameter
    rw [toJson, ofJson?_tagged note rfl (by simp [commonKeys])]
    simp [ofShape?, Json.required, Json.withDefault, Json.field?, read, named]
  | literal note value =>
    rw [toJson, ofJson?_tagged note rfl (by simp [commonKeys])]
    simp [ofShape?, Json.required, Json.field?]
  | member note left name read =>
    rw [toJson, ofJson?_tagged note rfl (by simp [commonKeys])]
    simp [ofShape?, Json.required, Json.field?, read]
  | paren note value read =>
    rw [toJson, ofJson?_tagged note rfl (by simp [commonKeys])]
    simp [ofShape?, Json.required, Json.field?, read]
  | other note text children each =>
    have read : Json.list? ofJson? (.array (childrenJson children)) = some children := by
      rw [childrenJson_eq_map]
      exact (Json.list?_ofList_iff children).mpr each
    rw [toJson, ofJson?_tagged note rfl (by simp [commonKeys])]
    simp [ofShape?, Json.withDefault, Json.field?, read]

end ExprEntry

namespace UnitDump

/-- A dump is read back from what is written for it, as long as its ranks can be written at all. -/
theorem ofJson?_toJson_iff (dump : UnitDump) :
    ofJson? dump.toJson = some dump ↔ ∀ entry ∈ dump.types, entry.RankFits := by
  have roots : Json.list? ExprEntry.ofJson? (.ofList ExprEntry.toJson dump.roots) =
      some dump.roots :=
    (Json.list?_ofList_iff dump.roots).mpr fun entry _ => entry.ofJson?_toJson
  have types : Json.list? TypeEntry.ofJson? (.ofList TypeEntry.toJson dump.types) =
      some dump.types ↔ ∀ entry ∈ dump.types, entry.RankFits := by
    rw [Json.list?_ofList_iff]
    exact forall₂_congr fun entry _ => entry.ofJson?_toJson_iff
  have read : ofJson? dump.toJson =
      (Json.list? TypeEntry.ofJson? (.ofList TypeEntry.toJson dump.types)).map fun types =>
        ⟨dump.file, dump.text, types, dump.roots⟩ := by
    simp [toJson, ofJson?, Json.required, Json.withDefault, Json.field?, roots, Option.map_eq_bind]
  rw [read, ← types, Option.map_eq_some_iff]
  constructor
  · rintro ⟨found, listed, same⟩
    have unchanged : found = dump.types := congrArg UnitDump.types same
    rwa [unchanged] at listed
  · intro listed
    exact ⟨dump.types, listed, rfl⟩

/-- A dump on one line is read back. -/
theorem read?_compact {dump : UnitDump} (fits : ∀ entry ∈ dump.types, entry.RankFits)
    (plain : dump.toJson.Plain Json.nestingLimit) : read? dump.toJson.compact = some dump := by
  have known : Json.readKnown? keys dump.toJson.compact = some dump.toJson :=
    Json.readKnown?_eq (Json.read?_compact plain) (by simp [keys])
  rw [read?, known]
  exact dump.ofJson?_toJson_iff.mpr fits

/-- Every dump is read back from what is written for it, as long as its ranks can be written at
all, and no argument can be read in two ways. -/
theorem toJson_read_back :
    (∀ dump : UnitDump, ofJson? dump.toJson = some dump ↔
      ∀ entry ∈ dump.types, entry.RankFits) ∧
    ∀ value, ¬ ((ExprEntry.namedArgument? value).isSome ∧ (ExprEntry.ofJson? value).isSome) := by
  refine ⟨ofJson?_toJson_iff, ?_⟩
  rintro value ⟨named, positional⟩
  obtain ⟨slot, named⟩ := Option.isSome_iff_exists.mp named
  rw [ExprEntry.ofJson?_eq_none_of_namedArgument? named] at positional
  cases positional

end UnitDump
end QueryAudit
