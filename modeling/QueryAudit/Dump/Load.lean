import QueryAudit.Dump.Reader
import QueryAudit.Json.Writer
import QueryAudit.Tree.Expr
import QueryAudit.Types.Store

/-! Loading a dump: its types go into a store, its trees become expressions that carry their
places and facts. All slots are reserved before any is defined, so entries may refer to each
other in any order. The first fault ends the loading and is reported: type entries come first,
then the roots; within an expression its place comes first, then its literal or its parts, and
its type last. -/
namespace QueryAudit

/-- Why a dump was refused. -/
inductive DumpError where
  /-- The text is not JSON, or not of the right shape. -/
  | malformed
  | danglingType (index count : Nat)
  | store (cause : StoreError)
  | invalidLiteral (value : Json)
  | invalidLoc (loc : Loc)

namespace DumpError

/-- What is wrong, up to the explanation of a text that is not of the expected form. -/
def headline : DumpError → String
  | malformed => "malformed unit dump: "
  | danglingType index count =>
    s!"type index {index} is out of range, the dump declares {count} types"
  | store cause => cause.message
  | invalidLiteral value => "unsupported literal value " ++ value.sorted.compact
  | invalidLoc loc => s!"loc [{loc.start}, {loc.stop}] ends before it starts"

def explanation? : DumpError → Option String
  | malformed => some "not a JSON value of the expected shape"
  | _ => none

def message (error : DumpError) : String :=
  error.headline ++ error.explanation?.getD ""

end DumpError

/-- A unit whose types are in a store. -/
structure LoadedUnit where
  file : String
  text : Option String
  roots : List Expr

namespace Store

/-- Reserves a number of slots and gives their ids in order. -/
def reserveMany (store : Store) : (count : Nat) → Array TypeId × Store
  | 0 => (#[], store)
  | count + 1 =>
    let (ids, grown) := store.reserveMany count
    let (id, grown) := grown.reserve
    (ids.push id, grown)

end Store

/-- The id of the type entry at a position. -/
def typeIdAt (ids : Array TypeId) (index : Nat) : Except DumpError TypeId :=
  match ids[index]? with
  | some id => .ok id
  | none => .error (.danglingType index ids.size)

namespace MemberEntry

def load (ids : Array TypeId) (entry : MemberEntry) : Except DumpError Member := do
  return ⟨entry.name, ← typeIdAt ids entry.type⟩

end MemberEntry

namespace TypeEntry

/-- The kind that an entry declares. -/
def load (ids : Array TypeId) : TypeEntry → Except DumpError Kind
  | scalar own => .ok (.scalar own)
  | enumeration name underlying =>
    if underlying.isIntegral then .ok (.enumeration name underlying)
    else .error (.store (.invalidUnderlying name underlying))
  | anonymous members =>
    (members.mapM (MemberEntry.load ids)).map .anonymous
  | array element rank => do return .array (← typeIdAt ids element) (max rank 1)
  | named name arguments => (arguments.mapM (typeIdAt ids)).map (.named name)

/-- Defines reserved slots in order, up to the first entry that is refused. -/
def loadAll (ids : Array TypeId) (store : Store) :
    List (TypeId × TypeEntry) → Except DumpError Unit × Store
  | [] => (.ok (), store)
  | (id, entry) :: rest =>
    match entry.load ids with
    | .error cause => (.error cause, store)
    | .ok kind =>
      match store.define id kind with
      | (.error cause, store) => (.error (.store cause), store)
      | (.ok (), store) => loadAll ids store rest

end TypeEntry

namespace Literal

/-- The literal that a JSON value stands for; arrays and objects stand for none. -/
def load : Json → Except DumpError Literal
  | .null => .ok null
  | .bool value => .ok (bool value)
  | .number value => .ok (number (Json.numberText value))
  | .string value => .ok (string value)
  | value => .error (.invalidLiteral value)

end Literal

namespace Note

/-- The place of an expression, empty when none is given. -/
def load (note : Note) : Except DumpError Loc :=
  match note.loc with
  | none => .ok {}
  | some loc => if loc.stop < loc.start then .error (.invalidLoc loc) else .ok loc

/-- The facts of an expression's outer node. -/
def loadFacts (ids : Array TypeId) (note : Note) : Except DumpError Facts :=
  match note.convertedType with
  | none => .ok {}
  | some index => do return { convertedType := some (← typeIdAt ids index) }

end Note

namespace ExprEntry

mutual

def load (ids : Array TypeId) : ExprEntry → Except DumpError Expr
  | anonymous note members => do
    let loc ← note.load
    let members ← loadSlots ids members
    return .anonymous ⟨⟨loc, ← note.loadFacts ids⟩, ⟨loc, {}⟩⟩ members
  | call note callee arguments resolved => do
    let loc ← note.load
    let callee ← load ids callee
    let arguments ← loadSlots ids arguments
    return .call ⟨⟨loc, ← note.loadFacts ids⟩, ⟨loc, { symbol := resolved }⟩⟩ callee arguments
  | cast note typeName value => do
    let loc ← note.load
    let value ← load ids value
    return .cast ⟨⟨loc, ← note.loadFacts ids⟩, ⟨loc, {}⟩⟩ typeName value
  | identifier note name => do
    let loc ← note.load
    return .identifier ⟨⟨loc, ← note.loadFacts ids⟩, ⟨loc, {}⟩⟩ name
  | lambda note parameters body => do
    let loc ← note.load
    let body ← load ids body
    return .lambda ⟨⟨loc, ← note.loadFacts ids⟩, ⟨loc, {}⟩⟩ parameters body
  | literal note value => do
    let loc ← note.load
    let value ← Literal.load value
    return .literal ⟨⟨loc, ← note.loadFacts ids⟩, ⟨loc, {}⟩⟩ value
  | member note left name => do
    let loc ← note.load
    let left ← load ids left
    return .member ⟨⟨loc, ← note.loadFacts ids⟩, ⟨loc, {}⟩⟩ left name
  | paren note value => do
    let loc ← note.load
    let value ← load ids value
    return .paren ⟨⟨loc, ← note.loadFacts ids⟩, ⟨loc, {}⟩⟩ value
  | other note text children => do
    let loc ← note.load
    let children ← loadChildren ids children
    return .other ⟨⟨loc, ← note.loadFacts ids⟩, ⟨loc, {}⟩⟩ text children

/-- A slot is placed where its value is. -/
def loadSlots (ids : Array TypeId) :
    List (SlotEntry ExprEntry) → Except DumpError (List (Slot Expr))
  | [] => .ok []
  | ⟨name, value⟩ :: rest => do
    let value ← load ids value
    let rest ← loadSlots ids rest
    return ⟨⟨value.loc, {}⟩, name, value⟩ :: rest

def loadChildren (ids : Array TypeId) : List ExprEntry → Except DumpError (List Expr)
  | [] => .ok []
  | child :: rest => do
    let child ← load ids child
    let rest ← loadChildren ids rest
    return child :: rest

end

end ExprEntry

namespace UnitDump

/-- Adds the types of a dump to a store and turns its roots into expressions. The store grows by
one slot for each type entry, whether loading succeeds or not. -/
def load (dump : UnitDump) (store : Store) : Except DumpError LoadedUnit × Store :=
  let (ids, reserved) := store.reserveMany dump.types.length
  let (typed, filled) := TypeEntry.loadAll ids reserved (ids.toList.zip dump.types)
  let loaded := do
    typed
    let roots ← ExprEntry.loadChildren ids dump.roots
    return ⟨dump.file, dump.text, roots⟩
  (loaded, filled)

/-- Reads a dump and loads it. A dump that cannot be read leaves the store as it was. -/
def loadText (text : String) (store : Store) : Except DumpError LoadedUnit × Store :=
  match read? text with
  | none => (.error .malformed, store)
  | some dump => dump.load store

end UnitDump
end QueryAudit
