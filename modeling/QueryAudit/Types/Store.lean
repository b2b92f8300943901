import QueryAudit.Types.Scalar
import Std.Data.HashMap

/-! The type store. Slots are only ever added, a defined slot is never changed, and a kind
that was interned once is found again under the same id. Reserved slots are never shared. Type
graphs may be cyclic, so a type is shown as text to a fixed number of levels, and what lies deeper
is written as dots. -/
namespace QueryAudit

/-! ## Kinds -/

/-- Position of a type in a store. -/
structure TypeId where
  index : Nat
  deriving DecidableEq, Hashable

/-- A member of an anonymous record. -/
structure Member where
  name : String
  type : TypeId
  deriving DecidableEq, Hashable

/-- Structure of one type; other types are referred to by id, so that types may be recursive. -/
inductive Kind where
  | scalar (scalar : Scalar)
  | enumeration (name : String) (underlying : Scalar)
  /-- A record made by a projection; members keep their order of declaration. -/
  | anonymous (members : List Member)
  | array (element : TypeId) (rank : Nat)
  /-- Any declared class, structure, interface or generic instance. -/
  | named (name : String) (arguments : List TypeId)
  /-- Reserved and not defined yet. -/
  | placeholder
  deriving DecidableEq, Hashable

/-! ## Stores -/

/-- Why the store refused an operation. -/
inductive StoreError where
  | unknownType (id : TypeId)
  | alreadyDefined (id : TypeId)
  | invalidUnderlying (name : String) (underlying : Scalar)
  deriving DecidableEq

namespace StoreError

def message : StoreError → String
  | unknownType id => s!"type TypeId({id.index}) does not exist in this store"
  | alreadyDefined id => s!"type TypeId({id.index}) is already defined"
  | invalidUnderlying name underlying =>
    s!"enum `{name}` cannot use {underlying.title} as its underlying type"

end StoreError

/-- Types by id, together with the ids under which kinds were interned. -/
structure Store where
  slots : Array Kind
  interned : Std.HashMap Kind TypeId

namespace Store

def size (store : Store) : Nat :=
  store.slots.size

def kind? (store : Store) (id : TypeId) : Option Kind :=
  store.slots[id.index]?

/-- Adds a slot without sharing it. -/
def push (store : Store) (kind : Kind) : TypeId × Store :=
  (⟨store.size⟩, { store with slots := store.slots.push kind })

/-- Allocates an id whose kind is supplied later by `define`. -/
def reserve (store : Store) : TypeId × Store :=
  store.push .placeholder

/-- The id of a kind: the one it was interned under, or a new slot. A placeholder is never
shared, so interning one reserves a slot. -/
def intern (store : Store) (kind : Kind) : TypeId × Store :=
  if kind = .placeholder then store.reserve
  else match store.interned[kind]? with
    | some id => (id, store)
    | none =>
      let (id, grown) := store.push kind
      (id, { grown with interned := grown.interned.insert kind id })

/-- A store that holds exactly the scalars, each under its index. -/
def empty : Store :=
  Scalar.all.foldl (fun store scalar => (store.intern (.scalar scalar)).2) ⟨#[], ∅⟩

/-- Fills a reserved slot. The kind is not interned: a recursive type is equal to itself only. -/
def define (store : Store) (id : TypeId) (kind : Kind) : Except StoreError Unit × Store :=
  match store.kind? id with
  | none => (.error (.unknownType id), store)
  | some .placeholder => (.ok (), { store with slots := store.slots.setIfInBounds id.index kind })
  | some _ => (.error (.alreadyDefined id), store)

def scalar (scalar : Scalar) : TypeId :=
  ⟨scalar.index⟩

/-- An enumeration needs an integral scalar to store its values. -/
def enumeration (store : Store) (name : String) (underlying : Scalar) :
    Except StoreError TypeId × Store :=
  if underlying.isIntegral then
    let (id, store) := store.intern (.enumeration name underlying)
    (.ok id, store)
  else (.error (.invalidUnderlying name underlying), store)

def anonymous (store : Store) (members : List Member) : TypeId × Store :=
  store.intern (.anonymous members)

/-- An array has at least one dimension. -/
def arrayOfRank (store : Store) (element : TypeId) (rank : Nat) : TypeId × Store :=
  store.intern (.array element (max rank 1))

def array (store : Store) (element : TypeId) : TypeId × Store :=
  store.arrayOfRank element 1

def generic (store : Store) (name : String) (arguments : List TypeId) : TypeId × Store :=
  store.intern (.named name arguments)

def named (store : Store) (name : String) : TypeId × Store :=
  store.generic name []

/-- The operations that can change a store. -/
inductive Action where
  | intern (kind : Kind)
  | reserve
  | define (id : TypeId) (kind : Kind)
  | enumeration (name : String) (underlying : Scalar)
  | anonymous (members : List Member)
  | array (element : TypeId)
  | arrayOfRank (element : TypeId) (rank : Nat)
  | named (name : String)
  | generic (name : String) (arguments : List TypeId)

/-- Carries out one operation. The answer is the id it gives, or `none` where a slot was
defined. -/
def perform (store : Store) : Action → Except StoreError (Option TypeId) × Store
  | .intern kind => give (store.intern kind)
  | .reserve => give store.reserve
  | .define id kind =>
    let (answer, store) := store.define id kind
    (answer.map fun _ => none, store)
  | .enumeration name underlying =>
    let (answer, store) := store.enumeration name underlying
    (answer.map some, store)
  | .anonymous members => give (store.anonymous members)
  | .array element => give (store.array element)
  | .arrayOfRank element rank => give (store.arrayOfRank element rank)
  | .named name => give (store.named name)
  | .generic name arguments => give (store.generic name arguments)
where
  give (answer : TypeId × Store) : Except StoreError (Option TypeId) × Store :=
    (.ok (some answer.1), answer.2)

/-! ## Types as text -/

/-- Levels of a type that are written out, the type itself included. -/
def displayedLevels : Nat := 9

/-- The first `levels` levels of a type. -/
def displayTo (store : Store) : (levels : Nat) → TypeId → String
  | 0, _ => "..."
  | levels + 1, id =>
    match store.kind? id with
    | none => s!"<unknown #{id.index}>"
    | some (.scalar scalar) => scalar.name
    | some (.enumeration name _) => name
    | some (.anonymous members) =>
      let shown := members.map fun member =>
        member.name ++ ": " ++ store.displayTo levels member.type
      "<anonymous \x7b" ++ (if shown.isEmpty then "" else " ") ++ ", ".intercalate shown ++ " \x7d>"
    | some (.array element rank) =>
      store.displayTo levels element ++ "[" ++ "".pushn ',' (rank - 1) ++ "]"
    | some (.named name []) => name
    | some (.named name arguments) =>
      name ++ "<" ++ ", ".intercalate (arguments.map (store.displayTo levels)) ++ ">"
    | some .placeholder => s!"<placeholder #{id.index}>"

/-- Text of a type as diagnostics quote it. -/
def display (store : Store) (id : TypeId) : String :=
  store.displayTo displayedLevels id

end Store
end QueryAudit
