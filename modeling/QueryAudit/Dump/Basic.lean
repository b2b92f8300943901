import QueryAudit.Json.Basic
import QueryAudit.Tree.Facts

/-! Unit dumps: the types and the expression trees of one source unit, with what a resolver knew
about them. Types are referred to by their position in the dump. -/
namespace QueryAudit

/-- A member of an anonymous record, with the position of its type. -/
structure MemberEntry where
  name : String
  type : Nat
  deriving DecidableEq

/-- A declared type. -/
inductive TypeEntry where
  | scalar (scalar : Scalar)
  | enumeration (name : String) (underlying : Scalar)
  | anonymous (members : List MemberEntry)
  | array (element rank : Nat)
  | named (name : String) (arguments : List Nat)
  deriving DecidableEq

/-- What any expression may be annotated with: its place, and the position of its type. -/
structure Note where
  loc : Option Loc := none
  convertedType : Option Nat := none
  deriving DecidableEq

/-- An argument or a member, with its name if it has one. -/
structure SlotEntry (α : Type) where
  name : Option String := none
  value : α

inductive ExprEntry where
  | anonymous (note : Note) (members : List (SlotEntry ExprEntry))
  | call (note : Note) (callee : ExprEntry) (arguments : List (SlotEntry ExprEntry))
      (resolved : Option Symbol)
  | cast (note : Note) (typeName : String) (value : ExprEntry)
  | identifier (note : Note) (name : String)
  | lambda (note : Note) (parameters : List String) (body : ExprEntry)
  /-- Any JSON value; only some of them are literals. -/
  | literal (note : Note) (value : Json)
  | member (note : Note) (left : ExprEntry) (name : String)
  | paren (note : Note) (value : ExprEntry)
  | other (note : Note) (text : String) (children : List ExprEntry)

structure UnitDump where
  file : String
  text : Option String := none
  types : List TypeEntry := []
  roots : List ExprEntry := []

end QueryAudit
