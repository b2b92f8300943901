import QueryAudit.Tree.Facts

/-! Expression trees. Every expression is two nodes, an outer one that all expressions have in
common and an inner one of its own kind; arguments of calls and members of anonymous records are
nodes too. A converted type is looked for on the outer node, a symbol on the inner node of a
call. -/
namespace QueryAudit

inductive Literal where
  | bool (value : Bool)
  | null
  /-- A number, as it is written. -/
  | number (written : String)
  | string (value : String)
  deriving DecidableEq

/-- The two nodes of an expression. -/
structure Marks where
  outer : Mark := {}
  inner : Mark := {}
  deriving DecidableEq

/-- An argument of a call or a member of an anonymous record, with its name if it has one. -/
structure Slot (α : Type) where
  mark : Mark := {}
  name : Option String := none
  value : α

inductive Expr where
  /-- An anonymous record, `new { Name = c.Name, c.Total }`. -/
  | anonymous (marks : Marks) (members : List (Slot Expr))
  | call (marks : Marks) (callee : Expr) (arguments : List (Slot Expr))
  | cast (marks : Marks) (typeName : String) (value : Expr)
  | identifier (marks : Marks) (name : String)
  | lambda (marks : Marks) (parameters : List String) (body : Expr)
  | literal (marks : Marks) (value : Literal)
  | member (marks : Marks) (left : Expr) (name : String)
  | paren (marks : Marks) (value : Expr)
  /-- Any other shape, given by its text; its parts are still looked into. -/
  | other (marks : Marks) (text : String) (children : List Expr)

/-- The inner node of a call. -/
structure Call where
  mark : Mark
  callee : Expr
  arguments : List (Slot Expr)

namespace Expr

def marks : Expr → Marks
  | anonymous marks _ | call marks _ _ | cast marks _ _ | identifier marks _ | lambda marks _ _
  | literal marks _ | member marks _ _ | paren marks _ | other marks _ _ => marks

def loc (expr : Expr) : Loc :=
  expr.marks.outer.loc

/-- The call `receiver.name(arguments)`. -/
def methodCall (receiver : Expr) (name : String) (arguments : List Expr) : Expr :=
  call {} (member {} receiver name) (arguments.map fun value => { value })

/-- The expression inside parentheses and casts, which do not change what it is. -/
def unwrapped : Expr → Expr
  | paren _ value => value.unwrapped
  | cast _ _ value => value.unwrapped
  | expr => expr

def isLambda : Expr → Bool
  | lambda .. => true
  | _ => false

end Expr

namespace Call

/-- The member name of a call `receiver.name(...)`. -/
def memberName? (call : Call) : Option String :=
  match call.callee with
  | .member _ _ name => some name
  | _ => none

/-- The value of the first argument. -/
def firstArgument? (call : Call) : Option Expr :=
  call.arguments.head?.map Slot.value

end Call
end QueryAudit
