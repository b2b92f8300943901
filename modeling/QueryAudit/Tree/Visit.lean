import QueryAudit.Tree.Expr

/-! The order in which a tree is visited: a node before its parts, the callee of a call before
its arguments, and parts from left to right. -/
namespace QueryAudit

/-- Kinds of node. -/
inductive NodeKind where
  /-- The outer node of any expression. -/
  | expr
  | anonymous
  | call
  | cast
  | identifier
  | lambda
  | literal
  | member
  | paren
  | other
  | argument
  | anonymousMember
  deriving DecidableEq

/-- A visited node. -/
structure Node where
  kind : NodeKind
  mark : Mark
  deriving DecidableEq

namespace Expr

/-- The outer node of an expression, then the inner one. -/
def pair (marks : Marks) (kind : NodeKind) : List Node :=
  [⟨.expr, marks.outer⟩, ⟨kind, marks.inner⟩]

mutual

/-- Every node of a tree in visiting order. -/
def nodes : Expr → List Node
  | anonymous marks members => pair marks .anonymous ++ slotNodes .anonymousMember members
  | call marks callee arguments =>
    pair marks .call ++ nodes callee ++ slotNodes .argument arguments
  | cast marks _ value => pair marks .cast ++ nodes value
  | identifier marks _ => pair marks .identifier
  | lambda marks _ body => pair marks .lambda ++ nodes body
  | literal marks _ => pair marks .literal
  | member marks left _ => pair marks .member ++ nodes left
  | paren marks value => pair marks .paren ++ nodes value
  | other marks _ children => pair marks .other ++ childNodes children

def slotNodes (kind : NodeKind) : List (Slot Expr) → List Node
  | [] => []
  | ⟨mark, _, value⟩ :: rest => ⟨kind, mark⟩ :: (nodes value ++ slotNodes kind rest)

def childNodes : List Expr → List Node
  | [] => []
  | child :: rest => nodes child ++ childNodes rest

end

mutual

/-- Every call of a tree in visiting order. The receiver of a call of the form
`receiver.name(...)`, when it is a call itself, comes directly after it. -/
def calls : Expr → List Call
  | anonymous _ members => slotCalls members
  | call marks callee arguments =>
    ⟨marks.inner, callee, arguments⟩ :: (calls callee ++ slotCalls arguments)
  | cast _ _ value => calls value
  | identifier .. => []
  | lambda _ _ body => calls body
  | literal .. => []
  | member _ left _ => calls left
  | paren _ value => calls value
  | other _ _ children => childCalls children

def slotCalls : List (Slot Expr) → List Call
  | [] => []
  | ⟨_, _, value⟩ :: rest => calls value ++ slotCalls rest

def childCalls : List Expr → List Call
  | [] => []
  | child :: rest => calls child ++ childCalls rest

end

end Expr
end QueryAudit
