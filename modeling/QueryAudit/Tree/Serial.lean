import QueryAudit.Tree.Expr
import QueryAudit.Json.Basic

/-! Trees as JSON values. Places and facts are left out; all else is kept. -/
namespace QueryAudit

def Literal.toJson : Literal → Json
  | bool value => .object [("kind", .string "Bool"), ("value", .bool value)]
  | null => .object [("kind", .string "Null")]
  | number written => .object [("kind", .string "Num"), ("value", .string written)]
  | string value => .object [("kind", .string "Str"), ("value", .string value)]

namespace Expr

/-- An object that starts with the tag of its shape. -/
def tagged (tag : String) (fields : List (String × Json)) : Json :=
  .object (("$t", .string tag) :: fields)

mutual

def toJson : Expr → Json
  | anonymous _ members => tagged "AnonObj" [("members", .array (slotsToJson members))]
  | call _ callee arguments =>
    tagged "Call" [("callee", toJson callee), ("arguments", .array (slotsToJson arguments))]
  | cast _ typeName value =>
    tagged "Cast" [("type_name", .string typeName), ("value", toJson value)]
  | identifier _ name => tagged "Id" [("name", .string name)]
  | lambda _ parameters body =>
    tagged "Lambda" [("params", .ofList .string parameters), ("body", toJson body)]
  | literal _ value => tagged "Lit" [("value", value.toJson)]
  | member _ left name => tagged "Member" [("left", toJson left), ("right", .string name)]
  | paren _ value => tagged "Paren" [("value", toJson value)]
  | other _ text children =>
    tagged "Other" [("text", .string text), ("children", .array (childrenToJson children))]

def slotsToJson : List (Slot Expr) → List Json
  | [] => []
  | ⟨_, name, value⟩ :: rest =>
    .object [("name", .ofOption .string name), ("value", toJson value)] :: slotsToJson rest

def childrenToJson : List Expr → List Json
  | [] => []
  | child :: rest => toJson child :: childrenToJson rest

end

end Expr
end QueryAudit
