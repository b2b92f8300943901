import QueryAudit.Tree.Expr

/-! Trees as source-like text, which diagnostics quote when a unit's own text is not known. -/
namespace QueryAudit

namespace Literal

/-- A character inside a string literal. -/
def escape : Char → List Char
  | '"' => ['\\', '"']
  | '\\' => ['\\', '\\']
  | '\n' => ['\\', 'n']
  | c => [c]

/-- A string literal: its characters between quotes, a quote, a backslash or a line break
behind a backslash. -/
def quoted (text : List Char) : List Char :=
  '"' :: (text.flatMap escape ++ ['"'])

def print : Literal → String
  | bool value => if value then "true" else "false"
  | null => "null"
  | number written => written
  | string value => String.ofList (quoted value.toList)

end Literal

namespace Expr

/-- A single parameter stands alone, any other number of them in parentheses. -/
def printParameters : List String → String
  | [single] => single
  | parameters => "(" ++ ", ".intercalate parameters ++ ")"

/-- The name of a slot with the mark that divides it from the value. -/
def printName (mark : String) : Option String → String
  | none => ""
  | some name => name ++ mark

/-- Members between braces, each after a blank or a comma and a blank. -/
def printMembers (members : List String) : String :=
  "new \x7b" ++ (if members.isEmpty then "" else " ") ++ ", ".intercalate members ++ " \x7d"

mutual

def print : Expr → String
  | anonymous _ members => printMembers (printSlots " = " members)
  | call _ callee arguments =>
    print callee ++ "(" ++ ", ".intercalate (printSlots ": " arguments) ++ ")"
  | cast _ typeName value => "(" ++ typeName ++ ")" ++ print value
  | identifier _ name => name
  | lambda _ parameters body => printParameters parameters ++ " => " ++ print body
  | literal _ value => value.print
  | member _ left name => print left ++ "." ++ name
  | paren _ value => "(" ++ print value ++ ")"
  | other _ text _ => text

def printSlots (mark : String) : List (Slot Expr) → List String
  | [] => []
  | ⟨_, name, value⟩ :: rest => (printName mark name ++ print value) :: printSlots mark rest

end

end Expr

def Call.print (call : Call) : String :=
  (Expr.call {} call.callee call.arguments).print

end QueryAudit
