import QueryAudit.Tree.Print

/-! Giving every node of a tree the place of its own text. The tree is written out and each node
takes the bytes it was written to. Parts of a shape given by its text are not written, so they
keep the places they had. -/
namespace QueryAudit

namespace Loc

/-- The place of a text that starts at an offset. -/
def spanning (start : Nat) (text : String) : Loc :=
  ⟨start, start + text.utf8ByteSize⟩

end Loc

namespace Mark

def place (mark : Mark) (loc : Loc) : Mark :=
  { mark with loc }

end Mark

namespace Marks

def place (marks : Marks) (loc : Loc) : Marks :=
  ⟨marks.outer.place loc, marks.inner.place loc⟩

end Marks

namespace Expr

mutual

/-- Writes an expression at an offset: the tree with its places, and the text. -/
def locateAt (start : Nat) : Expr → Expr × String
  | anonymous marks members =>
    let (members, texts) := locateSlots " = " (start + "new \x7b ".utf8ByteSize) members
    let text := printMembers texts
    (anonymous (marks.place (.spanning start text)) members, text)
  | call marks callee arguments =>
    let (callee, calleeText) := locateAt start callee
    let (arguments, texts) :=
      locateSlots ": " (start + (calleeText ++ "(").utf8ByteSize) arguments
    let text := calleeText ++ "(" ++ ", ".intercalate texts ++ ")"
    (call (marks.place (.spanning start text)) callee arguments, text)
  | cast marks typeName value =>
    let lead := "(" ++ typeName ++ ")"
    let (value, valueText) := locateAt (start + lead.utf8ByteSize) value
    let text := lead ++ valueText
    (cast (marks.place (.spanning start text)) typeName value, text)
  | identifier marks name => (identifier (marks.place (.spanning start name)) name, name)
  | lambda marks parameters body =>
    let lead := printParameters parameters ++ " => "
    let (body, bodyText) := locateAt (start + lead.utf8ByteSize) body
    let text := lead ++ bodyText
    (lambda (marks.place (.spanning start text)) parameters body, text)
  | literal marks value =>
    let text := value.print
    (literal (marks.place (.spanning start text)) value, text)
  | member marks left name =>
    let (left, leftText) := locateAt start left
    let text := leftText ++ "." ++ name
    (member (marks.place (.spanning start text)) left name, text)
  | paren marks value =>
    let (value, valueText) := locateAt (start + "(".utf8ByteSize) value
    let text := "(" ++ valueText ++ ")"
    (paren (marks.place (.spanning start text)) value, text)
  | other marks text children => (other (marks.place (.spanning start text)) text children, text)

/-- Writes slots from an offset on, a comma and a blank between them. -/
def locateSlots (mark : String) (start : Nat) :
    List (Slot Expr) → List (Slot Expr) × List String
  | [] => ([], [])
  | ⟨own, name, value⟩ :: rest =>
    let lead := printName mark name
    let (value, valueText) := locateAt (start + lead.utf8ByteSize) value
    let text := lead ++ valueText
    let (rest, texts) := locateSlots mark (start + (text ++ ", ").utf8ByteSize) rest
    (⟨own.place (.spanning start text), name, value⟩ :: rest, text :: texts)

end

/-- The tree with every written node at the place of its own text, and that text. -/
def locate (expr : Expr) : Expr × String :=
  expr.locateAt 0

end Expr
end QueryAudit
