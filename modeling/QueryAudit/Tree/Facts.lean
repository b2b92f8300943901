import QueryAudit.Text.Offset
import QueryAudit.Types.Store

/-! What a resolver found out about a node: the symbol a call is bound to, and the type of an
expression after conversions at its point of use. A node holds at most one of each. -/
namespace QueryAudit

/-- What a call is bound to. -/
inductive Symbol where
  /-- A method, with the full name of its declaring type when that is known. -/
  | method (name : String) (containingType : Option String)
  /-- Something other than a method, such as a field that holds a delegate. -/
  | other (kind : String)
  deriving DecidableEq

structure Facts where
  symbol : Option Symbol := none
  convertedType : Option TypeId := none
  deriving DecidableEq

namespace Facts

def isEmpty (facts : Facts) : Bool :=
  facts.symbol.isNone && facts.convertedType.isNone

def setSymbol (facts : Facts) (symbol : Symbol) : Facts :=
  { facts with symbol := some symbol }

def setType (facts : Facts) (type : TypeId) : Facts :=
  { facts with convertedType := some type }

/-- Removes the symbol; says whether there was one. -/
def removeSymbol (facts : Facts) : Bool × Facts :=
  (facts.symbol.isSome, { facts with symbol := none })

/-- Removes the converted type; says whether there was one. -/
def removeType (facts : Facts) : Bool × Facts :=
  (facts.convertedType.isSome, { facts with convertedType := none })

end Facts

/-- Place and facts of one node. -/
structure Mark where
  loc : Loc := {}
  facts : Facts := {}
  deriving DecidableEq

end QueryAudit
