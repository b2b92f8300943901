import QueryAudit.Config.Names
import QueryAudit.Text.Classes

/-! Configuration of a pass, and what makes one valid. -/
namespace QueryAudit

/-- Which declaring types hold the operators that run remotely. -/
inductive RemoteFamily where
  /-- Types whose full name starts with this text. -/
  | startingWith (text : String)
  /-- Types with one of these full names. -/
  | oneOf (types : Names)
  deriving DecidableEq

namespace RemoteFamily

def contains : RemoteFamily → String → Bool
  | startingWith text, type => text.toList.isPrefixOf type.toList
  | oneOf types, type => types.contains type

end RemoteFamily

structure Config where
  /-- Operator names, matched exactly. -/
  operators : Names
  remoteFamily : RemoteFamily
  /-- Depth beyond which a type is not plain data. -/
  maxTypeDepth : Nat
  deriving DecidableEq

/-- Why a configuration was refused. -/
inductive ConfigError where
  /-- The text is not JSON, or not of the right shape. -/
  | malformed
  | noOperators
  | invalidOperatorName (name : String)
  | emptyStart
  | noRemoteTypes
  | zeroDepth
  deriving DecidableEq

namespace ConfigError

/-- What is wrong, up to the explanation of a text that is not of the expected form. -/
def headline : ConfigError → String
  | malformed => "invalid configuration: "
  | noOperators => "at least one query operator name must be recognized"
  | invalidOperatorName name => s!"`{name}` is not a valid operator name"
  | emptyStart => "remote family prefix must not be empty"
  | noRemoteTypes => "remote family type list must not be empty"
  | zeroDepth => "max_type_depth must be at least 1"

def explanation? : ConfigError → Option String
  | malformed => some "not a JSON value of the expected shape"
  | _ => none

def message (error : ConfigError) : String :=
  error.headline ++ error.explanation?.getD ""

end ConfigError

namespace Config

def defaultOperators : Names :=
  .ofList ["Where", "Select", "OrderBy", "Join"]

def defaultFamily : RemoteFamily :=
  .startingWith "System.Linq.Queryable"

def defaultDepth : Nat := 64

def default : Config :=
  ⟨defaultOperators, defaultFamily, defaultDepth⟩

def isWordStart (c : Char) : Bool :=
  c == '_' || Text.isAlphabetic c

def isWordPart (c : Char) : Bool :=
  isWordStart c || Text.isNumeric c

/-- An underscore or a letter, followed by underscores, letters and numbers. -/
def isIdentifier (name : String) : Bool :=
  match name.toList with
  | [] => false
  | first :: rest => isWordStart first && rest.all isWordPart

/-- Checks the operators first, then the family, then the depth. Of several bad operator names
the first in order is reported. -/
def validate (config : Config) : Except ConfigError Unit := do
  if config.operators.isEmpty then throw .noOperators
  if let some name := config.operators.toList.find? (!isIdentifier ·) then
    throw (.invalidOperatorName name)
  match config.remoteFamily with
  | .startingWith text => if text.isEmpty then throw .emptyStart
  | .oneOf types => if types.isEmpty then throw .noRemoteTypes
  if config.maxTypeDepth = 0 then throw .zeroDepth

def isOperator (config : Config) (name : String) : Bool :=
  config.operators.contains name

end Config
end QueryAudit
