/-! Built-in scalars: their order, their spellings, and the two classes the rest of the
library asks about. Integral scalars can back an enumeration; transportable scalars are the
ones every remote provider stores in a column. -/
namespace QueryAudit

/-- Built-in scalar categories. -/
inductive Scalar where
  | boolean
  | byte
  | char
  | dateTime
  | decimal
  | double
  | int16
  | int32
  | int64
  | intPtr
  | object
  | sByte
  | single
  | string
  | uInt16
  | uInt32
  | uInt64
  | uIntPtr
  | void
  deriving DecidableEq, Hashable

namespace Scalar

/-- Every scalar, in the order of its type id. -/
def all : List Scalar :=
  [boolean, byte, char, dateTime, decimal, double, int16, int32, int64, intPtr, object, sByte,
    single, string, uInt16, uInt32, uInt64, uIntPtr, void]

/-- Position of a scalar in `all`. -/
def index (scalar : Scalar) : Nat :=
  scalar.ctorIdx

/-- Spelling in source text, used when a type is shown. -/
def name : Scalar → String
  | boolean => "bool"
  | byte => "byte"
  | char => "char"
  | dateTime => "DateTime"
  | decimal => "decimal"
  | double => "double"
  | int16 => "short"
  | int32 => "int"
  | int64 => "long"
  | intPtr => "nint"
  | object => "object"
  | sByte => "sbyte"
  | single => "float"
  | string => "string"
  | uInt16 => "ushort"
  | uInt32 => "uint"
  | uInt64 => "ulong"
  | uIntPtr => "nuint"
  | void => "void"

/-- Title of the category, used in error messages. -/
def title : Scalar → String
  | boolean => "Boolean"
  | byte => "Byte"
  | char => "Char"
  | dateTime => "DateTime"
  | decimal => "Decimal"
  | double => "Double"
  | int16 => "Int16"
  | int32 => "Int32"
  | int64 => "Int64"
  | intPtr => "IntPtr"
  | object => "Object"
  | sByte => "SByte"
  | single => "Single"
  | string => "String"
  | uInt16 => "UInt16"
  | uInt32 => "UInt32"
  | uInt64 => "UInt64"
  | uIntPtr => "UIntPtr"
  | void => "Void"

/-- Tag of the category in unit dumps. -/
def tag : Scalar → String
  | boolean => "boolean"
  | byte => "byte"
  | char => "char"
  | dateTime => "date_time"
  | decimal => "decimal"
  | double => "double"
  | int16 => "int16"
  | int32 => "int32"
  | int64 => "int64"
  | intPtr => "int_ptr"
  | object => "object"
  | sByte => "s_byte"
  | single => "single"
  | string => "string"
  | uInt16 => "u_int16"
  | uInt32 => "u_int32"
  | uInt64 => "u_int64"
  | uIntPtr => "u_int_ptr"
  | void => "void"

/-- The scalar with the given tag. -/
def ofTag? (text : String) : Option Scalar :=
  all.find? (·.tag == text)

/-- Whether the scalar can back an enumeration. -/
def isIntegral : Scalar → Bool
  | byte | sByte | int16 | int32 | int64 | uInt16 | uInt32 | uInt64 => true
  | _ => false

/-- Whether every remote provider maps the scalar to a column type. -/
def isTransportable : Scalar → Bool
  | object | sByte | void | intPtr | uIntPtr => false
  | _ => true

theorem all_get_index (scalar : Scalar) : all[scalar.index]? = some scalar := by
  cases scalar <;> rfl

theorem ofTag?_tag (scalar : Scalar) : ofTag? scalar.tag = some scalar := by
  cases scalar <;> decide

end Scalar
end QueryAudit
