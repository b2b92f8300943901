import QueryAudit.Config.Basic
import QueryAudit.Json.Reader

/-! Configurations as JSON. A configuration is an object whose fields may be left out, or an
array of the fields in order whose end may be left out; what is left out keeps its default. -/
namespace QueryAudit

namespace Names

def ofJson? (value : Json) : Option Names :=
  (value.list? Json.string?).map ofList

end Names

namespace RemoteFamily

/-- An object with exactly one field, which says how the family is given. -/
def ofJson? : Json → Option RemoteFamily
  | .object [("prefix", value)] => value.string?.map startingWith
  | .object [("types", value)] => (Names.ofJson? value).map oneOf
  | _ => none

def toJson : RemoteFamily → Json
  | startingWith text => .object [("prefix", .string text)]
  | oneOf types => .object [("types", .ofList .string types.toList)]

end RemoteFamily

namespace Config

/-- The fields a configuration may have. -/
def keys : List String :=
  ["recognized_operators", "remote_family", "max_type_depth"]

/-- The item at a position of an array, or the default beyond its end. -/
def itemOr {α : Type} (items : List Json) (position : Nat) (default : α)
    (decode : Json → Option α) : Option α :=
  items[position]?.elim (some default) decode

def ofJson? : Json → Option Config
  | .object fields =>
    if fields.all fun field => keys.contains field.1 then do
      let operators ←
        Json.withDefault fields "recognized_operators" defaultOperators Names.ofJson?
      let family ← Json.withDefault fields "remote_family" defaultFamily RemoteFamily.ofJson?
      let depth ← Json.withDefault fields "max_type_depth" defaultDepth Json.natural?
      return ⟨operators, family, depth⟩
    else none
  | .array items =>
    if items.length ≤ keys.length then do
      let operators ← itemOr items 0 defaultOperators Names.ofJson?
      let family ← itemOr items 1 defaultFamily RemoteFamily.ofJson?
      let depth ← itemOr items 2 defaultDepth Json.natural?
      return ⟨operators, family, depth⟩
    else none
  | _ => none

def toJson (config : Config) : Json :=
  .object [
    ("recognized_operators", .ofList .string config.operators.toList),
    ("remote_family", config.remoteFamily.toJson),
    ("max_type_depth", .ofNat config.maxTypeDepth)]

/-- A valid configuration from a JSON value. -/
def decode (value : Json) : Except ConfigError Config :=
  match ofJson? value with
  | none => .error .malformed
  | some config => config.validate.map fun _ => config

/-- Reads a configuration. -/
def read (text : String) : Except ConfigError Config :=
  match Json.read? text with
  | none => .error .malformed
  | some value => decode value

end Config
end QueryAudit
