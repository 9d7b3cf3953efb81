import Submarine.Json.Record

namespace Submarine

/-- What holds of a member that is missing. -/
inductive Presence where
  | required
  | optional
  | defaultsTo (value : Json)

structure SchemaMember (σ : Type) where
  name : String
  description : Option String
  presence : Presence
  schema : σ

inductive Schema where
  | text
  | time
  | flag
  | int32
  | choice (names : List String)
  | list (item : Schema)
  | record (members : List (SchemaMember Schema))

namespace Presence

def isRequired : Presence → Bool
  | required => true
  | _ => false

def members : Presence → Json.Members
  | required => []
  | optional => [("nullable", .bool true)]
  | defaultsTo value => [("default", value)]

end Presence

namespace SchemaMember

variable {σ : Type}

def about (m : SchemaMember σ) : Json.Members :=
  (m.description.map fun text ↦ ("description", Json.string text)).toList ++ m.presence.members

def requiredNames (ms : List (SchemaMember σ)) : Json.Members :=
  let names := ((ms.filter (·.presence.isRequired)).map name).mergeSort fun a b ↦ a ≤ b
  if names.isEmpty then [] else [("required", Json.ofTexts names)]

end SchemaMember

namespace Schema

mutual

def members : Schema → Json.Members
  | text => [("type", .string "string")]
  | time => [("format", .string "date-time"), ("type", .string "string")]
  | flag => [("type", .string "boolean")]
  | int32 => [("format", .string "int32"), ("type", .string "integer")]
  | choice names => [("enum", Json.ofTexts names), ("type", .string "string")]
  | list item => [("items", .object item.members), ("type", .string "array")]
  | record ms =>
    [("properties", .object (properties ms))] ++ SchemaMember.requiredNames ms ++
      [("type", .string "object")]

def properties : List (SchemaMember Schema) → Json.Members
  | [] => []
  | ⟨name, description, presence, schema⟩ :: rest =>
    let about := (SchemaMember.mk name description presence ()).about
    (name, .object (about ++ schema.members)) :: properties rest

end

end Schema

end Submarine
