import Submarine.Kind
import Submarine.Schema.IngressRoute
import Submarine.Schema.Installation

namespace Submarine

open Json

structure PrinterColumn where
  name : String
  type : String
  path : String

structure ResourceDefinition where
  kind : Kind
  shortNames : List String := []
  columns : List PrinterColumn := []
  description : Option String := none
  spec : Schema
  status : Option (SchemaMember Schema) := none

namespace PrinterColumn

def toJson (c : PrinterColumn) : Json :=
  .object [("jsonPath", .string c.path), ("name", .string c.name), ("type", .string c.type)]

end PrinterColumn

namespace ResourceDefinition

def singular (d : ResourceDefinition) : String := d.kind.name.toLower

def schema (d : ResourceDefinition) : Schema :=
  .record (⟨"spec", d.description, .required, d.spec⟩ :: d.status.toList)

def schemaJson (d : ResourceDefinition) : Json :=
  .object ([("description", .string ("Auto-generated derived type for " ++ d.kind.name ++
    "Spec via \x60CustomResource\x60")), ("title", .string d.kind.name)] ++ d.schema.members)

def versionJson (d : ResourceDefinition) : Json :=
  .object [("additionalPrinterColumns", ofList PrinterColumn.toJson d.columns),
    ("name", .string d.kind.version),
    ("schema", .object [("openAPIV3Schema", d.schemaJson)]),
    ("served", .bool true), ("storage", .bool true),
    ("subresources", .object (if d.status.isSome then [("status", .object [])] else []))]

def namesJson (d : ResourceDefinition) : Json :=
  .object [("categories", .array []), ("kind", .string d.kind.name),
    ("plural", .string d.kind.plural), ("shortNames", ofTexts d.shortNames),
    ("singular", .string d.singular)]

def toJson (d : ResourceDefinition) : Json :=
  sorted (.object [("apiVersion", .string "apiextensions.k8s.io/v1"),
    ("kind", .string "CustomResourceDefinition"),
    ("metadata", .object [("name", .string (d.kind.plural ++ "." ++ d.kind.group))]),
    ("spec", .object [("group", .string d.kind.group), ("names", d.namesJson),
      ("scope", .string "Namespaced"), ("versions", .array [d.versionJson])])])

def submarine : ResourceDefinition where
  kind := .submarine
  shortNames := ["sub"]
  columns := [⟨"State", "string", ".status.submarineState.state"⟩,
    ⟨"Server", "integer", ".status.availableServerReplicas"⟩]
  description := some "SubmarineSpec defines the desired state of a Submarine installation"
  spec := InstallationSpec.schema
  status := some ⟨"status", some "Observed state of a Submarine installation", .optional,
    InstallationStatus.schema⟩

def ingressRoute : ResourceDefinition where
  kind := .ingressRoute
  spec := IngressRouteSpec.schema

/-- The definition of a kind that the API server does not know by itself. -/
def ofKind? : Kind → Option ResourceDefinition
  | .submarine => some submarine
  | .ingressRoute => some ingressRoute
  | _ => none

end ResourceDefinition

end Submarine
