import Submarine.Object.Basic
import Submarine.Proofs.Object.Remaining
import Submarine.Proofs.Time.Stamps

namespace Submarine

open Json

theorem ServerSpec.recalls : ServerSpec.reader.Recalls toJson where
  read? s := by simp [reader, toJson, List.lookup_cons, Reader.int32_recalls.read?]
  isNull _ := rfl

theorem DatabaseSpec.recalls : DatabaseSpec.reader.Recalls toJson where
  read? s := by
    simp [reader, toJson, List.lookup_cons, Reader.int32_recalls.read?, Reader.string_recalls.read?]
  isNull _ := rfl

theorem AuxiliarySpec.recalls : AuxiliarySpec.reader.Recalls toJson where
  read? s := by
    simp [reader, toJson, List.lookup_cons, Reader.bool_recalls.read?, Reader.string_recalls.read?]
  isNull _ := rfl

theorem StorageSpec.recalls : StorageSpec.reader.Recalls toJson where
  read? s := by simp [reader, toJson, List.lookup_cons, Reader.string_recalls.read?]
  isNull _ := rfl

theorem CommonImage.recalls : CommonImage.reader.Recalls toJson where
  read? c := by simp [reader, toJson, Reader.texts_recalls.read?]
  isNull _ := rfl

theorem CommonSpec.recalls : CommonSpec.reader.Recalls toJson where
  read? c := by simp [reader, toJson, CommonImage.recalls.read?]
  isNull _ := rfl

theorem InstallationSpec.recalls : InstallationSpec.reader.Recalls toJson where
  read? s := by
    simp [reader, toJson, List.lookup_cons, Reader.string_recalls.read?, ServerSpec.recalls.read?,
      DatabaseSpec.recalls.read?, AuxiliarySpec.recalls.read?, StorageSpec.recalls.read?,
      CommonSpec.recalls]
  isNull _ := rfl

theorem Phase.recalls : Phase.reader.Recalls toJson where
  read? p := by cases p <;> rfl
  isNull _ := rfl

theorem RouteService.recalls : RouteService.reader.Recalls toJson where
  read? s := by
    simp [reader, toJson, List.lookup_cons, Reader.string_recalls.read?, Reader.int32_recalls.read?]
  isNull _ := rfl

theorem Route.recalls : Route.reader.Recalls toJson where
  read? r := by
    simp [reader, toJson, List.lookup_cons, Reader.string_recalls.read?,
      RouteService.recalls.list.read?]
  isNull _ := rfl

theorem IngressRouteSpec.recalls : IngressRouteSpec.reader.Recalls toJson where
  read? s := by
    simp [reader, toJson, List.lookup_cons, Reader.texts_recalls.read?, Route.recalls.list.read?]
  isNull _ := rfl

theorem Json.Reader.read?_time (t : Time.Instant) :
    Reader.time.read? (.string (Time.Rfc3339.render t)) = some t := by
  have hread (text : String) : Reader.time.read? (.string text) = Time.Rfc3339.parse? text := rfl
  rw [hread, Time.Rfc3339.parse?_render]

theorem InstallationState.recalls : InstallationState.reader.Recalls toJson where
  read? s := by
    have htime : Reader.time.Recalls fun t ↦ .string (Time.Rfc3339.render t) :=
      ⟨Reader.read?_time, fun _ ↦ rfl⟩
    simp [reader, toJson, List.lookup_cons, Phase.recalls.read?, htime]
  isNull _ := rfl

theorem InstallationStatus.recalls : InstallationStatus.reader.Recalls toJson where
  read? s := by
    simp [reader, toJson, List.lookup_cons, Reader.int32_recalls.read?,
      InstallationState.recalls.read?]
  isNull _ := rfl

namespace Object

variable {k : Kind} {o : Object k}

def members (o : Object k) : List (String × Option Json) :=
  [("apiVersion", some (.string k.apiVersion)), ("kind", some (.string k.name)),
    ("metadata", some o.metadata.toJson)] ++ o.content.members

theorem nodup_members (o : Object k) : (o.members.map (·.1)).Nodup := by
  cases k <;> simp [members, Content.members]

/-- Where the content is read back, the whole object is with what its metadata read as. -/
theorem read?_toJson {m : Metadata} (hk : k.isCustom)
    (hmetadata : Metadata.reader.read? o.metadata.toJson = some m)
    (hcontent : (Content.fields k).read? (present o.members) = some o.content) :
    (reader k).read? o.toJson = some ⟨m, o.content⟩ := by
  have hlookup : o.members.lookup "metadata" = some (some o.metadata.toJson) := by
    simp [members, List.lookup_cons]
  change (reader k).read? (record o.members) = some ⟨m, o.content⟩
  simp [reader, hk, o.nodup_members, hlookup, hmetadata, hcontent]

end Object

namespace Root

variable {root : Root}

theorem read?_toJson {m : Metadata}
    (hmetadata : Metadata.reader.read? root.metadata.toJson = some m) :
    (Object.reader .submarine).read? root.toJson = some ⟨m, root.content⟩ := by
  refine Object.read?_toJson rfl hmetadata ?_
  have hspec : (Fields.required "spec" InstallationSpec.reader).read? (present root.members) =
      some root.spec := by
    simp [Object.members, Content.members, List.lookup_cons, InstallationSpec.recalls.read?]
  have hstatus : (Fields.optional "status" InstallationStatus.reader).read?
      (present root.members) = some root.status := by
    simp [Object.members, Content.members, List.lookup_cons, InstallationStatus.recalls]
  exact Option.bind_eq_some_iff.2
    ⟨_, congrArg (Option.map _) hspec, congrArg (Option.map _) hstatus⟩

end Root

namespace Object

theorem read?_toJson_ingressRoute {o : Object .ingressRoute}
    (hmetadata : Metadata.reader.read? o.metadata.toJson = some o.metadata) :
    (reader .ingressRoute).read? o.toJson = some o := by
  refine read?_toJson rfl hmetadata ?_
  have hspec : (Fields.required "spec" IngressRouteSpec.reader).read? (present o.members) =
      some o.content.spec := by
    simp [members, Content.members, List.lookup_cons, IngressRouteSpec.recalls.read?]
  exact congrArg (Option.map _) hspec

end Object

/-- How the values of a type are written and read, and the metadata of one that is a whole object,
whose format is not laid down here. -/
structure Codec where
  Value : Type
  toJson : Value → Json
  reader : Reader Value
  metadata? : Value → Option Metadata

def Codec.plain {α : Type} (toJson : α → Json) (reader : Reader α) : Codec :=
  ⟨α, toJson, reader, fun _ ↦ none⟩

/-- The objects of the custom kinds and everything that these declare or report. -/
inductive Format where
  | installation | installationSpec | serverSpec | databaseSpec | auxiliarySpec | storageSpec
  | commonSpec | commonImage | installationStatus | installationState | phase
  | ingressRoute | ingressRouteSpec | route | routeService
deriving DecidableEq, Repr

namespace Format

def codec : Format → Codec
  | installation =>
    ⟨Root, Object.toJson, Object.reader .submarine, fun root ↦ some root.metadata⟩
  | installationSpec => .plain InstallationSpec.toJson InstallationSpec.reader
  | serverSpec => .plain ServerSpec.toJson ServerSpec.reader
  | databaseSpec => .plain DatabaseSpec.toJson DatabaseSpec.reader
  | auxiliarySpec => .plain AuxiliarySpec.toJson AuxiliarySpec.reader
  | storageSpec => .plain StorageSpec.toJson StorageSpec.reader
  | commonSpec => .plain CommonSpec.toJson CommonSpec.reader
  | commonImage => .plain CommonImage.toJson CommonImage.reader
  | installationStatus => .plain InstallationStatus.toJson InstallationStatus.reader
  | installationState => .plain InstallationState.toJson InstallationState.reader
  | phase => .plain Phase.toJson Phase.reader
  | ingressRoute =>
    ⟨Object .ingressRoute, Object.toJson, Object.reader .ingressRoute, fun o ↦ some o.metadata⟩
  | ingressRouteSpec => .plain IngressRouteSpec.toJson IngressRouteSpec.reader
  | route => .plain Route.toJson Route.reader
  | routeService => .plain RouteService.toJson RouteService.reader

variable {f : Format} {x : f.codec.Value}

theorem read?_toJson
    (hmetadata : ∀ m ∈ f.codec.metadata? x, Metadata.reader.read? m.toJson = some m) :
    f.codec.reader.read? (f.codec.toJson x) = some x := by
  cases f with
  | installation => exact Root.read?_toJson (hmetadata _ rfl)
  | installationSpec => exact InstallationSpec.recalls.read? x
  | serverSpec => exact ServerSpec.recalls.read? x
  | databaseSpec => exact DatabaseSpec.recalls.read? x
  | auxiliarySpec => exact AuxiliarySpec.recalls.read? x
  | storageSpec => exact StorageSpec.recalls.read? x
  | commonSpec => exact CommonSpec.recalls.read? x
  | commonImage => exact CommonImage.recalls.read? x
  | installationStatus => exact InstallationStatus.recalls.read? x
  | installationState => exact InstallationState.recalls.read? x
  | phase => exact Phase.recalls.read? x
  | ingressRoute => exact Object.read?_toJson_ingressRoute (hmetadata _ rfl)
  | ingressRouteSpec => exact IngressRouteSpec.recalls.read? x
  | route => exact Route.recalls.read? x
  | routeService => exact RouteService.recalls.read? x

end Format

end Submarine
