import Submarine.Object.Metadata

namespace Submarine

open Json

structure Resources where
  requests : Option (Table String String) := none
  limits : Option (Table String String) := none
deriving DecidableEq, Inhabited

structure ClaimSpec where
  accessModes : Option (List String) := none
  storageClassName : Option String := none
  volumeName : Option String := none
  resources : Option Resources := none
  others : Remainder ["dataSource", "dataSourceRef", "selector", "volumeAttributesClassName",
    "volumeMode"] := .none _
deriving DecidableEq, Inhabited

namespace Resources

def toJson (r : Resources) : Json :=
  record [("requests", r.requests.map ofTextTable), ("limits", r.limits.map ofTextTable)]

def reader : Reader Resources :=
  .resource <| Resources.mk <$> .optional "requests" (.table .quantity) <*>
    .optional "limits" (.table .quantity)

end Resources

namespace ClaimSpec

def toJson (s : ClaimSpec) : Json :=
  record ([("accessModes", s.accessModes.map ofTexts),
    ("storageClassName", s.storageClassName.map .string),
    ("volumeName", s.volumeName.map .string), ("resources", s.resources.map Resources.toJson)] ++
    s.others.members)

def reader : Reader ClaimSpec :=
  .resource <| ClaimSpec.mk <$> .optional "accessModes" .texts <*>
    .optional "storageClassName" .string <*> .optional "volumeName" .string <*>
    .optional "resources" Resources.reader <*> Remainder.fields _

end ClaimSpec

end Submarine
