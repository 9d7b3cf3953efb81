import Submarine.Object.Metadata

namespace Submarine

open Json

structure PolicyRule where
  verbs : List String
  apiGroups : Option (List String) := none
  resources : Option (List String) := none
  resourceNames : Option (List String) := none
  -- Paths of requests for no resource.
  nonResourceURLs : Option (List String) := none
deriving DecidableEq, Inhabited

structure RoleRef where
  apiGroup : String := ""
  kind : String := ""
  name : String := ""
deriving DecidableEq, Inhabited

structure Subject where
  kind : String
  name : String
  ns : Option String := none
  apiGroup : Option String := none
deriving DecidableEq, Inhabited

namespace PolicyRule

def toJson (r : PolicyRule) : Json :=
  record [("verbs", some (ofTexts r.verbs)), ("apiGroups", r.apiGroups.map ofTexts),
    ("resources", r.resources.map ofTexts), ("resourceNames", r.resourceNames.map ofTexts),
    ("nonResourceURLs", r.nonResourceURLs.map ofTexts)]

def reader : Reader PolicyRule :=
  .resource <| PolicyRule.mk <$> .orElse "verbs" [] .texts <*> .optional "apiGroups" .texts <*>
    .optional "resources" .texts <*> .optional "resourceNames" .texts <*>
    .optional "nonResourceURLs" .texts

end PolicyRule

namespace RoleRef

def toJson (r : RoleRef) : Json :=
  record [("apiGroup", some (.string r.apiGroup)), ("kind", some (.string r.kind)),
    ("name", some (.string r.name))]

def reader : Reader RoleRef :=
  .resource <| RoleRef.mk <$> .text "apiGroup" <*> .text "kind" <*> .text "name"

end RoleRef

namespace Subject

def toJson (s : Subject) : Json :=
  record [("kind", some (.string s.kind)), ("name", some (.string s.name)),
    ("namespace", s.ns.map .string), ("apiGroup", s.apiGroup.map .string)]

def reader : Reader Subject :=
  .resource <| Subject.mk <$> .text "kind" <*> .text "name" <*> .optional "namespace" .string <*>
    .optional "apiGroup" .string

end Subject

end Submarine
