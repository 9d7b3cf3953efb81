import Submarine.Object.Metadata

namespace Submarine

open Json

structure BackendPort where
  name : Option String := none
  number : Option Int32 := none
deriving DecidableEq, Inhabited

structure BackendService where
  name : String
  port : Option BackendPort := none
deriving DecidableEq, Inhabited

structure LocalReference where
  kind : String
  name : String
  apiGroup : Option String := none
deriving DecidableEq, Inhabited

structure IngressBackend where
  service : Option BackendService := none
  resource : Option LocalReference := none
deriving DecidableEq, Inhabited

structure IngressPath where
  pathType : String
  backend : IngressBackend := {}
  path : Option String := none
deriving DecidableEq, Inhabited

structure IngressRule where
  host : Option String := none
  http : Option (List IngressPath) := none
deriving DecidableEq, Inhabited

structure IngressSpec where
  ingressClassName : Option String := none
  rules : Option (List IngressRule) := none
  defaultBackend : Option IngressBackend := none
  others : Remainder ["tls"] := .none _
deriving DecidableEq, Inhabited

namespace BackendPort

def toJson (p : BackendPort) : Json :=
  record [("name", p.name.map .string), ("number", p.number.map ofInt32)]

def reader : Reader BackendPort :=
  .resource <| BackendPort.mk <$> .optional "name" .string <*> .optional "number" .int32

end BackendPort

namespace BackendService

def toJson (s : BackendService) : Json :=
  record [("name", some (.string s.name)), ("port", s.port.map BackendPort.toJson)]

def reader : Reader BackendService :=
  .resource <| BackendService.mk <$> .text "name" <*> .optional "port" BackendPort.reader

end BackendService

namespace LocalReference

def toJson (r : LocalReference) : Json :=
  record [("kind", some (.string r.kind)), ("name", some (.string r.name)),
    ("apiGroup", r.apiGroup.map .string)]

def reader : Reader LocalReference :=
  .resource <| LocalReference.mk <$> .text "kind" <*> .text "name" <*>
    .optional "apiGroup" .string

end LocalReference

namespace IngressBackend

def toJson (b : IngressBackend) : Json :=
  record [("service", b.service.map BackendService.toJson),
    ("resource", b.resource.map LocalReference.toJson)]

def reader : Reader IngressBackend :=
  .resource <| IngressBackend.mk <$> .optional "service" BackendService.reader <*>
    .optional "resource" LocalReference.reader

end IngressBackend

namespace IngressPath

def toJson (p : IngressPath) : Json :=
  record [("pathType", some (.string p.pathType)), ("backend", some p.backend.toJson),
    ("path", p.path.map .string)]

def reader : Reader IngressPath :=
  .resource <| IngressPath.mk <$> .text "pathType" <*>
    .orElse "backend" {} IngressBackend.reader <*> .optional "path" .string

end IngressPath

namespace IngressRule

def httpToJson (paths : List IngressPath) : Json :=
  record [("paths", some (ofList IngressPath.toJson paths))]

def httpReader : Reader (List IngressPath) :=
  .resource <| .orElse "paths" [] (.list IngressPath.reader)

def toJson (r : IngressRule) : Json :=
  record [("host", r.host.map .string), ("http", r.http.map httpToJson)]

def reader : Reader IngressRule :=
  .resource <| IngressRule.mk <$> .optional "host" .string <*> .optional "http" httpReader

end IngressRule

namespace IngressSpec

def toJson (s : IngressSpec) : Json :=
  record ([("ingressClassName", s.ingressClassName.map .string),
    ("rules", s.rules.map (ofList IngressRule.toJson)),
    ("defaultBackend", s.defaultBackend.map IngressBackend.toJson)] ++ s.others.members)

def reader : Reader IngressSpec :=
  .resource <| IngressSpec.mk <$> .optional "ingressClassName" .string <*>
    .optional "rules" (.list IngressRule.reader) <*>
    .optional "defaultBackend" IngressBackend.reader <*> Remainder.fields _

end IngressSpec

end Submarine
