import Submarine.Object.Metadata

namespace Submarine

open Json

structure RouteService where
  name : String
  port : Int32
deriving DecidableEq, Inhabited

structure Route where
  kind : String
  expression : String
  services : List RouteService := []
deriving DecidableEq, Inhabited

structure IngressRouteSpec where
  entryPoints : List String := []
  routes : List Route := []
deriving DecidableEq, Inhabited

namespace RouteService

def toJson (s : RouteService) : Json :=
  record [("name", some (.string s.name)), ("port", some (ofInt32 s.port))]

def reader : Reader RouteService :=
  .record <| RouteService.mk <$> .required "name" .string <*> .required "port" .int32

end RouteService

namespace Route

def toJson (r : Route) : Json :=
  record [("kind", some (.string r.kind)), ("match", some (.string r.expression)),
    ("services", some (ofList RouteService.toJson r.services))]

def reader : Reader Route :=
  .record <| Route.mk <$> .required "kind" .string <*> .required "match" .string <*>
    .withDefault "services" [] (.list RouteService.reader)

end Route

namespace IngressRouteSpec

def toJson (s : IngressRouteSpec) : Json :=
  record [("entryPoints", some (ofTexts s.entryPoints)),
    ("routes", some (ofList Route.toJson s.routes))]

def reader : Reader IngressRouteSpec :=
  .record <| IngressRouteSpec.mk <$> .withDefault "entryPoints" [] .texts <*>
    .withDefault "routes" [] (.list Route.reader)

end IngressRouteSpec

end Submarine
