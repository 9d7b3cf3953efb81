import Submarine.Object.IngressRoute
import Submarine.Schema.Basic

namespace Submarine

open Presence

def RouteService.schema : Schema :=
  .record [⟨"name", some "Kubernetes service name", required, .text⟩,
    ⟨"port", some "Service port", required, .int32⟩]

def Route.schema : Schema :=
  .record [⟨"kind", some "Rule kind, always \"Rule\"", required, .text⟩,
    ⟨"match", some "Traefik matcher expression, e.g. \x60\x60PathPrefix(\x60/mlflow\x60)\x60\x60",
      required, .text⟩,
    ⟨"services", some "Backends for the rule", defaultsTo (.array []), .list RouteService.schema⟩]

def IngressRouteSpec.schema : Schema :=
  .record [⟨"entryPoints", some "Traefik entry points serving the routes (e.g. \"web\")",
      defaultsTo (Json.ofTexts (IngressRouteSpec.entryPoints {})), .list .text⟩,
    ⟨"routes", some "Routing rules", defaultsTo (.array []), .list Route.schema⟩]

end Submarine
