import Submarine.Object.Metadata

namespace Submarine

open Json

/-- A port of a pod, by number or by the name that a container gives it. -/
inductive TargetPort where
  | number (port : Int32)
  | name (port : String)
deriving DecidableEq, Inhabited

structure ServicePort where
  port : Int32
  name : Option String := none
  protocol : Option String := none
  nodePort : Option Int32 := none
  appProtocol : Option String := none
  targetPort : Option TargetPort := none
deriving DecidableEq, Inhabited

structure ServiceSpec where
  selector : Option (Table String String) := none
  type : Option String := none
  clusterIP : Option String := none
  sessionAffinity : Option String := none
  ports : Option (List ServicePort) := none
  others : Remainder ["allocateLoadBalancerNodePorts", "clusterIPs", "externalIPs", "externalName",
    "externalTrafficPolicy", "healthCheckNodePort", "internalTrafficPolicy", "ipFamilies",
    "ipFamilyPolicy", "loadBalancerClass", "loadBalancerIP", "loadBalancerSourceRanges",
    "publishNotReadyAddresses", "sessionAffinityConfig", "trafficDistribution"] := .none _
deriving DecidableEq, Inhabited

namespace TargetPort

def toJson : TargetPort → Json
  | number port => ofInt32 port
  | name port => .string port

def reader : Reader TargetPort := .scalar fun j ↦ match j with
  | .string port => some (name port)
  | j => j.int32?.map number

end TargetPort

namespace ServicePort

def toJson (p : ServicePort) : Json :=
  record [("port", some (ofInt32 p.port)), ("name", p.name.map .string),
    ("protocol", p.protocol.map .string), ("nodePort", p.nodePort.map ofInt32),
    ("appProtocol", p.appProtocol.map .string), ("targetPort", p.targetPort.map TargetPort.toJson)]

def reader : Reader ServicePort :=
  .resource <| ServicePort.mk <$> .orElse "port" 0 .int32 <*> .optional "name" .string <*>
    .optional "protocol" .string <*> .optional "nodePort" .int32 <*>
    .optional "appProtocol" .string <*> .optional "targetPort" TargetPort.reader

end ServicePort

namespace ServiceSpec

def toJson (s : ServiceSpec) : Json :=
  record ([("selector", s.selector.map ofTextTable), ("type", s.type.map .string),
    ("clusterIP", s.clusterIP.map .string), ("sessionAffinity", s.sessionAffinity.map .string),
    ("ports", s.ports.map (ofList ServicePort.toJson))] ++ s.others.members)

def reader : Reader ServiceSpec :=
  .resource <| ServiceSpec.mk <$> .optional "selector" .textTable <*> .optional "type" .string <*>
    .optional "clusterIP" .string <*> .optional "sessionAffinity" .string <*>
    .optional "ports" (.list ServicePort.reader) <*> Remainder.fields _

end ServiceSpec

end Submarine
