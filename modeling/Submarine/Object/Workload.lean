import Submarine.Object.Pod

namespace Submarine

open Json

structure DeploymentSpec where
  selector : Selector := {}
  template : PodTemplate := {}
  replicas : Option Int32 := none
  revisionHistoryLimit : Option Int32 := none
  progressDeadlineSeconds : Option Int32 := none
  others : Remainder ["minReadySeconds", "paused", "strategy"] := .none _
deriving DecidableEq, Inhabited

structure DeploymentStatus where
  availableReplicas : Option Int32 := none
  collisionCount : Option Int32 := none
  observedGeneration : Option Int64 := none
  readyReplicas : Option Int32 := none
  replicas : Option Int32 := none
  unavailableReplicas : Option Int32 := none
  updatedReplicas : Option Int32 := none
  others : Remainder ["conditions"] := .none _
deriving DecidableEq, Inhabited

structure StatefulSetSpec where
  selector : Selector := {}
  template : PodTemplate := {}
  replicas : Option Int32 := none
  serviceName : Option String := none
  revisionHistoryLimit : Option Int32 := none
  others : Remainder ["minReadySeconds", "ordinals", "persistentVolumeClaimRetentionPolicy",
    "podManagementPolicy", "updateStrategy", "volumeClaimTemplates"] := .none _
deriving DecidableEq, Inhabited

structure StatefulSetStatus where
  replicas : Int32 := 0
  availableReplicas : Option Int32 := none
  collisionCount : Option Int32 := none
  currentReplicas : Option Int32 := none
  currentRevision : Option String := none
  observedGeneration : Option Int64 := none
  readyReplicas : Option Int32 := none
  updateRevision : Option String := none
  updatedReplicas : Option Int32 := none
  others : Remainder ["conditions"] := .none _
deriving DecidableEq, Inhabited

namespace DeploymentSpec

def toJson (s : DeploymentSpec) : Json :=
  record ([("selector", some s.selector.toJson), ("template", some s.template.toJson),
    ("replicas", s.replicas.map ofInt32),
    ("revisionHistoryLimit", s.revisionHistoryLimit.map ofInt32),
    ("progressDeadlineSeconds", s.progressDeadlineSeconds.map ofInt32)] ++ s.others.members)

def reader : Reader DeploymentSpec :=
  .resource <| DeploymentSpec.mk <$> .orElse "selector" {} Selector.reader <*>
    .orElse "template" {} PodTemplate.reader <*> .optional "replicas" .int32 <*>
    .optional "revisionHistoryLimit" .int32 <*> .optional "progressDeadlineSeconds" .int32 <*>
    Remainder.fields _

end DeploymentSpec

namespace DeploymentStatus

def toJson (s : DeploymentStatus) : Json :=
  record ([("availableReplicas", s.availableReplicas.map ofInt32),
    ("collisionCount", s.collisionCount.map ofInt32),
    ("observedGeneration", s.observedGeneration.map ofInt64),
    ("readyReplicas", s.readyReplicas.map ofInt32), ("replicas", s.replicas.map ofInt32),
    ("unavailableReplicas", s.unavailableReplicas.map ofInt32),
    ("updatedReplicas", s.updatedReplicas.map ofInt32)] ++ s.others.members)

def reader : Reader DeploymentStatus :=
  .resource <| DeploymentStatus.mk <$> .optional "availableReplicas" .int32 <*>
    .optional "collisionCount" .int32 <*> .optional "observedGeneration" .int64 <*>
    .optional "readyReplicas" .int32 <*> .optional "replicas" .int32 <*>
    .optional "unavailableReplicas" .int32 <*> .optional "updatedReplicas" .int32 <*>
    Remainder.fields _

end DeploymentStatus

namespace StatefulSetSpec

def toJson (s : StatefulSetSpec) : Json :=
  record ([("selector", some s.selector.toJson), ("template", some s.template.toJson),
    ("replicas", s.replicas.map ofInt32), ("serviceName", s.serviceName.map .string),
    ("revisionHistoryLimit", s.revisionHistoryLimit.map ofInt32)] ++ s.others.members)

def reader : Reader StatefulSetSpec :=
  .resource <| StatefulSetSpec.mk <$> .orElse "selector" {} Selector.reader <*>
    .orElse "template" {} PodTemplate.reader <*> .optional "replicas" .int32 <*>
    .optional "serviceName" .string <*> .optional "revisionHistoryLimit" .int32 <*>
    Remainder.fields _

end StatefulSetSpec

namespace StatefulSetStatus

def toJson (s : StatefulSetStatus) : Json :=
  record ([("replicas", some (ofInt32 s.replicas)),
    ("availableReplicas", s.availableReplicas.map ofInt32),
    ("collisionCount", s.collisionCount.map ofInt32),
    ("currentReplicas", s.currentReplicas.map ofInt32),
    ("currentRevision", s.currentRevision.map .string),
    ("observedGeneration", s.observedGeneration.map ofInt64),
    ("readyReplicas", s.readyReplicas.map ofInt32),
    ("updateRevision", s.updateRevision.map .string),
    ("updatedReplicas", s.updatedReplicas.map ofInt32)] ++ s.others.members)

def reader : Reader StatefulSetStatus :=
  .resource <| StatefulSetStatus.mk <$> .orElse "replicas" 0 .int32 <*>
    .optional "availableReplicas" .int32 <*> .optional "collisionCount" .int32 <*>
    .optional "currentReplicas" .int32 <*> .optional "currentRevision" .string <*>
    .optional "observedGeneration" .int64 <*> .optional "readyReplicas" .int32 <*>
    .optional "updateRevision" .string <*> .optional "updatedReplicas" .int32 <*>
    Remainder.fields _

end StatefulSetStatus

end Submarine
