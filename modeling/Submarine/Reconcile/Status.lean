import Submarine.Object.Basic

namespace Submarine

namespace Object

def availableReplicas (d : Object .deployment) : Int32 :=
  let content : DeploymentContent := d.content
  (content.status.bind (·.availableReplicas)).getD 0

def availableSetReplicas (s : Object .statefulSet) : Int32 :=
  let content : StatefulSetContent := s.content
  (content.status.bind (·.availableReplicas)).getD 0

end Object

/-- Running once every declared replica of server and database is available. -/
def observedPhase (spec : InstallationSpec) (server database : Int32) : Phase :=
  if spec.server.replicas ≤ server ∧ spec.database.replicas ≤ database then .running else .creating

def observedStatus (root : Root) (server : Object .deployment) (database : Object .statefulSet)
    (now : Time.Instant) : InstallationStatus :=
  let phase := observedPhase root.spec server.availableReplicas database.availableSetReplicas
  let since := match root.status with
    | some previous =>
      if previous.state.phase = phase then previous.state.lastTransitionTime else some now
    | none => some now
  { availableServerReplicas := server.availableReplicas
    availableDatabaseReplicas := database.availableSetReplicas
    state := { phase, lastTransitionTime := since } }

end Submarine
