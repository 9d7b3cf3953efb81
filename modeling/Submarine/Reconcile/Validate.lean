import Submarine.Owner

namespace Submarine

def acceptedStorageTypes : List String := ["nfs", "host"]

/-- The storage type is judged first. -/
def InstallationSpec.validate (spec : InstallationSpec) : Except SpecFault Unit :=
  if spec.storage.storageType ∉ acceptedStorageTypes then
    .error (.unknownStorageType spec.storage.storageType)
  else if spec.server.replicas < 0 ∨ spec.database.replicas < 0 then .error .negativeReplicas
  else .ok ()

end Submarine
