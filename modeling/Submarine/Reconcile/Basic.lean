import Submarine.Key
import Submarine.Manifest.Auxiliary
import Submarine.Manifest.Plan
import Submarine.Reconcile.Converge
import Submarine.Reconcile.Validate

namespace Submarine

def convergeServer (root : Root) : Pass (Object .deployment) := do
  let _ ← converge root Child.serverAccount
  let deployment ← converge root Child.serverDeployment
  let _ ← converge root Child.serverService
  return deployment

def convergeDatabase (root : Root) : Pass (Object .statefulSet) := do
  let _ ← converge root Child.databaseClaim
  if Manifest.Database.managesSecret root then
    let _ ← converge root Child.databaseSecret
  let set ← converge root Child.databaseSet
  let _ ← converge root Child.databaseService
  return set

def convergeAuxiliaries (root : Root) : List Manifest.Auxiliary → Pass Unit
  | [] => return ()
  | aux :: rest => do
    if aux.enabled root then
      let _ ← converge root (Child.auxiliaryClaim aux)
      let _ ← converge root (Child.auxiliaryDeployment aux)
      let _ ← converge root (Child.auxiliaryService aux)
      let _ ← converge root (Child.auxiliaryRoute aux)
    convergeAuxiliaries root rest

/-- Converges every declared child, and reports the status. The first step that fails ends the
pass. -/
def reconcileRoot (root : Root) : Pass Unit := do
  let server ← convergeServer root
  let database ← convergeDatabase root
  let _ ← converge root Child.serverIngress
  let _ ← converge root Child.serverRole
  let _ ← converge root Child.serverRoleBinding
  convergeAuxiliaries root Manifest.Auxiliary.all
  reportStatus root server database
  let _ ← Pass.request (.publish (.synced root))
  return ()

/-- The pass over a key. An installation that is gone or going needs nothing. -/
def reconcile (key : String) : Pass Unit :=
  match splitKey? key with
  | none => .fail (.invalidKey key)
  | some (ns, name) =>
    .ask (.cachedRoot ns name) fun (cached : Option Root) ↦
      match cached with
      | none => .done ()
      | some root =>
        if root.metadata.deletionTimestamp.isSome then .done ()
        else match root.spec.validate with
          | .error fault =>
            .ask (.publish (.invalidSpec root fault.toFailure.message)) fun _ ↦
              .fail fault.toFailure
          | .ok () => reconcileRoot root

end Submarine
