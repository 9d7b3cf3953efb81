import Submarine.Manifest.Basic
import Submarine.Owner
import Submarine.Reconcile.Drift
import Submarine.Reconcile.Pass
import Submarine.Reconcile.Status

namespace Submarine

variable {k : Kind}

/-- The child as it is created: under the name asked for, in the root's namespace, owned by the
root. -/
def Child.newborn (child : Child k) (root : Root) (ns : String) : Except SpecFault (Object k) :=
  let built := child.build root
  Object.setOwner
    { built with metadata := { built.metadata with name := some child.name, ns := some ns } } root

/-- The child as it is written over a live one: the live metadata with the content built anew. -/
def Child.renewed (child : Child k) (root : Root) (live : Object k) : Object k :=
  { child.build root with metadata := live.metadata }

/-- Drives a child toward what the root declares, and returns it as it is then. -/
def converge (root : Root) (child : Child k) : Pass (Object k) :=
  match root.metadata.ns with
  | none => .fail SpecFault.noNamespace.toFailure
  | some ns =>
    .ask (.get k ns child.name) fun (found : Except ApiError (Object k)) ↦
      match found with
      | .error (.notFound _) =>
        match child.newborn root ns with
        | .error fault => .fail fault.toFailure
        | .ok newborn => .call (.create k newborn) rfl
      | .error e => .fail (.cluster e)
      | .ok live =>
        if live.isControlledBy root then
          if live.agreesWith (child.build root) then .done live
          else .call (.update k (child.renewed root live)) rfl
        else
          .ask (.publish (.nameTaken root child.name)) fun _ ↦
            .fail (.resourceConflict k.name child.name)

/-- Writes the observed status, unless it is the one that the root has. -/
def reportStatus (root : Root) (server : Object .deployment) (database : Object .statefulSet) :
    Pass Unit :=
  .ask .now fun now ↦
    let status := observedStatus root server database now
    if root.status = some status then .done ()
    else do
      let _ ← Pass.call (α := Root)
        (.updateStatus .submarine
          { root with content := show InstallationContent from ⟨root.spec, some status⟩ }) rfl
      return ()

end Submarine
