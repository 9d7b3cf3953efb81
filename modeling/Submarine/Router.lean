import Submarine.Cache.Basic
import Submarine.Owner

namespace Submarine.Router

variable {k : Kind}

/-- Whether the resource version moved; an echo of an unchanged object does not count. -/
def versionMoved (old new : Object k) : Bool :=
  old.metadata.resourceVersion ≠ new.metadata.resourceVersion

def rootKey (root : Root) : String :=
  objectKey (root.metadata.ns.getD "") (root.metadata.name.getD "")

/-- The key that a change of an installation puts to work. A deletion puts none: the children go
with their owner. -/
def keyOfRoot? : Notification .submarine → Option String
  | .added root => some (rootKey root)
  | .updated old new => if versionMoved old new then some (rootKey new) else none
  | .deleted _ => none

/-- The key of the installation that controls the object, if that very one is cached in the
object's namespace. -/
def ownerKey? (roots : Cache .submarine) (o : Object k) : Option String := do
  let owner ← o.controller?
  if owner.kind ≠ Kind.submarine.name then none
  let ns := o.metadata.ns.getD ""
  let root ← roots.get? ns owner.name
  if root.metadata.uid = some owner.uid then some (objectKey ns owner.name) else none

/-- The object that a change is about; none if nothing moved. -/
def subject? : Notification k → Option (Object k)
  | .added o => some o
  | .updated old new => if versionMoved old new then some new else none
  | .deleted t => some t.object

def keyOfChild? (roots : Cache .submarine) (n : Notification k) : Option String :=
  (subject? n).bind (ownerKey? roots)

end Submarine.Router
