import Submarine.Api.Client
import Submarine.Json.MergePatch
import Submarine.Proofs.Cluster.Outages
import Submarine.Proofs.Object.Metadata
import Submarine.Proofs.Passes.Discipline
import Submarine.Reconcile.Status

namespace Submarine

open Json

namespace Json

variable {members : Members} {name : String} {j : Json}

end Json

namespace InstallationState

variable {previous s : InstallationState}

end InstallationState

namespace InstallationStatus

variable {previous : Option InstallationStatus} {s : InstallationStatus}

end InstallationStatus

namespace Metadata

variable {m : Metadata}

end Metadata

namespace Object

variable {k : Kind} {o held : Object k}

end Object

namespace Api

variable {k : Kind} {o held : Object k}

end Api

namespace Root

variable {root : Root} {status : InstallationStatus}

end Root

section Observed

variable {root : Root} {server : Object .deployment} {database : Object .statefulSet}
  {now : Time.Instant}

end Observed

namespace Api.Server

variable {k : Kind}

end Api.Server

namespace Root

end Root

end Submarine
