namespace Submarine

/-- Why a cluster call failed. `what` names the object as `Kind namespace/name`. -/
inductive ApiError where
  | notFound (what : String)
  | alreadyExists (what : String)
  -- The resource version written against is not the stored one.
  | conflict (what : String)
  | rejected (code : Nat) (message : String)
  | transport (detail : String)
  | undecodable (detail : String)
  | invalidObject (detail : String)
  | watch (detail : String)
deriving DecidableEq, Repr

namespace ApiError

def message : ApiError → String
  | notFound what => "Not found: " ++ what
  | alreadyExists what => "Already exists: " ++ what
  | conflict what => "Conflict: " ++ what
  | rejected code message => "API error " ++ toString code ++ ": " ++ message
  | transport detail => "Kubernetes client error: " ++ detail
  | undecodable detail => "Serialization error: " ++ detail
  | invalidObject detail => "Invalid object: " ++ detail
  | watch detail => "Watch error: " ++ detail

def isNotFound : ApiError → Bool
  | notFound _ => true
  | _ => false

def isConflict : ApiError → Bool
  | conflict _ => true
  | _ => false

def isAlreadyExists : ApiError → Bool
  | alreadyExists _ => true
  | _ => false

end ApiError

inductive MetricsError where
  | duplicate
  | other (detail : String)
deriving DecidableEq, Repr

def MetricsError.message : MetricsError → String
  | duplicate => "Duplicate metrics collector registration attempted"
  | other detail => "Error: " ++ detail

inductive Severity where
  | transient
  | terminal
deriving DecidableEq, Repr

def Severity.label : Severity → String
  | transient => "transient"
  | terminal => "terminal"

inductive Failure where
  | cluster (error : ApiError)
  | connection (detail : String)
  | invalidSpec (detail : String)
  | resourceConflict (kind name : String)
  | invalidKey (key : String)
  | invalidSettings (detail : String)
  | watch (detail : String)
  | crashed (detail : String)
  | io (detail : String)
  | metrics (error : MetricsError)
deriving DecidableEq, Repr

namespace Failure

def message : Failure → String
  | cluster error => "Cluster error: " ++ error.message
  | connection detail => "Kubernetes error: " ++ detail
  | invalidSpec detail => "Invalid spec: " ++ detail
  | resourceConflict kind name =>
    "Resource " ++ kind ++ " " ++ name ++ " already exists and is not managed by Submarine"
  | invalidKey key => "Invalid resource key: " ++ key
  | invalidSettings detail => "Invalid configuration: " ++ detail
  | watch detail => "Resource watch failed: " ++ detail
  | crashed detail => "Reconcile panicked: " ++ detail
  | io detail => "Probe server error: " ++ detail
  | metrics error => "Metrics error: " ++ error.message

/-- A name taken by a foreign object is transient: the object may go away. -/
def severity : Failure → Severity
  | invalidSpec _ | invalidKey _ | invalidSettings _ => .terminal
  | cluster _ | connection _ | resourceConflict _ _ | watch _ | crashed _ | io _ | metrics _ =>
    .transient

def ofCrash (text : Option String) : Failure := crashed (text.getD "unknown panic")

end Failure

end Submarine
