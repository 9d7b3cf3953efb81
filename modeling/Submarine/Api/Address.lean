import Submarine.Cluster.Basic

namespace Submarine.Api

def collection (group version plural : String) (ns : Option String) : String :=
  (if group = "" then "/api/" ++ version else "/apis/" ++ group ++ "/" ++ version) ++
    (match ns with
      | some ns => "/namespaces/" ++ ns
      | none => "") ++ "/" ++ plural

end Submarine.Api

namespace Submarine

def Kind.collection (k : Kind) (ns : Option String) : String :=
  Api.collection k.group k.version k.plural ns

def Kind.path (k : Kind) (p : Place) : String := k.collection (some p.ns) ++ "/" ++ p.name

end Submarine
