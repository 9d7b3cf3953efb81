import Submarine.Cluster.Watch

namespace Submarine

inductive Incident (k : Kind) where
  | event (event : WatchEvent k)
  -- Something that is no event; the stream goes on by itself.
  | fault
  | ended
  | crashed

/-- How a stream goes on once what was prepared has been read. -/
inductive Continuation (k : Kind) where
  | silent
  | ended
  | live (watch : Watch k)

structure Feed (k : Kind) where
  prepared : List (Incident k)
  rest : Continuation k

namespace Feed

variable {k : Kind}

def live (k : Kind) (c : Cluster) : Feed k := ⟨[], .live (.start k c)⟩

def next? (f : Feed k) (c : Cluster) : Option (Incident k × Feed k) :=
  match f.prepared with
  | i :: prepared => some (i, { f with prepared })
  | [] =>
    match f.rest with
    | .silent => none
    | .ended => some (.ended, f)
    | .live w => (w.read? c).map fun (event?, w) ↦
      ((event?.map Incident.event).getD .fault, { f with rest := .live w })

end Feed

end Submarine
