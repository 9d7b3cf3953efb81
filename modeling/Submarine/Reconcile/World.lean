import Submarine.Cache.Basic
import Submarine.Cluster.Call
import Submarine.Reconcile.Pass

namespace Submarine

structure World where
  cluster : Cluster
  roots : Cache .submarine
  events : List Event
  clock : Time.Instant
  -- How many reads of a kind are still to break off without an answer.
  crashes : Kind → Nat

namespace World

def new (cluster : Cluster) (clock : Time.Instant) : World :=
  { cluster, roots := .empty, events := [], clock, crashes := fun _ ↦ 0 }

def answer (w : World) : (r : Request) → Option r.Answer × World
  | .cachedRoot ns name => (some (w.roots.get? ns name), w)
  | .get k ns name =>
    let (reply, cluster) := w.cluster.get k ⟨ns, name⟩
    (reply, { w with cluster })
  | .create _ o =>
    let (reply, cluster) := w.cluster.create o
    (reply, { w with cluster })
  | .update _ o =>
    let (reply, cluster) := w.cluster.update o
    (reply, { w with cluster })
  | .updateStatus _ o =>
    let (reply, cluster) := w.cluster.updateStatus o
    (reply, { w with cluster })
  | .publish event => (some (), { w with events := w.events ++ [event] })
  | .now => (some w.clock, w)

def crashKind? (w : World) : Request → Option Kind
  | .get k _ _ => if w.crashes k = 0 then none else some k
  | _ => none

def spendCrash (w : World) (k : Kind) : World :=
  { w with crashes := fun j ↦ if j = k then w.crashes k - 1 else w.crashes j }

/-- Answers a request unless it is a read that is to break off. -/
def serve (w : World) (r : Request) : Option r.Answer × World :=
  match w.crashKind? r with
  | some k => (none, w.spendCrash k)
  | none => w.answer r

def step {α : Type} (w : World) : Pass α → Pass α × World
  | .done a => (.done a, w)
  | .fail e => (.fail e, w)
  | .ask r next =>
    match w.serve r with
    | (some answer, w) => (next answer, w)
    | (none, w) => (.fail (.ofCrash none), w)

def run {α : Type} (w : World) : Pass α → Except Failure α × World
  | .done a => (.ok a, w)
  | .fail e => (.error e, w)
  | .ask r next =>
    match w.serve r with
    | (some answer, w) => w.run (next answer)
    | (none, w) => (.error (.ofCrash none), w)

end World

end Submarine
