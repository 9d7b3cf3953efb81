import Submarine.Controller.Feed
import Submarine.Queue.WorkQueue
import Submarine.Reconcile.World
import Submarine.Router

namespace Submarine

inductive LoopEnd where
  | streamEnded
  | crashed
deriving DecidableEq, Repr

structure Loop (k : Kind) where
  feed : Feed k
  pending : List (Notification k)
  ended : Option LoopEnd

namespace Loop

variable {k : Kind}

def start (feed : Feed k) : Loop k := ⟨feed, [], none⟩

/-- Reads on from the stream. Tells the event, if there was one. -/
def read? (l : Loop k) (c : Cluster) : Option (Option (WatchEvent k) × Loop k) :=
  match l.ended with
  | some _ => none
  | none => (l.feed.next? c).map fun (i, feed) ↦
    match i with
    | .event e => (some e, { l with feed })
    | .fault => (none, { l with feed })
    | .ended => (none, { l with feed, ended := some .streamEnded })
    | .crashed => (none, { l with feed, ended := some .crashed })

end Loop

inductive Watcher where
  | roots (loop : Loop .submarine)
  | children (k : Kind) (loop : Loop k) (cache : Cache k)

namespace Watcher

def kind : Watcher → Kind
  | roots _ => .submarine
  | children k _ _ => k

def ended : Watcher → Option LoopEnd
  | roots l => l.ended
  | children _ l _ => l.ended

def step? (w : Watcher) (c : Cluster) (cached : Cache .submarine) :
    Option (Watcher × Cache .submarine × Option String) :=
  match w with
  | roots l =>
    match l.pending with
    | n :: pending => some (.roots { l with pending }, cached, Router.keyOfRoot? n)
    | [] => (l.read? c).map fun (event?, l) ↦
      match event? with
      | none => (.roots l, cached, none)
      | some e =>
        let (cached, pending) := cached.apply e
        (.roots { l with pending }, cached, none)
  | children k l cache =>
    match l.pending with
    | n :: pending =>
      some (.children k { l with pending } cache, cached, Router.keyOfChild? cached n)
    | [] => (l.read? c).map fun (event?, l) ↦
      match event? with
      | none => (.children k l cache, cached, none)
      | some e =>
        let (cache, pending) := cache.apply e
        (.children k { l with pending } cache, cached, none)

end Watcher

def childKinds : List Kind :=
  [.serviceAccount, .deployment, .service, .persistentVolumeClaim, .secret, .statefulSet, .ingress,
    .role, .roleBinding, .ingressRoute]

/-- Watch loops with the world that they watch and the queue that they fill. -/
structure Watchers where
  world : World
  watchers : List Watcher
  work : WorkQueue

namespace Watchers

def forInstallations (feed : (k : Kind) → Feed k) : List Watcher :=
  .roots (.start (feed .submarine)) ::
    childKinds.map fun k ↦ .children k (.start (feed k)) .empty

def step? (s : Watchers) (i : Nat) : Option Watchers := do
  let w ← s.watchers[i]?
  let (w, roots, key?) ← w.step? s.world.cluster s.world.roots
  return {
    world := { s.world with roots }
    watchers := s.watchers.set i w
    work := match key? with
      | some key => s.work.add key
      | none => s.work }

def firstStep? (s : Watchers) : List Nat → Option Watchers
  | [] => none
  | i :: rest => s.step? i <|> s.firstStep? rest

def anyStep? (s : Watchers) : Option Watchers := s.firstStep? (List.range s.watchers.length)

def settle : Nat → Watchers → Watchers
  | 0, s => s
  | fuel + 1, s =>
    match s.anyStep? with
    | some s => settle fuel s
    | none => s

end Watchers

end Submarine
