import Submarine.Controller.Watchers
import Submarine.Reconcile.Basic
import Submarine.Settings

namespace Submarine

inductive Worker where
  | asking (taker : Nat)
  | passing (key : String) (rest : Pass Unit)
  -- The result of the pass is counted; the key is still to be released.
  | releasing (key : String)
  | exited

inductive Departure where
  | shutdown
  | loopEnded (kind : Kind) (how : LoopEnd)
deriving DecidableEq, Repr

def streamEndedFailure (k : Kind) : Failure := .watch (k.name ++ " watch stream ended")

/-- How the run ends. Of a loop that crashed, the runtime words the error. -/
def Departure.result (why : Departure) (crash : String := "") : Except Failure Unit :=
  match why with
  | shutdown => .ok ()
  | loopEnded k .streamEnded =>
    .error (.watch (k.name ++ " watcher error: " ++ (streamEndedFailure k).message))
  | loopEnded k .crashed => .error (.watch (k.name ++ " watcher panicked: " ++ crash))

inductive RunPhase where
  | syncing
  | running
  | leaving (why : Departure)
  | left (why : Departure)
deriving DecidableEq, Repr

structure Controller where
  watching : Watchers
  workers : List Worker
  phase : RunPhase
  workerCount : Nat
  isShutdownRequested : Bool

inductive Action where
  | watch (loop : Nat)
  | worker (worker : Nat)
  | taker (id : Nat)
  | signal
  | signalAll
  | fire
  -- The controller starts its workers, leaves, or has left.
  | proceed
deriving DecidableEq, Repr

namespace Controller

def new (settings : Settings) (world : World) (feed : (k : Kind) → Feed k) : Controller where
  watching :=
    ⟨world, Watchers.forInstallations feed, .new ⟨settings.baseDelay, settings.maxDelay⟩ true⟩
  workers := []
  phase := .syncing
  workerCount := settings.workers
  isShutdownRequested := false

abbrev world (s : Controller) : World := s.watching.world

abbrev work (s : Controller) : WorkQueue := s.watching.work

def withWork (s : Controller) (work : WorkQueue) : Controller :=
  { s with watching := { s.watching with work } }

def withWorld (s : Controller) (world : World) : Controller :=
  { s with watching := { s.watching with world } }

def withWorker (s : Controller) (i : Nat) (w : Worker) : Controller :=
  { s with workers := s.workers.set i w }

def withDispenser? (s : Controller) (d : Option Dispenser) : Option Controller :=
  d.map fun d ↦ s.withWork (s.work.follow d)

def hasLeft (s : Controller) : Bool :=
  match s.phase with
  | .left _ => true
  | _ => false

def endedLoop? (s : Controller) : Option (Kind × LoopEnd) :=
  s.watching.watchers.findSome? fun w ↦ w.ended.map fun how ↦ (w.kind, how)

def hire (s : Controller) : Controller :=
  let (taker, work) := s.work.takeLater
  { s.withWork work with workers := s.workers ++ [.asking taker] }

def hireMany (s : Controller) : Nat → Controller
  | 0 => s
  | n + 1 => s.hire.hireMany n

def leave (s : Controller) (why : Departure) : Controller :=
  { s.withWork s.work.shutDown with phase := .leaving why }

/-- The next step of the controller itself. While it waits for the cache it hears a shutdown, but
not that a loop has ended. -/
def proceed? (s : Controller) : Option Controller :=
  match s.phase with
  | .syncing =>
    if s.isShutdownRequested then some { s with phase := .left .shutdown }
    else if s.world.roots.synced then some { s.hireMany s.workerCount with phase := .running }
    else none
  | .running =>
    if s.isShutdownRequested then some (s.leave .shutdown)
    else s.endedLoop?.map fun (k, how) ↦ s.leave (.loopEnded k how)
  | .leaving why =>
    if s.workers.all fun w ↦ w matches .exited then some { s with phase := .left why } else none
  | .left _ => none

def stepWorker? (s : Controller) (i : Nat) : Option Controller := do
  match ← s.workers[i]? with
  | .asking taker =>
    match s.work.dispenser.stage? taker with
    | some (.finished key?) =>
      let s := s.withWork (s.work.follow (s.work.dispenser.abandon taker))
      match key? with
      | some key => some (s.withWorker i (.passing key (reconcile key)))
      | none => some (s.withWorker i .exited)
    | _ => none
  | .passing key (.done ()) =>
    some ((s.withWork (s.work.conclude key (.ok ()))).withWorker i (.releasing key))
  | .passing key (.fail f) =>
    some ((s.withWork (s.work.conclude key (.error f))).withWorker i (.releasing key))
  | .passing key rest =>
    let (rest, world) := s.world.step rest
    some ((s.withWorld world).withWorker i (.passing key rest))
  | .releasing key =>
    let (taker, work) := (s.work.done key).takeLater
    some ((s.withWork work).withWorker i (.asking taker))
  | .exited => none

/-- The state after an action; none if the action is not enabled. Once the controller has left, only
timers go on. -/
def step? (s : Controller) : Action → Option Controller
  | .watch i =>
    if s.hasLeft then none else (s.watching.step? i).map fun watching ↦ { s with watching }
  | .worker i => s.stepWorker? i
  | .taker id => s.withDispenser? (s.work.dispenser.step? id)
  | .signal => s.withDispenser? s.work.dispenser.signal?
  | .signalAll => s.withDispenser? s.work.dispenser.signalAll?
  | .fire => s.work.fire?.map s.withWork
  | .proceed => s.proceed?

def requestShutdown (s : Controller) : Controller := { s with isShutdownRequested := true }

end Controller

end Submarine
