import Submarine.Metrics
import Submarine.Queue.Backoff
import Submarine.Queue.Dispenser

namespace Submarine

structure Timer where
  due : Nat
  key : String
deriving DecidableEq, Repr

structure WorkQueue where
  dispenser : Dispenser
  backoff : Backoff
  now : Nat
  -- The timers that run, the next one first.
  timers : List Timer
  metrics : Metrics
  -- Whether depth and retries are counted. Results always are.
  isMeasured : Bool

namespace WorkQueue

def new (backoff : Backoff) (isMeasured : Bool) : WorkQueue :=
  { dispenser := .empty, backoff, now := 0, timers := [], metrics := .zero, isMeasured }

abbrev queue (w : WorkQueue) : Queue := w.dispenser.queue

/-- Goes over to another state of the dispenser. The gauge shows what that reported last. -/
def follow (w : WorkQueue) (d : Dispenser) : WorkQueue :=
  { w with
    dispenser := d
    metrics := if w.isMeasured then w.metrics.setDepth d.depth else w.metrics }

def add (w : WorkQueue) (key : String) : WorkQueue := w.follow (w.dispenser.add key)

def done (w : WorkQueue) (key : String) : WorkQueue := w.follow (w.dispenser.done key)

def forget (w : WorkQueue) (key : String) : WorkQueue :=
  w.follow { w.dispenser with queue := w.queue.forget key }

def shutDown (w : WorkQueue) : WorkQueue := w.follow w.dispenser.shutDown

def settle (w : WorkQueue) : WorkQueue := w.follow w.dispenser.settle

/-- Timers of the same time stay in the order in which they were started. -/
def insertTimer (t : Timer) : List Timer → List Timer
  | [] => [t]
  | u :: rest => if t.due < u.due then t :: u :: rest else u :: insertTimer t rest

/-- No timer runs for longer: thirty years of 365 days. -/
def longestTimer : Nat := 30 * 365 * 86400 * Time.nanosPerSecond

/-- Timers go off at whole milliseconds. -/
def wholeMillis (time : Nat) : Nat :=
  (time + Time.nanosPerMilli - 1) / Time.nanosPerMilli * Time.nanosPerMilli

/-- Counts a failure of the key, and starts the timer that adds it again. -/
def retryLater (w : WorkQueue) (key : String) : WorkQueue :=
  let delay := w.backoff.delay (w.queue.failureCount key)
  { w with
    dispenser := { w.dispenser with queue := w.queue.countFailure key }
    timers := insertTimer ⟨wholeMillis (w.now + min delay longestTimer), key⟩ w.timers
    metrics := if w.isMeasured then w.metrics.retry else w.metrics }

def fire? (w : WorkQueue) : Option WorkQueue :=
  match w.timers with
  | [] => none
  | t :: rest => some ({ w with now := max w.now t.due, timers := rest }.add t.key)

theorem fire?_eq_some {w w' : WorkQueue} (h : w.fire? = some w') :
    ∃ t rest, w.timers = t :: rest ∧
      w' = { w with now := max w.now t.due, timers := rest }.add t.key := by
  unfold fire? at h
  split at h
  · contradiction
  · next t rest htimers => exact ⟨t, rest, htimers, (Option.some.inj h).symm⟩

/-- Lets every timer go off that is due by then, and all come to rest after each. -/
def fireDue (w : WorkQueue) (time : Nat) : Nat → WorkQueue
  | 0 => w
  | fuel + 1 =>
    match w.timers with
    | [] => w
    | t :: _ =>
      if t.due ≤ time then
        match w.fire? with
        | some fired => fireDue fired.settle time fuel
        | none => w
      else w

def restBy (w : WorkQueue) (time : Nat) : WorkQueue := w.settle.fireDue time w.timers.length

/-- Comes to rest. Timers that were started without delay have gone off then. -/
def rest (w : WorkQueue) : WorkQueue := w.restBy w.now

def advance (w : WorkQueue) (span : Nat) : WorkQueue :=
  let time := w.now + span
  { w.restBy time with now := time }

/-- Counts the result of a pass. A key that failed for now is retried later; after a success, and
after a failure for good, its failures are forgotten. -/
def conclude (w : WorkQueue) (key : String) (result : Except Failure Unit) : WorkQueue :=
  match result with
  | .ok () => { w with metrics := w.metrics.record none }.forget key
  | .error f =>
    let counted := { w with metrics := w.metrics.record (some f.severity) }
    match f.severity with
    | .terminal => counted.forget key
    | .transient => counted.retryLater key

def finish (w : WorkQueue) (key : String) (result : Except Failure Unit) : WorkQueue :=
  (w.conclude key result).done key

/-- Asks for a key without waiting for one: a taker that would sleep gives up. -/
def takeNow (w : WorkQueue) : Handout × WorkQueue :=
  let (id, d) := w.dispenser.ask
  let d := d.settle
  match d.stage? id with
  | some (.finished (some key)) => (.key key, w.follow (d.abandon id))
  | some (.finished none) => (.closed, w.follow (d.abandon id))
  | _ => (.nothing, w.follow (d.abandon id).settle)

/-- Takes a key without waiting for one, and ends the pass over it. Keys may arrive before it ends,
the same key among them. -/
def passNow (w : WorkQueue) (arriving : List String) (result : Except Failure Unit) :
    Handout × WorkQueue :=
  match w.takeNow with
  | (.key key, w) => (.key key, (arriving.foldl add w).finish key result)
  | (.nothing, w) => (.nothing, w)
  | (.closed, w) => (.closed, w)

def takeLater (w : WorkQueue) : Nat × WorkQueue :=
  let (id, d) := w.dispenser.ask
  (id, w.follow d)

/-- Takes the keys that are ready one after another, each released before the next is taken. -/
def drainWithin : Nat → WorkQueue → List String × WorkQueue
  | 0, w => ([], w)
  | fuel + 1, w =>
    match w.takeNow with
    | (.key key, w) =>
      let (keys, w) := drainWithin fuel ((w.done key).settle)
      (key :: keys, w)
    | (_, w) => ([], w)

def drain (w : WorkQueue) : List String × WorkQueue :=
  drainWithin (w.queue.size + w.queue.dirty.length + 1) w

end WorkQueue

end Submarine
