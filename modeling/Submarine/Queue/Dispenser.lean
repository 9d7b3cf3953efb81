import Submarine.Queue.Basic
import Submarine.Queue.Gate

namespace Submarine

inductive Stage where
  | looking (ticket : Nat)
  | parking (ticket : Nat)
  | sleeping
  -- It was woken, by a signal of its own or by a signal to all.
  | woken (bySignal : Bool)
  | finished (key : Option String)
deriving DecidableEq, Repr

structure Taker where
  id : Nat
  stage : Stage
deriving DecidableEq, Repr

namespace Taker

def isRunnable (t : Taker) : Bool :=
  match t.stage with
  | .looking _ | .parking _ | .woken _ => true
  | .sleeping | .finished _ => false

end Taker

structure Dispenser where
  queue : Queue
  gate : Gate
  takers : List Taker
  nextId : Nat
  owed : Nat
  closing : Bool
  -- The depth of the queue that was reported last.
  depth : Nat
deriving DecidableEq

namespace Dispenser

def empty : Dispenser := ⟨.empty, .initial, [], 0, 0, false, 0⟩

instance : Inhabited Dispenser := ⟨empty⟩

def setStage (d : Dispenser) (id : Nat) (stage : Stage) : Dispenser :=
  { d with takers := d.takers.map fun t ↦ if t.id = id then { t with stage } else t }

def stage? (d : Dispenser) (id : Nat) : Option Stage :=
  (d.takers.find? (·.id = id)).map Taker.stage

/-- A key that becomes ready is reported, and owes a signal. -/
def add (d : Dispenser) (key : String) : Dispenser :=
  let queue := d.queue.add key
  { d with
    queue
    owed := if d.queue.admits key then d.owed + 1 else d.owed
    depth := if d.queue.admits key then queue.size else d.depth }

def done (d : Dispenser) (key : String) : Dispenser :=
  let queue := d.queue.done key
  { d with
    queue
    owed := if d.queue.readmits key then d.owed + 1 else d.owed
    depth := if d.queue.readmits key then queue.size else d.depth }

def shutDown (d : Dispenser) : Dispenser :=
  { d with queue := d.queue.shutDown, closing := true }

def ask (d : Dispenser) : Nat × Dispenser :=
  (d.nextId,
    { d with
      takers := d.takers ++ [⟨d.nextId, .looking d.gate.round⟩]
      nextId := d.nextId + 1 })

/-- A taker with a key reports what is left, and owes a signal if that is anything. -/
def look (d : Dispenser) (id ticket : Nat) : Dispenser :=
  match d.queue.take with
  | (.closed, _) => d.setStage id (.finished none)
  | (.nothing, _) => d.setStage id (.parking ticket)
  | (.key key, queue) =>
    { d with
      queue
      owed := if queue.isEmpty then d.owed else d.owed + 1
      depth := queue.size }.setStage id (.finished (some key))

/-- The next step of a taker; none if it sleeps, is finished or is unknown. -/
def step? (d : Dispenser) (id : Nat) : Option Dispenser :=
  match d.stage? id with
  | some (.looking ticket) => some (d.look id ticket)
  | some (.parking ticket) =>
    let (gate, goesOn) := d.gate.park id ticket
    some ({ d with gate }.setStage id (if goesOn then .looking gate.round else .sleeping))
  | some (.woken _) => some (d.setStage id (.looking d.gate.round))
  | some .sleeping | some (.finished _) | none => none

def signal? (d : Dispenser) : Option Dispenser :=
  match d.owed with
  | 0 => none
  | owed + 1 =>
    let (gate, id?) := d.gate.signal
    let d := { d with gate, owed }
    some (match id? with
      | some id => d.setStage id (.woken true)
      | none => d)

def signalAll? (d : Dispenser) : Option Dispenser :=
  if d.closing then
    let (gate, ids) := d.gate.signalAll
    some (ids.foldl (fun d id ↦ d.setStage id (.woken false)) { d with gate, closing := false })
  else none

/-- Gives up waiting. A signal that woke the taker, and that it has not acted on, is owed again. -/
def abandon (d : Dispenser) (id : Nat) : Dispenser :=
  { d with
    gate := d.gate.leave id
    takers := d.takers.filter (·.id ≠ id)
    owed := if d.stage? id = some (.woken true) then d.owed + 1 else d.owed }

def next? (d : Dispenser) : Option Dispenser :=
  d.signal? <|> d.signalAll? <|>
    (d.takers.find? Taker.isRunnable).bind fun t ↦ d.step? t.id

/-- Nothing is owed and no taker can take a step. -/
def AtRest (d : Dispenser) : Prop :=
  d.owed = 0 ∧ d.closing = false ∧ ∀ t ∈ d.takers, t.isRunnable = false

def settleWithin : Nat → Dispenser → Dispenser
  | 0, d => d
  | fuel + 1, d =>
    match d.next? with
    | some d => settleWithin fuel d
    | none => d

/-- No more steps than this can be taken: every taker looks at most once for each signal that is
owed or kept, for each key that is ready, and for a signal to all. -/
def stepBound (d : Dispenser) : Nat :=
  8 * (d.takers.length + 1) * (d.takers.length + d.owed + d.queue.size + 3)

def settle (d : Dispenser) : Dispenser := settleWithin d.stepBound d

def collect (d : Dispenser) : List (Nat × Option String) × Dispenser :=
  (d.takers.filterMap fun t ↦ match t.stage with
      | .finished key => some (t.id, key)
      | _ => none,
    { d with takers := d.takers.filter fun t ↦ match t.stage with
      | .finished _ => false
      | _ => true })

end Dispenser

end Submarine
