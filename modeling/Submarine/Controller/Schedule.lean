import Submarine.Controller.Basic

namespace Submarine.Controller

def isBusy : Worker → Bool
  | .passing _ _ | .releasing _ => true
  | .asking _ | .exited => false

def candidates (s : Controller) : List Action :=
  let workers := s.workers.zipIdx
  ((workers.filter fun w ↦ isBusy w.1).map fun w ↦ .worker w.2) ++
    (List.range s.watching.watchers.length).map .watch ++
    [.signal, .signalAll] ++
    (s.work.dispenser.takers.filter Taker.isRunnable).map (fun t ↦ .taker t.id) ++
    ((workers.filter fun w ↦ !isBusy w.1).map fun w ↦ .worker w.2) ++
    [.proceed]

def next? (s : Controller) : Option Controller := s.candidates.findSome? s.step?

/-- Takes steps until nobody has anything left to do, or so many. -/
def settle : Nat → Controller → Controller
  | 0, s => s
  | fuel + 1, s =>
    match s.next? with
    | some s => settle fuel s
    | none => s

def patience : Nat := 1000000

def atRest (s : Controller) : Controller := s.settle patience

/-- Lets the timers go off that are due by then, and all come to rest after each. -/
def fireUntil (time : Nat) : Nat → Controller → Controller
  | 0, s => s
  | fuel + 1, s =>
    match s.work.timers with
    | [] => s
    | t :: _ =>
      if t.due ≤ time then
        match s.step? .fire with
        | some fired => fireUntil time fuel fired.atRest
        | none => s
      else s

def runFor (s : Controller) (span : Nat) : Controller :=
  let time := s.work.now + span
  let s := s.atRest.fireUntil time patience
  s.withWork { s.work with now := time }

end Submarine.Controller
