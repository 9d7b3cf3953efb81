import Submarine.Failure
import Submarine.Net.SocketAddress
import Submarine.Text.Blank
import Submarine.Text.Digits
import Submarine.Text.Quoted
import Submarine.Time.Delay

namespace Submarine

open Time

structure Settings where
  -- The namespace watched, or all of them.
  ns : Option String := none
  workers : Nat := 2
  probeAddress : Net.SocketAddress := .v4 [0, 0, 0, 0] 8080
  -- First and longest retry delay in nanoseconds.
  baseDelay : Nat := 5 * nanosPerMilli
  maxDelay : Nat := 1000 * nanosPerSecond
deriving DecidableEq, Repr

namespace Settings

inductive Variable where
  | watchNamespace
  | workerCount
  | probeAddr
  | queueBaseDelayMs
  | queueMaxDelaySecs
deriving DecidableEq, Repr

def Variable.name : Variable → String
  | watchNamespace => "WATCH_NAMESPACE"
  | workerCount => "WORKER_COUNT"
  | probeAddr => "PROBE_ADDR"
  | queueBaseDelayMs => "QUEUE_BASE_DELAY_MS"
  | queueMaxDelaySecs => "QUEUE_MAX_DELAY_SECS"

inductive Fault where
  | number (setting : Variable) (value : String) (fault : Text.NumberFault)
  | address (value : String)
  | noWorkers
  | noBaseDelay
  -- In milliseconds and in seconds.
  | baseAboveMax (base max : Nat)
deriving DecidableEq, Repr

namespace Fault

def badValue (setting : Variable) (value reason : String) : String :=
  setting.name ++ "=" ++ Text.quoted value ++ ": " ++ reason

def message : Fault → String
  | number setting value fault => badValue setting value fault.message
  | address value => badValue .probeAddr value "invalid socket address syntax"
  | noWorkers => "WORKER_COUNT must be at least 1"
  | noBaseDelay => "QUEUE_BASE_DELAY_MS must be at least 1"
  | baseAboveMax base max =>
    "QUEUE_BASE_DELAY_MS (" ++ toString base ++ "ms) exceeds QUEUE_MAX_DELAY_SECS (" ++
      toString max ++ "s)"

def toFailure (f : Fault) : Failure := .invalidSettings f.message

end Fault

abbrev Environment := Variable → Option String

def maxNumber : Nat := 18446744073709551615

def number? (env : Environment) (v : Variable) : Except Fault (Option Nat) :=
  match env v with
  | none => .ok none
  | some value =>
    match Text.unsigned? maxNumber (Text.trim value.toList) with
    | .ok n => .ok (some n)
    | .error fault => .error (.number v value fault)

def address? (env : Environment) : Except Fault (Option Net.SocketAddress) :=
  match env .probeAddr with
  | none => .ok none
  | some value =>
    match Net.SocketAddress.parse? (Text.trim value.toList) with
    | some a => .ok (some a)
    | none => .error (.address value)

def namespace? (env : Environment) : Option String :=
  (env .watchNamespace).filter fun ns ↦ ¬ (Text.trim ns.toList).isEmpty

def load (env : Environment) : Except Fault Settings := do
  let defaults : Settings := {}
  let workers := (← number? env .workerCount).getD defaults.workers
  if workers = 0 then throw .noWorkers
  let probeAddress := (← address? env).getD defaults.probeAddress
  let baseDelay := ((← number? env .queueBaseDelayMs).map (· * nanosPerMilli)).getD
    defaults.baseDelay
  let maxDelay := ((← number? env .queueMaxDelaySecs).map (· * nanosPerSecond)).getD
    defaults.maxDelay
  if baseDelay = 0 then throw .noBaseDelay
  if maxDelay < baseDelay then
    throw (.baseAboveMax (baseDelay / nanosPerMilli) (maxDelay / nanosPerSecond))
  return { ns := namespace? env, workers, probeAddress, baseDelay, maxDelay }

end Settings

end Submarine
