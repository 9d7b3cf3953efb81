import Submarine.Decimal.Shortest
import Submarine.Failure
import Submarine.Table

namespace Submarine

structure Metrics where
  -- Finished passes by result. A result is listed once it has been asked for.
  results : Table String Nat
  depth : Int
  retries : Nat
deriving DecidableEq, Inhabited

namespace Metrics

def zero : Metrics := ⟨∅, 0, 0⟩

def resultLabel : Option Severity → String
  | none => "success"
  | some severity => severity.label

def count (m : Metrics) (result : String) : Nat := (m.results.get? result).getD 0

def touch (m : Metrics) (result : String) : Metrics :=
  { m with results := m.results.insert result (m.count result) }

def record (m : Metrics) (outcome : Option Severity) : Metrics :=
  let result := resultLabel outcome
  { m with results := m.results.insert result (m.count result + 1) }

def setDepth (m : Metrics) (depth : Int) : Metrics := { m with depth }

def retry (m : Metrics) : Metrics := { m with retries := m.retries + 1 }

theorem count_record (m : Metrics) (outcome : Option Severity) (result : String) :
    (m.record outcome).count result =
      m.count result + if result = resultLabel outcome then 1 else 0 := by
  simp only [record, count, Table.get?_insert]
  split <;> simp [*]

/-- Registered again, the collectors are refused as duplicates. -/
def registerAgain : Except Failure Unit := .error (.metrics .duplicate)

structure Family where
  name : String
  help : String
  type : String
  -- A label, written as it stands after the name, and a value.
  samples : List (String × Int)

namespace Family

def line (name : String) (sample : String × Int) : String :=
  name ++ sample.1 ++ " " ++ Decimal.render sample.2 ++ "\n"

def render (f : Family) : String :=
  if f.samples.isEmpty then ""
  else
    "# HELP " ++ f.name ++ " " ++ f.help ++ "\n# TYPE " ++ f.name ++ " " ++ f.type ++ "\n" ++
      String.join (f.samples.map (line f.name))

end Family

def escapeChar : Char → List Char
  | '\\' => ['\\', '\\']
  | '"' => ['\\', '"']
  | '\n' => ['\\', 'n']
  | c => [c]

def labelValue (s : String) : String := "\"" ++ String.ofList (s.toList.flatMap escapeChar) ++ "\""

def families (m : Metrics) : List Family :=
  [{ name := "submarine_reconcile_total"
     help := "Reconcile passes by result"
     type := "counter"
     samples := m.results.entries.map fun e ↦ ("\x7bresult=" ++ labelValue e.1 ++ "\x7d", e.2) },
    { name := "submarine_workqueue_depth"
      help := "Keys waiting in the work queue"
      type := "gauge"
      samples := [("", m.depth)] },
    { name := "submarine_workqueue_retries_total"
      help := "Rate-limited requeues"
      type := "counter"
      samples := [("", m.retries)] }]

def exposition (m : Metrics) : String := String.join (m.families.map Family.render)

end Metrics

end Submarine
