import Submarine.Cache.Basic
import Submarine.Metrics
import Submarine.Net.Uri

namespace Submarine

inductive Probe where
  | health
  | ready
  | metrics
deriving DecidableEq, Repr

namespace Probe

structure Reply where
  status : Nat
  contentType : Option String
  body : String
deriving DecidableEq, Repr

namespace Reply

def text (status : Nat) (body : String) : Reply := ⟨status, some "text/plain; charset=utf-8", body⟩

def bare (status : Nat) : Reply := ⟨status, none, ""⟩

def withoutBody (r : Reply) : Reply := { r with body := "" }

end Reply

def ofPath? : String → Option Probe
  | "/healthz" => some health
  | "/readyz" => some ready
  | "/metrics" => some metrics
  | _ => none

/-- Healthy as long as it answers, ready once the cache of installations has been filled. -/
def reply (roots : Cache .submarine) (m : Metrics) : Probe → Reply
  | health => .text 200 "ok"
  | ready => if roots.synced then .text 200 "ok" else .text 503 "cache not synced"
  | metrics => .text 200 m.exposition

/-- Probes are read with GET, or with HEAD for the reply without its body. Nothing but the path
tells them apart. -/
def serve (roots : Cache .submarine) (m : Metrics) (method : String) (uri : Net.Uri) : Reply :=
  match ofPath? uri.path, method with
  | none, _ => .bare 404
  | some p, "GET" => p.reply roots m
  | some p, "HEAD" => (p.reply roots m).withoutBody
  | some _, _ => .bare 405

end Probe

end Submarine
