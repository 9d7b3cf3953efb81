import Submarine.Api.Address
import Submarine.Api.Exchange
import Submarine.Event

namespace Submarine.Api

open Json

def reportingController : String := "submarine-controller"

structure PublishedEvent where
  name : String
  event : Event
  time : Time.Instant
  -- How often it was seen, if more than once, and when last.
  series : Option (Nat × Time.Instant) := none

structure EventKey where
  regarding : ObjectReference
  type : EventType
  reason : String
deriving DecidableEq

def EventKey.ofEvent (e : Event) : EventKey := ⟨e.regarding, e.type, e.reason⟩

structure Recorder where
  reportingInstance : String
  published : List (EventKey × PublishedEvent)

namespace PublishedEvent

def new (e : Event) (now : Time.Instant) : PublishedEvent where
  name := e.regarding.name.getD reportingController ++ "." ++
    String.ofList (Text.hexDigits (now.seconds.toNat * 1000000000 + now.nanos))
  event := e
  time := now

def seenAgain (p : PublishedEvent) (now : Time.Instant) : PublishedEvent :=
  { p with series := some ((p.series.map Prod.fst).getD 1 + 1, now) }

def timeJson (t : Time.Instant) : Json := .string (Time.Rfc3339.renderMicros t)

def toJson (reportingInstance : String) (p : PublishedEvent) : Json :=
  record [("apiVersion", some (.string "events.k8s.io/v1")), ("kind", some (.string "Event")),
    ("action", some (.string "Reconcile")), ("eventTime", some (timeJson p.time)),
    ("metadata", some (Metadata.toJson
      { name := some p.name, ns := p.event.regarding.ns })),
    ("note", some (.string p.event.note)), ("reason", some (.string p.event.reason)),
    ("regarding", some p.event.regarding.toJson),
    ("reportingController", some (.string reportingController)),
    ("reportingInstance", some (.string reportingInstance)),
    ("series", p.series.map fun (count, last) ↦
      record [("count", some (.integer count)), ("lastObservedTime", some (timeJson last))]),
    ("type", some (.string p.event.type.name))]

end PublishedEvent

namespace PublishedEvent

/-- When an event was seen last has to be told if it is told how often. -/
def seriesReader : Reader Unit :=
  .resource <| (fun _ _ ↦ ()) <$> .orElse "count" 0 .int32 <*> .required "lastObservedTime" .time

def sourceReader : Reader Unit :=
  .resource <| (fun _ _ ↦ ()) <$> .optional "component" .string <*> .optional "host" .string

/-- Reads any event; the server's answer is only asked whether it is one. -/
def reader : Reader Unit :=
  let texts : Fields Unit :=
    (fun _ _ _ _ _ _ ↦ ()) <$> .optional "action" .string <*> .optional "note" .string <*>
      .optional "reason" .string <*> .optional "reportingController" .string <*>
      .optional "reportingInstance" .string <*> .optional "type" .string
  let deprecated : Fields Unit :=
    (fun _ _ _ _ ↦ ()) <$> .optional "deprecatedCount" .int32 <*>
      .optional "deprecatedFirstTimestamp" .time <*> .optional "deprecatedLastTimestamp" .time <*>
      .optional "deprecatedSource" sourceReader
  .resource <| (fun _ _ _ _ _ _ _ _ ↦ ()) <$> Object.typeFields "events.k8s.io/v1" "Event" <*>
    .orElse "metadata" {} Metadata.reader <*> texts <*> deprecated <*>
    .optional "eventTime" .time <*> .optional "regarding" ObjectReference.reader <*>
    .optional "related" ObjectReference.reader <*> .optional "series" seriesReader

end PublishedEvent

namespace Recorder

def new (podName : Option String) : Recorder := ⟨podName.getD reportingController, []⟩

def eventsPath (e : Event) : String :=
  collection "events.k8s.io" "v1" "events" (some (e.regarding.ns.getD "default"))

def request (r : Recorder) (p : PublishedEvent) : Request :=
  let body := some (p.toJson r.reportingInstance)
  match p.series with
  | none => ⟨.post, eventsPath p.event ++ "?", some "application/json", body⟩
  | some _ =>
    ⟨.patch, eventsPath p.event ++ "/" ++ p.name ++ "?", some "application/merge-patch+json", body⟩

/-- Publishes an event. Only what the server took is known from then on. -/
def publish (r : Recorder) (e : Event) (now : Time.Instant) (s : Server) : Recorder × Server :=
  let key := EventKey.ofEvent e
  let p := match r.published.lookup key with
    | some p => p.seenAgain now
    | none => .new e now
  match s.ask (r.request p) PublishedEvent.reader with
  | (.ok (), s) => ({ r with published := (key, p) :: r.published.filter (·.1 ≠ key) }, s)
  | (.error _, s) => (r, s)

end Recorder

end Submarine.Api
