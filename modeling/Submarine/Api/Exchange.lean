import Submarine.Failure
import Submarine.Json.Parser
import Submarine.Json.Record
import Submarine.Net.Uri
import Submarine.Text.Quoted

namespace Submarine.Api

open Json

inductive Method where
  | get
  | post
  | put
  | patch
deriving DecidableEq, Repr

def Method.name : Method → String
  | get => "GET"
  | post => "POST"
  | put => "PUT"
  | patch => "PATCH"

structure Request where
  method : Method
  uri : String
  contentType : Option String := none
  body : Option Json := none

structure Response where
  status : Nat
  body : String

structure Server where
  responses : List Response
  requests : List Request

structure Refusal where
  code : Nat
  reason : String
  message : String
deriving DecidableEq, Repr

namespace Refusal

def reader : Reader Refusal :=
  .record <| (fun _ message reason code ↦ ⟨code, reason, message⟩) <$>
    .required "status" .string <*> .withDefault "message" "" .string <*>
    .withDefault "reason" "" .string <*> .required "code" .uint16

/-- A refusal whose body does not tell why is told by its status. -/
def ofResponse (r : Response) : Refusal :=
  ((Json.read r.body).toOption.bind reader.read?).getD
    ⟨r.status, "Failed to parse error data", Text.quoted r.body⟩

def error (what : String) (r : Refusal) : ApiError :=
  if r.code = 404 then .notFound what
  else if r.code = 409 then
    if r.reason = "AlreadyExists" then .alreadyExists what else .conflict what
  else .rejected r.code r.message

end Refusal

def Response.isRefusal (r : Response) : Bool := 400 ≤ r.status && r.status < 600

inductive Fault where
  | refused (r : Refusal)
  | noResponse
  | undecodable
deriving DecidableEq, Repr

def Fault.error (what : String) : Fault → ApiError
  | refused r => r.error what
  | noResponse => .transport "no response"
  | undecodable => .transport "the response cannot be decoded"

def Response.decode {α : Type} (reader : Reader α) (r : Response) : Except Fault α :=
  if r.isRefusal then .error (.refused (.ofResponse r))
  else match (Json.read r.body).toOption.bind reader.read? with
    | some a => .ok a
    | none => .error .undecodable

namespace Server

def send (s : Server) (q : Request) : Option Response × Server :=
  match Net.Uri.ofText? q.uri with
  | none => (none, s)
  | some uri =>
    let requests := s.requests ++ [{ q with uri := uri.target }]
    match s.responses with
    | [] => (none, ⟨[], requests⟩)
    | r :: responses => (some r, ⟨responses, requests⟩)

def ask {α : Type} (s : Server) (q : Request) (reader : Reader α) : Except Fault α × Server :=
  match s.send q with
  | (none, s) => (.error .noResponse, s)
  | (some r, s) => (r.decode reader, s)

variable {s s' : Server} {q : Request}

theorem length_responses_of_send {r : Response} (h : s.send q = (some r, s')) :
    s'.responses.length < s.responses.length := by
  unfold send at h
  split at h
  · simp at h
  · split at h
    · simp at h
    · rename_i heq
      obtain ⟨-, rfl⟩ := Prod.mk.inj h
      simp [heq]

theorem length_responses_of_ask {α : Type} {reader : Reader α} {a : α}
    (h : s.ask q reader = (.ok a, s')) : s'.responses.length < s.responses.length := by
  unfold ask at h
  split at h
  · simp at h
  · rename_i heq
    obtain ⟨-, rfl⟩ := Prod.mk.inj h
    exact length_responses_of_send heq

end Server

end Submarine.Api
