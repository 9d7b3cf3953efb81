import Submarine.Api.Address
import Submarine.Api.Exchange

namespace Submarine

open Json

def Object.statusJson {k : Kind} (o : Object k) : Json := o.toJson.member "status"

namespace Api

variable {k : Kind}

def getRequest (k : Kind) (p : Place) : Request where
  method := .get
  uri := k.path p

def createRequest (p : Place) (o : Object k) : Request where
  method := .post
  uri := k.collection (some p.ns) ++ "?"
  contentType := some "application/json"
  body := some o.toJson

def updateRequest (p : Place) (o : Object k) : Request where
  method := .put
  uri := k.path p ++ "?"
  contentType := some "application/json"
  body := some o.toJson

/-- Replaces the status. The server refuses a patch that names another version than the stored
one. -/
def statusPatch (o : Object k) : Json :=
  .object [("metadata", .object
      [("resourceVersion", (o.metadata.resourceVersion.map Json.string).getD .null)]),
    ("status", o.statusJson)]

def statusRequest (p : Place) (o : Object k) : Request where
  method := .patch
  uri := k.path p ++ "/status?"
  contentType := some "application/merge-patch+json"
  body := some (statusPatch o)

namespace Server

def askObject (s : Server) (k : Kind) (p : Place) (q : Request) :
    Except ApiError (Object k) × Server :=
  let (answer, s) := s.ask q (Object.reader k)
  (answer.mapError (Fault.error (describe k p)), s)

def askNamed (s : Server) (k : Kind) (p : Place) (q : Request) :
    Except ApiError (Object k) × Server :=
  if p.name = "" then (.error (.transport "a name is required"), s) else s.askObject k p q

def get (s : Server) (k : Kind) (p : Place) : Except ApiError (Object k) × Server :=
  s.askNamed k p (getRequest k p)

def create (s : Server) (o : Object k) : Except ApiError (Object k) × Server :=
  match o.place with
  | .error e => (.error e, s)
  | .ok p => s.askObject k p (createRequest p o)

def update (s : Server) (o : Object k) : Except ApiError (Object k) × Server :=
  match o.place with
  | .error e => (.error e, s)
  | .ok p => s.askNamed k p (updateRequest p o)

def updateStatus (s : Server) (o : Object k) : Except ApiError (Object k) × Server :=
  match o.place with
  | .error e => (.error e, s)
  | .ok p => s.askNamed k p (statusRequest p o)

end Server

end Api

end Submarine
