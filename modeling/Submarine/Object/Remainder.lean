import Submarine.Json.Equality
import Submarine.Json.Record

namespace Submarine

open Json

/-- A value that is kept as it is given. Members of objects are listed by name, so that their order
makes no difference. -/
structure Verbatim where
  json : Json
  isPresent : json.isNull = false
  isSound : json.isSound maxDepth = true
  isSorted : json.sorted = json
deriving DecidableEq

def Verbatim.reader : Reader Verbatim where
  read? j :=
    let j := j.sorted
    if h : j.isNull = false ∧ j.isSound maxDepth = true ∧ j.sorted = j then
      some ⟨j, h.1, h.2.1, h.2.2⟩
    else none
  admits f := f.isSound maxDepth

/-- Members of a record that are neither written nor read one by one. They come and go with it and
make a difference wherever it is compared as a whole. -/
inductive Remainder : List String → Type where
  | nil : Remainder []
  | cons {name : String} {names : List String} (value : Option Verbatim) (rest : Remainder names) :
    Remainder (name :: names)
deriving DecidableEq

namespace Remainder

variable {names : List String}

def none : (names : List String) → Remainder names
  | [] => nil
  | _ :: names => cons .none (none names)

instance : Inhabited (Remainder names) := ⟨none names⟩

def members : {names : List String} → Remainder names → List (String × Option Json)
  | [], nil => []
  | name :: _, cons value rest => (name, value.map Verbatim.json) :: rest.members

def fields : (names : List String) → Fields (Remainder names)
  | [] => pure nil
  | name :: names => cons <$> .optional name Verbatim.reader <*> fields names

def toJson (r : Remainder names) : Json := record r.members

def reader : Reader (Remainder names) := .resource (fields names)

end Remainder

end Submarine
