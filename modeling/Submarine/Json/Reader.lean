import Submarine.Json.Fragment
import Submarine.Table

namespace Submarine.Json

structure Reader (α : Type) where
  read? : Json → Option α
  admits : Fragment → Bool

namespace Reader

variable {α β : Type}

def accepts (r : Reader α) (j : Json) : Bool := (r.read? j).isSome

def scalar (read? : Json → Option α) : Reader α := ⟨read?, Fragment.isScalar⟩

def string : Reader String := scalar string?

def bool : Reader Bool := scalar bool?

def int32 : Reader Int32 := scalar int32?

def int64 : Reader Int64 := scalar int64?

def uint16 : Reader Nat := scalar uint16?

def exactly (text : String) : Reader Unit :=
  scalar fun j ↦ j.string?.bind fun s ↦ if s = text then some () else none

def map (f : α → β) (r : Reader α) : Reader β := ⟨fun j ↦ (r.read? j).map f, r.admits⟩

def list (r : Reader α) : Reader (List α) where
  read? := list? r.read?
  admits
    | .array items next => items.all r.accepts && next.all r.admits
    | f => f.isScalar

/-- Reads an object of any members; of a repeated one the last counts. -/
def table (r : Reader α) : Reader (Table String α) where
  read? j := do
    let members ← j.object?
    return Table.ofList (← members.mapM fun m ↦ (r.read? m.2).map fun v ↦ (m.1, v))
  admits
    | .object members next => members.all (fun m ↦ r.accepts m.2) && next.all fun m ↦ r.admits m.2
    | f => f.isScalar

def texts : Reader (List String) := list string

def textTable : Reader (Table String String) := table string

def orNull (r : Reader α) : Reader (Option α) where
  read?
    | null => some none
    | j => (r.read? j).map some
  admits := r.admits

/-- Reads one of several names, which may also be the name of the one member of an object, with a
null for its value. -/
def oneOf (ofName? : String → Option α) : Reader α where
  read?
    | .string s => ofName? s
    | .object [(s, .null)] => ofName? s
    | _ => none
  admits
    | .blank | .text => true
    | .object [] none | .object [] (some (none, _)) => true
    | .object [] (some (some s, f)) => (ofName? s).isSome && f.isScalar
    | .object [(s, .null)] none => (ofName? s).isSome
    | _ => false

end Reader

end Submarine.Json
