namespace Submarine

/-- A number that is not a 64-bit integer is kept as it was written. What is spelt correctly and yet
stands for nothing is `void`: a number too large for floating point, a string or a member's name
that holds half a surrogate pair. -/
inductive Json where
  | null
  | bool (value : Bool)
  | integer (value : Int)
  | decimal (text : String)
  | string (value : String)
  | array (items : List Json)
  | object (members : List (String × Json))
  | void
deriving Inhabited

namespace Json

abbrev Members := List (String × Json)

def isNull : Json → Bool
  | null => true
  | _ => false

def member (name : String) : Json → Json
  | object members => (members.lookup name).getD null
  | _ => null

def string? : Json → Option String
  | string s => some s
  | _ => none

def bool? : Json → Option Bool
  | bool b => some b
  | _ => none

def integer? : Json → Option Int
  | integer n => some n
  | _ => none

def object? : Json → Option Members
  | object members => some members
  | _ => none

def list? {α : Type} (read : Json → Option α) : Json → Option (List α)
  | array items => items.mapM read
  | _ => none

def integerIn? (lo hi : Int) (j : Json) : Option Int :=
  j.integer?.filter fun n ↦ lo ≤ n ∧ n ≤ hi

def int32? (j : Json) : Option Int32 :=
  (j.integerIn? (-2147483648) 2147483647).map Int32.ofInt

def int64? (j : Json) : Option Int64 :=
  (j.integerIn? (-9223372036854775808) 9223372036854775807).map Int64.ofInt

def uint16? (j : Json) : Option Nat := (j.integerIn? 0 65535).map Int.toNat

def uint32? (j : Json) : Option Nat := (j.integerIn? 0 4294967295).map Int.toNat

def ofInt32 (n : Int32) : Json := integer n.toInt

def ofInt64 (n : Int64) : Json := integer n.toInt

def ofList {α : Type} (write : α → Json) (items : List α) : Json := array (items.map write)

/-- How deep a value that is held as a whole can nest. -/
def maxDepth : Nat := 127

mutual

/-- Nothing in the value is void, and it nests at most so deep. -/
def isSound (depth : Nat) : Json → Bool
  | array items => match depth with
    | 0 => false
    | depth + 1 => areSoundItems depth items
  | object members => match depth with
    | 0 => false
    | depth + 1 => areSoundMembers depth members
  | void => false
  | _ => true

def areSoundItems (depth : Nat) : List Json → Bool
  | [] => true
  | j :: rest => isSound depth j && areSoundItems depth rest

def areSoundMembers (depth : Nat) : Members → Bool
  | [] => true
  | (_, j) :: rest => isSound depth j && areSoundMembers depth rest

end

/-- Puts a member before the first one whose name comes after it. -/
def insertMember (m : String × Json) : Members → Members
  | [] => [m]
  | n :: rest => if m.1 < n.1 then m :: n :: rest else n :: insertMember m rest

mutual

def sorted : Json → Json
  | array items => array (sortedItems items)
  | object members => object (sortedMembers members)
  | j => j

def sortedItems : List Json → List Json
  | [] => []
  | j :: rest => sorted j :: sortedItems rest

def sortedMembers : Members → Members
  | [] => []
  | (name, j) :: rest => insertMember (name, sorted j) (sortedMembers rest)

end

end Json

end Submarine
