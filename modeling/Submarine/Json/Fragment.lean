import Submarine.Json.Basic

namespace Submarine.Json

inductive Fragment where
  | blank
  | word
  | text
  -- Part of a string, or of an object, that is void whatever follows.
  | void
  -- Whole items, and the next one if a comma announced it.
  | array (items : List Json) (next : Option Fragment)
  -- Whole members, and the next one if a comma or a quote announced it; its name may be in the
  -- making.
  | object (members : Members) (next : Option (Option String × Fragment))

namespace Fragment

def isScalar : Fragment → Bool
  | blank | word | text => true
  | void | array _ _ | object _ _ => false

def isSound (depth : Nat) : Fragment → Bool
  | blank | word | text => true
  | void => false
  | array items next => match depth with
    | 0 => false
    | depth + 1 => areSoundItems depth items && (match next with
      | none => true
      | some f => isSound depth f)
  | object members next => match depth with
    | 0 => false
    | depth + 1 => areSoundMembers depth members && (match next with
      | none => true
      | some (_, f) => isSound depth f)

def names (members : Members) (next : Option (Option String × Fragment)) : List String :=
  members.map (·.1) ++ (next.bind (·.1)).toList

end Fragment

end Submarine.Json
