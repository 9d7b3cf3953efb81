import Submarine.Json.Basic

namespace Submarine.Json

def putMember (name : String) (j : Json) : Members → Members
  | [] => [(name, j)]
  | m :: rest => if m.1 = name then (name, j) :: rest else m :: putMember name j rest

def eraseMember (name : String) (members : Members) : Members :=
  members.filter fun m ↦ m.1 ≠ name

mutual

def mergePatch (target : Json) : Json → Json
  | object changes =>
    match target with
    | object members => object (mergeMembers members changes)
    | _ => object (mergeMembers [] changes)
  | patch => patch

def mergeMembers (members : Members) : Members → Members
  | [] => members
  | (name, null) :: rest => mergeMembers (eraseMember name members) rest
  | (name, change) :: rest =>
    mergeMembers (putMember name (mergePatch ((members.lookup name).getD null) change) members) rest

end

end Submarine.Json
