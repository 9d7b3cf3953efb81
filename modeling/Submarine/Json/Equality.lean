import Submarine.Json.Basic

namespace Submarine.Json

mutual

def isSame : Json → Json → Bool
  | null, null | void, void => true
  | bool a, bool b => a = b
  | integer a, integer b => a = b
  | decimal a, decimal b => a = b
  | string a, string b => a = b
  | array items, array others => areSameItems items others
  | object members, object others => areSameMembers members others
  | _, _ => false

def areSameItems : List Json → List Json → Bool
  | [], [] => true
  | a :: rest, b :: others => isSame a b && areSameItems rest others
  | _, _ => false

def areSameMembers : Members → Members → Bool
  | [], [] => true
  | (name, a) :: rest, (other, b) :: others =>
    name = other && isSame a b && areSameMembers rest others
  | _, _ => false

end

mutual

theorem isSame_self : (j : Json) → isSame j j = true
  | null | void => rfl
  | bool _ | integer _ | decimal _ | string _ => by simp [isSame]
  | array items => areSameItems_self items
  | object members => areSameMembers_self members

theorem areSameItems_self : (items : List Json) → areSameItems items items = true
  | [] => rfl
  | j :: rest => by simp [areSameItems, isSame_self j, areSameItems_self rest]

theorem areSameMembers_self : (members : Members) → areSameMembers members members = true
  | [] => rfl
  | (_, j) :: rest => by simp [areSameMembers, isSame_self j, areSameMembers_self rest]

end

mutual

theorem eq_of_isSame : (a b : Json) → isSame a b = true → a = b
  | null, null, _ | void, void, _ => rfl
  | bool _, bool _, h | integer _, integer _, h | decimal _, decimal _, h
  | string _, string _, h => congrArg _ (of_decide_eq_true h)
  | array items, array others, h => congrArg _ (eq_of_areSameItems items others h)
  | object members, object others, h => congrArg _ (eq_of_areSameMembers members others h)

theorem eq_of_areSameItems : (items others : List Json) → areSameItems items others = true →
    items = others
  | [], [], _ => rfl
  | a :: rest, b :: others, h => by
    simp only [areSameItems, Bool.and_eq_true] at h
    rw [eq_of_isSame a b h.1, eq_of_areSameItems rest others h.2]

theorem eq_of_areSameMembers : (members others : Members) →
    areSameMembers members others = true → members = others
  | [], [], _ => rfl
  | (name, a) :: rest, (other, b) :: others, h => by
    simp only [areSameMembers, Bool.and_eq_true, decide_eq_true_eq] at h
    rw [h.1.1, eq_of_isSame a b h.1.2, eq_of_areSameMembers rest others h.2]

end

instance : DecidableEq Json := fun a b ↦
  decidable_of_iff (isSame a b = true) ⟨eq_of_isSame a b, fun h ↦ h ▸ isSame_self a⟩

end Submarine.Json
