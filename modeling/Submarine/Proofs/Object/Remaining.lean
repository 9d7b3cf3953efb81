import Submarine.Object.Remainder
import Submarine.Proofs.Json.Records

namespace Submarine

open Json

theorem Verbatim.recalls : Verbatim.reader.Recalls json where
  read? v := by
    obtain ⟨json, isPresent, isSound, isSorted⟩ := v
    have hkept : json.sorted.isNull = false ∧ json.sorted.isSound maxDepth = true ∧
        json.sorted.sorted = json.sorted := by
      simp only [isSorted]
      exact ⟨isPresent, isSound, trivial⟩
    refine (dif_pos hkept).trans (congrArg some ?_)
    simp only [isSorted]
  isNull := isPresent

namespace Remainder

variable {names : List String}

@[simp] theorem names_members (r : Remainder names) : r.members.map (·.1) = names := by
  induction r with
  | nil => rfl
  | cons value rest ih => exact congrArg (_ :: ·) ih

theorem lookup_members_of_not_mem (r : Remainder names) {name : String} (h : name ∉ names) :
    r.members.lookup name = .none := by
  rw [List.lookup_eq_none_iff]
  intro m hm
  refine bne_iff_ne.2 fun hname ↦ h ?_
  rw [← r.names_members, hname]
  exact List.mem_map_of_mem hm

/-- Members that are kept are read back, whatever stands before them. -/
theorem read?_fields (r : Remainder names) {first members : List (String × Option Json)}
    (h : members = first ++ r.members) (hnodup : (members.map (·.1)).Nodup) :
    (fields names).read? (present members) = some r := by
  induction r generalizing first with
  | nil => rfl
  | @cons name names value rest ih =>
    have hmembers : members = (first ++ [(name, value.map Verbatim.json)]) ++ rest.members := by
      rw [h, List.append_assoc]
      rfl
    have hfirst : first.lookup name = .none := by
      rw [List.lookup_eq_none_iff]
      intro m hm
      rw [h, List.map_append] at hnodup
      refine bne_iff_ne.2 fun hname ↦ (List.nodup_append.1 hnodup).2.2 m.1
        (List.mem_map_of_mem hm) name ?_ hname.symm
      simp
    have hlookup : members.lookup name = some (value.map Verbatim.json) := by
      rw [h, List.lookup_append, hfirst, Option.none_or]
      exact List.lookup_cons_self
    have hvalue : (Fields.optional name Verbatim.reader).read? (present members) = some value := by
      rw [Fields.read?_optional hnodup, hlookup]
      simp [Option.elim_map, Verbatim.recalls]
    rw [fields, Fields.read?_seq, Fields.read?_map, hvalue, ih hmembers]
    rfl

end Remainder

end Submarine
