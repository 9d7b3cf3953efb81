import Mathlib.Data.List.Nodup
import Submarine.Json.Record

namespace Submarine.Json

variable {α β : Type}

def present (members : List (String × Option Json)) : Members :=
  members.filterMap fun m ↦ m.2.map fun j ↦ (m.1, j)

theorem record_eq_object (members : List (String × Option Json)) :
    record members = object (present members) := rfl

theorem names_present_sublist (members : List (String × Option Json)) :
    ((present members).map (·.1)).Sublist (members.map (·.1)) := by
  induction members with
  | nil => exact .slnil
  | cons m rest ih =>
    obtain ⟨name, j⟩ := m
    cases j with
    | none => exact ih.cons _
    | some j => exact ih.cons_cons _

theorem lookup_eq_none_of_not_mem {members : Members} {name : String}
    (h : name ∉ members.map (·.1)) : members.lookup name = none := by
  rw [List.lookup_eq_none_iff]
  intro m hm
  exact bne_iff_ne.2 fun heq ↦ h (List.mem_map.2 ⟨m, hm, heq.symm⟩)

/-- What is found under a name is what was to be written there. -/
theorem lookup_present {members : List (String × Option Json)} (h : (members.map (·.1)).Nodup)
    (name : String) : (present members).lookup name = (members.lookup name).join := by
  induction members with
  | nil => rfl
  | cons m rest ih =>
    obtain ⟨first, j⟩ := m
    obtain ⟨hfirst, hrest⟩ := List.nodup_cons.1 h
    have hskip : (present rest).lookup first = none :=
      lookup_eq_none_of_not_mem fun hmem ↦ hfirst ((names_present_sublist rest).subset hmem)
    by_cases hname : name = first
    · subst hname
      cases j with
      | none => simpa [present] using hskip
      | some j => simp [present]
    · have hne : (name == first) = false := by simpa using hname
      rw [List.lookup_cons, hne, ← ih hrest]
      cases j with
      | none => rfl
      | some j => exact (List.lookup_cons ..).trans (by rw [hne]; rfl)

theorem Reader.read?_orNull {r : Reader α} {j : Json} (h : j.isNull = false) :
    r.orNull.read? j = (r.read? j).map some := by
  cases j <;> first | rfl | contradiction

namespace Fields

@[simp] theorem read?_map (g : α → β) (x : Fields α) (m : Members) :
    (g <$> x).read? m = (x.read? m).map g := rfl

@[simp] theorem read?_seq (f : Fields (α → β)) (x : Fields α) (m : Members) :
    (f <*> x).read? m = (f.read? m).bind fun g ↦ (x.read? m).map g := rfl

variable {members : List (String × Option Json)} {name : String} {r : Reader α} {value : α}

theorem read?_member (h : (members.map (·.1)).Nodup) (missing : Option α) :
    (member name r missing).read? (present members) =
      (members.lookup name).join.elim missing r.read? :=
  congrArg (·.elim missing r.read?) (lookup_present h name)

@[simp] theorem read?_required (h : (members.map (·.1)).Nodup) :
    (required name r).read? (present members) =
      (members.lookup name).join.elim none r.read? :=
  read?_member h none

@[simp] theorem read?_withDefault (h : (members.map (·.1)).Nodup) :
    (withDefault name value r).read? (present members) =
      (members.lookup name).join.elim (some value) r.read? :=
  read?_member h (some value)

@[simp] theorem read?_optional (h : (members.map (·.1)).Nodup) :
    (optional name r).read? (present members) =
      (members.lookup name).join.elim (some none) r.orNull.read? :=
  read?_member h (some none)

end Fields

namespace Reader

theorem repeats_present {f : Fields α} {members : List (String × Option Json)}
    (h : (members.map (·.1)).Nodup) : f.repeats ((present members).map (·.1)) = false := by
  rw [Fields.repeats, List.any_eq_false]
  intro field _
  have := List.nodup_iff_count_le_one.1 (h.sublist (names_present_sublist members)) field.name
  simpa using this

@[simp] theorem read?_record {f : Fields α} {isComplete : Bool}
    {members : List (String × Option Json)} (h : (members.map (·.1)).Nodup) :
    (record f isComplete).read? (Json.record members) = f.read? (present members) := by
  simp [record, record_eq_object, repeats_present h]

theorem shadowed_of_nodup {m : Members} (h : (m.map (·.1)).Nodup) : Members.shadowed m = [] := by
  induction m with
  | nil => rfl
  | cons a rest ih =>
    obtain ⟨ha, hrest⟩ := List.nodup_cons.1 h
    rw [Members.shadowed, if_neg, ih hrest]
    simpa using ha

theorem latest_of_nodup {m : Members} (h : (m.map (·.1)).Nodup) : Members.latest m = m := by
  induction m with
  | nil => rfl
  | cons a rest ih =>
    obtain ⟨ha, hrest⟩ := List.nodup_cons.1 h
    rw [Members.latest, if_neg, ih hrest]
    simpa using ha

@[simp] theorem read?_resource {f : Fields α} {members : List (String × Option Json)}
    (h : (members.map (·.1)).Nodup) :
    (resource f).read? (Json.record members) = f.read? (present members) := by
  have hnames := h.sublist (names_present_sublist members)
  simp [resource, record_eq_object, shadowed_of_nodup hnames, latest_of_nodup hnames]

/-- Every value is read back from what is written of it, which is never null. -/
structure Recalls (r : Reader α) (write : α → Json) : Prop where
  read? : ∀ a, r.read? (write a) = some a
  isNull : ∀ a, (write a).isNull = false

theorem Recalls.read?_orNull {r : Reader α} {write : α → Json} (h : r.Recalls write) (a : α) :
    r.orNull.read? (write a) = some (some a) := by
  rw [Reader.read?_orNull (h.isNull a), h.read? a, Option.map_some]

theorem elim_orNull {r : Reader α} {write : α → Json} {o : Option α}
    (hnull : ∀ a, (write a).isNull = false) (h : ∀ a ∈ o, r.read? (write a) = some a) :
    o.elim (some none) (r.orNull.read? ∘ write) = some o := by
  cases o with
  | none => rfl
  | some a => simp [read?_orNull (hnull a), h a rfl]

@[simp] theorem Recalls.elim_orNull {r : Reader α} {write : α → Json} (h : r.Recalls write)
    (o : Option α) : o.elim (some none) (r.orNull.read? ∘ write) = some o :=
  Reader.elim_orNull h.isNull fun a _ ↦ h.read? a

@[simp] theorem string_recalls : string.Recalls .string := ⟨fun _ ↦ rfl, fun _ ↦ rfl⟩

theorem bool_recalls : bool.Recalls .bool := ⟨fun _ ↦ rfl, fun _ ↦ rfl⟩

theorem int32_recalls : int32.Recalls ofInt32 where
  read? n := by
    have hn : -2147483648 ≤ n.toInt ∧ n.toInt ≤ 2147483647 :=
      ⟨n.le_toInt, Int.le_of_lt_add_one n.toInt_lt⟩
    have hread : int32? (ofInt32 n) = some (Int32.ofInt n.toInt) := by
      simp [int32?, integerIn?, ofInt32, integer?, hn]
    rw [Int32.ofInt_toInt] at hread
    exact hread
  isNull _ := rfl

theorem int64_recalls : int64.Recalls ofInt64 where
  read? n := by
    have hn : -9223372036854775808 ≤ n.toInt ∧ n.toInt ≤ 9223372036854775807 :=
      ⟨n.le_toInt, Int.le_of_lt_add_one n.toInt_lt⟩
    have hread : int64? (ofInt64 n) = some (Int64.ofInt n.toInt) := by
      simp [int64?, integerIn?, ofInt64, integer?, hn]
    rw [Int64.ofInt_toInt] at hread
    exact hread
  isNull _ := rfl

theorem Recalls.list {r : Reader α} {write : α → Json} (h : r.Recalls write) :
    (Reader.list r).Recalls (ofList write) where
  read? l := by
    change (l.map write).mapM r.read? = some l
    induction l with
    | nil => rfl
    | cons a l ih => simp [h.read? a, ih]
  isNull _ := rfl

theorem texts_recalls : texts.Recalls ofTexts := string_recalls.list

theorem Recalls.table {r : Reader α} {write : α → Json} (h : r.Recalls write) :
    (Reader.table r).Recalls (ofTable write) where
  read? t := by
    have hentries (l : List (String × α)) :
        (l.map fun e ↦ (e.1, write e.2)).mapM (fun m ↦ (r.read? m.2).map fun v ↦ (m.1, v)) =
          some l := by
      induction l with
      | nil => rfl
      | cons e l ih => simp [h.read? e.2, ih]
    simp [Reader.table, ofTable, object?, hentries, Table.ofList_entries]
  isNull _ := rfl

theorem textTable_recalls : textTable.Recalls ofTextTable := string_recalls.table

end Reader

end Submarine.Json
