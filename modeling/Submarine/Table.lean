namespace Submarine

/-- Keys are listed by their path, which is compared text by text. -/
class Keyed (κ : Type) where
  path : κ → List String
  path_injective : ∀ {a b : κ}, path a = path b → a = b

instance : Keyed String where
  path s := [s]
  path_injective h := (List.cons.inj h).1

namespace Table

variable {κ ν : Type} [Keyed κ]

abbrev Precedes (a b : κ × ν) : Prop := Keyed.path a.1 < Keyed.path b.1

/-- Replaces the entry of the key, or puts the new one before the first entry after it. -/
def insertEntry [DecidableEq κ] (k : κ) (v : ν) : List (κ × ν) → List (κ × ν)
  | [] => [(k, v)]
  | e :: rest =>
    if k = e.1 then (k, v) :: rest
    else if Keyed.path k < Keyed.path e.1 then (k, v) :: e :: rest
    else e :: insertEntry k v rest

def find [DecidableEq κ] (k : κ) : List (κ × ν) → Option ν
  | [] => none
  | e :: rest => if k = e.1 then some e.2 else find k rest

theorem mem_insertEntry [DecidableEq κ] {k : κ} {v : ν} {e : κ × ν} {l : List (κ × ν)}
    (h : e ∈ insertEntry k v l) : e = (k, v) ∨ e ∈ l := by
  induction l with
  | nil => simpa [insertEntry] using h
  | cons d rest ih =>
    rw [insertEntry] at h
    split at h
    · rcases List.mem_cons.1 h with h | h <;> simp [h]
    · split at h
      · rcases List.mem_cons.1 h with h | h <;> simp [h]
      · rcases List.mem_cons.1 h with h | h
        · simp [h]
        · rcases ih h with h | h <;> simp [h]

theorem path_lt_of_not_lt {a b : κ} (hne : a ≠ b) (h : ¬ Keyed.path a < Keyed.path b) :
    Keyed.path b < Keyed.path a := by
  rcases List.le_iff_lt_or_eq.1 (List.not_lt.1 h) with h | h
  · exact h
  · exact absurd (Keyed.path_injective h.symm) hne

theorem insertEntry_pairwise [DecidableEq κ] {k : κ} {v : ν} {l : List (κ × ν)}
    (h : l.Pairwise Precedes) : (insertEntry k v l).Pairwise Precedes := by
  induction l with
  | nil => simp [insertEntry]
  | cons e rest ih =>
    obtain ⟨he, hrest⟩ := List.pairwise_cons.1 h
    rw [insertEntry]
    split
    · next hk =>
      exact List.pairwise_cons.2 ⟨fun a ha ↦ by simpa [Precedes, hk] using he a ha, hrest⟩
    · next hk =>
      split
      · next hlt =>
        refine List.pairwise_cons.2 ⟨fun a ha ↦ ?_, h⟩
        rcases List.mem_cons.1 ha with rfl | ha
        · exact hlt
        · exact List.lt_trans hlt (he a ha)
      · next hlt =>
        refine List.pairwise_cons.2 ⟨fun a ha ↦ ?_, ih hrest⟩
        rcases mem_insertEntry ha with rfl | ha
        · exact path_lt_of_not_lt hk hlt
        · exact he a ha

theorem find_insertEntry [DecidableEq κ] (k j : κ) (v : ν) (l : List (κ × ν)) :
    find j (insertEntry k v l) = if j = k then some v else find j l := by
  induction l with
  | nil => simp [insertEntry, find]
  | cons e rest ih =>
    rw [insertEntry]
    split
    · next hk => subst hk; simp only [find]; split <;> rfl
    · split
      · simp [find]
      · next hk _ =>
        simp only [find, ih]
        by_cases hj : j = e.1
        · rw [if_pos hj, if_neg (fun h ↦ hk (h.symm.trans hj)), if_pos hj]
        · simp [hj]

omit [Keyed κ] in
theorem find_filter [DecidableEq κ] (p : κ → Bool) (k : κ) (l : List (κ × ν)) :
    find k (l.filter fun e ↦ p e.1) = if p k then find k l else none := by
  induction l with
  | nil => simp [find]
  | cons e rest ih =>
    by_cases hk : k = e.1
    · subst hk; by_cases hp : p e.1 <;> simp [hp, find, ih]
    · by_cases hp : p e.1 <;> simp [hp, find, ih, hk]

theorem find_eq_some_iff [DecidableEq κ] {k : κ} {v : ν} {l : List (κ × ν)}
    (h : l.Pairwise Precedes) : find k l = some v ↔ (k, v) ∈ l := by
  induction l with
  | nil => simp [find]
  | cons e rest ih =>
    obtain ⟨he, hrest⟩ := List.pairwise_cons.1 h
    rw [find]
    split
    · next hk =>
      subst hk
      refine ⟨fun hv ↦ ?_, fun hv ↦ ?_⟩
      · obtain rfl := Option.some.inj hv; exact List.mem_cons_self
      · rcases List.mem_cons.1 hv with hv | hv
        · rw [← hv]
        · exact absurd (he _ hv) (List.lt_irrefl _)
    · next hk =>
      rw [ih hrest]
      exact ⟨List.mem_cons_of_mem _, fun hv ↦ (List.mem_cons.1 hv).resolve_left fun hv ↦
        hk (by rw [← hv])⟩

theorem eq_of_find_eq [DecidableEq κ] {l m : List (κ × ν)} (hl : l.Pairwise Precedes)
    (hm : m.Pairwise Precedes) (h : ∀ k, find k l = find k m) : l = m := by
  have hmem (e : κ × ν) : e ∈ l ↔ e ∈ m := by
    rw [← find_eq_some_iff (k := e.1) (v := e.2) hl, ← find_eq_some_iff hm, h]
  induction l generalizing m with
  | nil =>
    cases m with
    | nil => rfl
    | cons e rest => exact absurd ((hmem e).2 List.mem_cons_self) (by simp)
  | cons e rest ih =>
    cases m with
    | nil => exact absurd ((hmem e).1 List.mem_cons_self) (by simp)
    | cons d tail =>
      obtain ⟨he, hrest⟩ := List.pairwise_cons.1 hl
      obtain ⟨hd, htail⟩ := List.pairwise_cons.1 hm
      have hed : e = d := by
        rcases List.mem_cons.1 ((hmem e).1 List.mem_cons_self) with h₁ | h₁
        · exact h₁
        · rcases List.mem_cons.1 ((hmem d).2 List.mem_cons_self) with h₂ | h₂
          · exact h₂.symm
          · exact absurd (he d h₂) (List.lt_asymm (hd e h₁))
      subst hed
      have hsub (a : κ × ν) : a ∈ rest ↔ a ∈ tail := by
        have := hmem a
        simp only [List.mem_cons] at this
        refine ⟨fun ha ↦ (this.1 (.inr ha)).resolve_left ?_,
          fun ha ↦ (this.2 (.inr ha)).resolve_left ?_⟩
        · rintro rfl; exact List.lt_irrefl _ (he a ha)
        · rintro rfl; exact List.lt_irrefl _ (hd a ha)
      have hfind (k : κ) : find k rest = find k tail := by
        refine Option.ext fun v ↦ ?_
        rw [find_eq_some_iff hrest, find_eq_some_iff htail, hsub]
      rw [ih hrest htail hfind hsub]

end Table

/-- Finitely many entries in key order, at most one for a key. -/
structure Table (κ ν : Type) [Keyed κ] where
  entries : List (κ × ν)
  sorted : entries.Pairwise Table.Precedes

namespace Table

variable {κ ν μ : Type} [Keyed κ]

instance [DecidableEq κ] [DecidableEq ν] : DecidableEq (Table κ ν) := fun t u ↦
  if h : t.entries = u.entries then isTrue (by cases t; cases u; simp_all)
  else isFalse fun e ↦ h (e ▸ rfl)

def empty : Table κ ν := ⟨[], List.Pairwise.nil⟩

instance : Inhabited (Table κ ν) := ⟨empty⟩

instance : EmptyCollection (Table κ ν) := ⟨empty⟩

def keys (t : Table κ ν) : List κ := t.entries.map (·.1)

def values (t : Table κ ν) : List ν := t.entries.map (·.2)

def size (t : Table κ ν) : Nat := t.entries.length

def filterKeys (p : κ → Bool) (t : Table κ ν) : Table κ ν :=
  ⟨t.entries.filter fun e ↦ p e.1, t.sorted.sublist List.filter_sublist⟩

variable [DecidableEq κ]

def get? (t : Table κ ν) (k : κ) : Option ν := find k t.entries

def contains (t : Table κ ν) (k : κ) : Bool := (t.get? k).isSome

def insert (t : Table κ ν) (k : κ) (v : ν) : Table κ ν :=
  ⟨insertEntry k v t.entries, insertEntry_pairwise t.sorted⟩

def erase (t : Table κ ν) (k : κ) : Table κ ν := t.filterKeys (· != k)

/-- A later entry of a key replaces an earlier one. -/
def ofList (l : List (κ × ν)) : Table κ ν := l.foldl (fun t e ↦ t.insert e.1 e.2) empty

@[simp] theorem get?_empty (k : κ) : (∅ : Table κ ν).get? k = none := rfl

theorem get?_insert (t : Table κ ν) (k j : κ) (v : ν) :
    (t.insert k v).get? j = if j = k then some v else t.get? j :=
  find_insertEntry k j v t.entries

@[simp] theorem get?_insert_self (t : Table κ ν) (k : κ) (v : ν) :
    (t.insert k v).get? k = some v := by simp [get?_insert]

theorem get?_filterKeys (t : Table κ ν) (p : κ → Bool) (k : κ) :
    (t.filterKeys p).get? k = if p k then t.get? k else none :=
  find_filter p k t.entries

theorem get?_erase (t : Table κ ν) (k j : κ) :
    (t.erase k).get? j = if j = k then none else t.get? j := by
  rw [erase, get?_filterKeys]
  by_cases h : j = k <;> simp [h]

@[simp] theorem get?_erase_self (t : Table κ ν) (k : κ) : (t.erase k).get? k = none := by
  simp [get?_erase]

theorem mem_entries_iff {t : Table κ ν} {k : κ} {v : ν} :
    (k, v) ∈ t.entries ↔ t.get? k = some v :=
  (find_eq_some_iff t.sorted).symm

theorem ext_get? {t u : Table κ ν} (h : ∀ k, t.get? k = u.get? k) : t = u := by
  obtain ⟨l, hl⟩ := t
  obtain ⟨m, hm⟩ := u
  obtain rfl := eq_of_find_eq hl hm h
  rfl

theorem get?_foldl_insert {l : List (κ × ν)} (h : l.Pairwise Precedes) (t : Table κ ν) (k : κ) :
    (l.foldl (fun t e ↦ t.insert e.1 e.2) t).get? k = (find k l).or (t.get? k) := by
  induction l generalizing t with
  | nil => rfl
  | cons e rest ih =>
    obtain ⟨he, hrest⟩ := List.pairwise_cons.1 h
    rw [List.foldl_cons, ih hrest, get?_insert, find]
    split
    · next hk =>
      have hnone : find k rest = none := by
        refine Option.eq_none_iff_forall_ne_some.2 fun v hv ↦ ?_
        have := he _ ((find_eq_some_iff hrest).1 hv)
        rw [Precedes, hk] at this
        exact List.lt_irrefl _ this
      rw [hnone]
      rfl
    · rfl

theorem ofList_entries (t : Table κ ν) : ofList t.entries = t :=
  ext_get? fun k ↦ (get?_foldl_insert t.sorted empty k).trans (Option.or_none ..)

end Table

end Submarine
