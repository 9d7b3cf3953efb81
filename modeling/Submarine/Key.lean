namespace Submarine

def objectKey (ns name : String) : String := ns ++ "/" ++ name

def splitAtSlash : List Char → Option (List Char × List Char)
  | [] => none
  | c :: rest =>
    if c = '/' then some ([], rest) else (splitAtSlash rest).map fun p ↦ (c :: p.1, p.2)

def splitKey? (key : String) : Option (String × String) :=
  match splitAtSlash key.toList with
  | some (ns, name) =>
    if ns.isEmpty ∨ name.isEmpty ∨ '/' ∈ name then none
    else some (String.ofList ns, String.ofList name)
  | none => none

theorem splitAtSlash_eq_some_iff {cs ns name : List Char} :
    splitAtSlash cs = some (ns, name) ↔ cs = ns ++ '/' :: name ∧ '/' ∉ ns := by
  induction cs generalizing ns with
  | nil => simp [splitAtSlash]
  | cons c rest ih =>
    rw [splitAtSlash]
    split
    · next hc =>
      subst hc
      cases ns with
      | nil => simp
      | cons d ds => simp; rintro rfl; simp
    · next hc =>
      cases ns with
      | nil => simp [hc]
      | cons d ds =>
        rw [Option.map_eq_some_iff]
        refine ⟨?_, ?_⟩
        · rintro ⟨⟨a, b⟩, hab, he⟩
          obtain ⟨⟨rfl, rfl⟩, rfl⟩ := by simpa using he
          obtain ⟨rfl, ha⟩ := ih.1 hab
          exact ⟨rfl, by simpa [ha] using fun h ↦ hc h.symm⟩
        · rintro ⟨he, ha⟩
          obtain ⟨rfl, rfl⟩ := by simpa using he
          exact ⟨(ds, name), ih.2 ⟨rfl, fun h ↦ ha (List.mem_cons_of_mem _ h)⟩, rfl⟩

theorem splitKey?_eq_some_iff {key ns name : String} :
    splitKey? key = some (ns, name) ↔
      ns ≠ "" ∧ name ≠ "" ∧ '/' ∉ ns.toList ∧ '/' ∉ name.toList ∧ key = objectKey ns name := by
  have hkey : key = objectKey ns name ↔ key.toList = ns.toList ++ '/' :: name.toList := by
    rw [← String.toList_inj]; simp [objectKey]
  have hns : ns ≠ "" ↔ ns.toList ≠ [] := by simp
  have hname : name ≠ "" ↔ name.toList ≠ [] := by simp
  rw [hkey, hns, hname, splitKey?]
  cases h : splitAtSlash key.toList with
  | none =>
    refine ⟨fun h' ↦ by simp at h', fun ⟨_, _, hslash, _, he⟩ ↦ ?_⟩
    rw [splitAtSlash_eq_some_iff.2 ⟨he, hslash⟩] at h
    contradiction
  | some p =>
    obtain ⟨a, b⟩ := p
    obtain ⟨he, ha⟩ := splitAtSlash_eq_some_iff.1 h
    simp only [List.isEmpty_iff]
    split
    · next hbad =>
      refine ⟨fun h' ↦ by simp at h', fun ⟨hn, hm, hslash, hslash', he'⟩ ↦ ?_⟩
      have h' := splitAtSlash_eq_some_iff.2 ⟨he', hslash⟩
      rw [h] at h'
      obtain ⟨rfl, rfl⟩ := Prod.mk.inj (Option.some.inj h')
      rcases hbad with hbad | hbad | hbad <;> contradiction
    · next hgood =>
      simp only [not_or] at hgood
      constructor
      · intro h'
        obtain ⟨rfl, rfl⟩ := Prod.mk.inj (Option.some.inj h')
        simpa using ⟨hgood.1, hgood.2.1, ha, hgood.2.2, he⟩
      · rintro ⟨_, _, hslash, _, he'⟩
        have h' := splitAtSlash_eq_some_iff.2 ⟨he', hslash⟩
        rw [h] at h'
        obtain ⟨rfl, rfl⟩ := Prod.mk.inj (Option.some.inj h')
        simp

end Submarine
