import Submarine.Cluster.Edit

namespace Submarine

namespace Object

variable {k : Kind} {o o' : Object k}

def born (o : Object k) (uid : String) : Object k :=
  { o with metadata := { o.metadata with uid := some uid, generation := some 1 } }

theorem place_congr (hname : o'.metadata.name = o.metadata.name)
    (hns : o'.metadata.ns = o.metadata.ns) : o'.place = o.place := by
  rw [place, place, hname, hns]

theorem place_eq_ok_iff {p : Place} :
    o.place = .ok p ↔ o.metadata.name = some p.name ∧ o.metadata.ns = some p.ns := by
  constructor
  · intro h
    unfold place at h
    split at h
    · contradiction
    · contradiction
    · next name ns hname hns =>
      obtain rfl := Except.ok.inj h
      exact ⟨hname, hns⟩
  · rintro ⟨hname, hns⟩
    rw [place, hname, hns]

end Object

namespace Cluster

variable {k : Kind} {c c' : Cluster}

structure Unchanged (c c' : Cluster) : Prop where
  objects : c'.objects = c.objects
  version : c'.version = c.version
  log : c'.log = c.log

/-- The object is stored in that place under the next version. -/
structure Stores (c : Cluster) (p : Place) (o : Object k) (c' : Cluster) : Prop where
  find?_self : c'.find? k p = some (o.withVersion (c.version + 1))
  find?_of_ne : ∀ j q, ¬ (j = k ∧ q = p) → c'.find? j q = c.find? j q
  version : c'.version = c.version + 1
  log : c'.log = c.log ++ [⟨⟨k, o.withVersion (c.version + 1)⟩, false⟩]

structure Removes (c : Cluster) (p : Place) (o : Object k) (c' : Cluster) : Prop where
  find?_old : c.find? k p = some o
  find?_self : c'.find? k p = none
  find?_of_ne : ∀ j q, ¬ (j = k ∧ q = p) → c'.find? j q = c.find? j q
  version : c'.version = c.version
  log : c'.log = c.log ++ [⟨⟨k, o⟩, true⟩]

inductive Effect (c c' : Cluster) : Prop where
  | unchanged (h : Unchanged c c')
  | stores {k : Kind} (p : Place) (o : Object k) (h : Stores c p o c')
  | removes {k : Kind} (p : Place) (o : Object k) (h : Removes c p o c')

namespace Unchanged

theorem refl (c : Cluster) : Unchanged c c := ⟨rfl, rfl, rfl⟩

theorem trans {c'' : Cluster} (h : Unchanged c c') (h' : Unchanged c' c'') : Unchanged c c'' :=
  ⟨h'.objects.trans h.objects, h'.version.trans h.version, h'.log.trans h.log⟩

theorem find? (h : Unchanged c c') (k : Kind) (p : Place) : c'.find? k p = c.find? k p := by
  rw [Cluster.find?, h.objects, Cluster.find?]

end Unchanged

theorem stores_commit (h : Unchanged c c') (p : Place) (o : Object k) :
    (c'.commit p o).1 = o.withVersion (c.version + 1) ∧ Stores c p o (c'.commit p o).2 := by
  have hversion : c'.version = c.version := h.version
  refine ⟨by rw [commit, hversion], ?_, fun j q hne ↦ ?_, ?_, ?_⟩
  · rw [find?_commit_self, if_pos rfl, hversion]
  · by_cases hj : j = k
    · subst hj
      rw [find?_commit_self, if_neg fun hq ↦ hne ⟨rfl, hq⟩, h.find?]
    · rw [find?_commit_of_ne _ _ _ _ hj, h.find?]
  · rw [← hversion]; rfl
  · rw [← hversion, ← h.log]; rfl

theorem Stores.eq_of_find?_ne {p : Place} {o : Object k} {j : Kind} {q : Place}
    (h : Stores c p o c') (hne : c'.find? j q ≠ c.find? j q) : j = k ∧ q = p :=
  Decidable.byContradiction fun hother ↦ hne (h.find?_of_ne j q hother)

/-- What is there afterwards was there before, or is what was stored. -/
theorem Stores.find?_cases {j : Kind} {p q : Place} {o : Object k} {o' : Object j}
    (h : Stores c q o' c') (hfind : c'.find? k p = some o) :
    c.find? k p = some o ∨ p = q ∧ AnyObject.mk k o = ⟨j, o'.withVersion (c.version + 1)⟩ := by
  by_cases hself : k = j ∧ p = q
  · obtain ⟨rfl, rfl⟩ := hself
    obtain rfl := Option.some.inj (h.find?_self.symm.trans hfind)
    exact .inr ⟨rfl, rfl⟩
  · exact .inl (h.find?_of_ne k p hself ▸ hfind)

theorem Removes.find?_of_some {j : Kind} {p q : Place} {o : Object k} {removed : Object j}
    (h : Removes c q removed c') (hfind : c'.find? k p = some o) : c.find? k p = some o := by
  by_cases hself : k = j ∧ p = q
  · obtain ⟨rfl, rfl⟩ := hself
    rw [h.find?_self] at hfind
    contradiction
  · exact h.find?_of_ne k p hself ▸ hfind

theorem note_spec {verb : Verb} {p : Place} {failure : Option ApiError}
    (h : c.note verb k p = (failure, c')) :
    Unchanged c c' ∧ c'.isBroken = c.isBroken ∧
      ∀ e, failure = some e → ∀ what, e ≠ .notFound what := by
  simp only [note] at h
  split at h
  · next outage _ _ =>
    obtain ⟨rfl, rfl⟩ := Prod.mk.inj h
    refine ⟨⟨rfl, rfl, rfl⟩, rfl, fun e he what ↦ ?_⟩
    obtain rfl := Option.some.inj he
    cases outage <;> simp [Outage.error]
  · obtain ⟨rfl, rfl⟩ := Prod.mk.inj h
    exact ⟨⟨rfl, rfl, rfl⟩, rfl, by simp⟩

section Calls

variable {o : Object k} {p : Place} {reply : Reply k}

theorem get_spec (h : c.get k p = (reply, c')) :
    Unchanged c c' ∧
      (∀ live, reply = some (.ok live) → c.find? k p = some live ∧ c'.isBroken = false) ∧
      ∀ what, reply = some (.error (.notFound what)) → c.find? k p = none := by
  unfold get at h
  split at h
  · obtain ⟨rfl, rfl⟩ := Prod.mk.inj h
    exact ⟨.refl c, by simp, by simp⟩
  · next hwhole =>
    rcases hn : c.note .get k p with ⟨_ | e, c₁⟩ <;> rw [hn] at h <;>
      obtain ⟨hnote, hbroken, hfailure⟩ := note_spec hn
    · have hfind := hnote.find? k p
      dsimp only at h
      rcases hc : c₁.find? k p with _ | live <;> rw [hc] at h hfind <;>
        obtain ⟨rfl, rfl⟩ := Prod.mk.inj h
      · exact ⟨hnote, by simp, fun _ _ ↦ hfind.symm⟩
      · refine ⟨hnote, fun live' he ↦ ⟨?_, ?_⟩, by simp⟩
        · rw [← hfind]
          simpa using he
        · rw [hbroken]
          simpa using hwhole
    · obtain ⟨rfl, rfl⟩ := Prod.mk.inj h
      refine ⟨hnote, by simp, fun what he ↦ ?_⟩
      exact absurd (by simpa using he) (hfailure e rfl what)

/-- An object is created where there was none, or nothing is. -/
theorem create_spec (h : c.create o = (reply, c')) :
    (∃ p uid, o.place = .ok p ∧ c.find? k p = none ∧ Stores c p (o.born uid) c' ∧
        reply = some (.ok ((o.born uid).withVersion (c.version + 1))) ∧ c'.isBroken = false) ∨
      Unchanged c c' ∧ ∀ stored, reply ≠ some (.ok stored) := by
  unfold create at h
  split at h
  · obtain ⟨rfl, rfl⟩ := Prod.mk.inj h
    exact .inr ⟨.refl c, by simp⟩
  · next p hp =>
    split at h
    · obtain ⟨rfl, rfl⟩ := Prod.mk.inj h
      exact .inr ⟨.refl c, by simp⟩
    · next hwhole =>
      rcases hn : c.note .create k p with ⟨_ | e, c₁⟩ <;> rw [hn] at h <;>
        obtain ⟨hnote, hbroken, -⟩ := note_spec hn
      · dsimp only at h
        split at h
        · obtain ⟨rfl, rfl⟩ := Prod.mk.inj h
          exact .inr ⟨hnote, by simp⟩
        · next hfree =>
          have hnone : c.find? k p = none := by
            rw [← hnote.find?]
            simpa using hfree
          have hgiven : Unchanged c c₁.giveUid.2 := hnote.trans ⟨rfl, rfl, rfl⟩
          obtain ⟨hstored, hstores⟩ := stores_commit hgiven p (o.born c₁.nextUid)
          obtain ⟨rfl, rfl⟩ := Prod.mk.inj h
          refine .inl ⟨p, c₁.nextUid, hp, hnone, hstores, ?_, hbroken.trans (by simpa using hwhole)⟩
          exact congrArg (fun o ↦ some (Except.ok o)) hstored
      · obtain ⟨rfl, rfl⟩ := Prod.mk.inj h
        exact .inr ⟨hnote, by simp⟩

/-- A write replaces an object that has the version that was written against, or nothing. -/
theorem write_spec {verb : Verb} {merge? : Object k → Object k → Option (Object k)}
    (h : c.write verb merge? o = (reply, c')) :
    (∃ p stored merged, o.place = .ok p ∧ c.find? k p = some stored ∧ versionAgrees o stored ∧
        merge? stored o = some merged ∧ Stores c p merged c' ∧
        reply = some (.ok (merged.withVersion (c.version + 1))) ∧ c'.isBroken = false) ∨
      Unchanged c c' ∧ ∀ stored, reply ≠ some (.ok stored) := by
  unfold write at h
  split at h
  · obtain ⟨rfl, rfl⟩ := Prod.mk.inj h
    exact .inr ⟨.refl c, by simp⟩
  · next p hp =>
    split at h
    · obtain ⟨rfl, rfl⟩ := Prod.mk.inj h
      exact .inr ⟨.refl c, by simp⟩
    · next hwhole =>
      rcases hn : c.note verb k p with ⟨_ | e, c₁⟩ <;> rw [hn] at h <;>
        obtain ⟨hnote, hbroken, -⟩ := note_spec hn
      · have hfind := hnote.find? k p
        dsimp only at h
        split at h
        · obtain ⟨rfl, rfl⟩ := Prod.mk.inj h
          exact .inr ⟨hnote, by simp⟩
        · next stored hstored =>
          split at h
          · next hagrees =>
            split at h
            · obtain ⟨rfl, rfl⟩ := Prod.mk.inj h
              exact .inr ⟨hnote.trans ⟨rfl, rfl, rfl⟩, by simp⟩
            · next merged hmerged =>
              obtain ⟨hcommitted, hstores⟩ := stores_commit hnote p merged
              obtain ⟨rfl, rfl⟩ := Prod.mk.inj h
              refine .inl ⟨p, stored, merged, hp, hfind ▸ hstored, hagrees, hmerged, hstores, ?_,
                hbroken.trans (by simpa using hwhole)⟩
              exact congrArg (fun o ↦ some (Except.ok o)) hcommitted
          · obtain ⟨rfl, rfl⟩ := Prod.mk.inj h
            exact .inr ⟨hnote, by simp⟩
      · obtain ⟨rfl, rfl⟩ := Prod.mk.inj h
        exact .inr ⟨hnote, by simp⟩

end Calls

section Edits

variable {o : Object k} {p : Place}

theorem insert?_spec {stored : Object k} (h : c.insert? o = some (stored, c')) :
    ∃ p uid, o.place = .ok p ∧ uid = o.metadata.uid.getD c.nextUid ∧
      Stores c p { o with metadata := { o.metadata with uid := some uid } } c' := by
  unfold insert? at h
  split at h
  · exact absurd h (by simp)
  · next p hp =>
    split at h
    · exact absurd h (by simp)
    · split at h
      · next uid huid =>
        obtain ⟨rfl, rfl⟩ := Prod.mk.inj (Option.some.inj h)
        have hsame : { o with metadata := { o.metadata with uid := some uid } } = o := by
          rw [← huid]
        exact ⟨p, uid, hp, by simp [huid], hsame ▸ (stores_commit (.refl c) p o).2⟩
      · next huid =>
        obtain ⟨rfl, rfl⟩ := Prod.mk.inj (Option.some.inj h)
        have hgiven : Unchanged c c.giveUid.2 := ⟨rfl, rfl, rfl⟩
        exact ⟨p, c.nextUid, hp, by simp [huid], (stores_commit hgiven p _).2⟩

theorem modify_spec {edit : Object k → Option (Object k)} {reply : Except EditFault (Object k)}
    (h : c.modify p edit = (reply, c')) :
    (∃ stored after o, c.find? k p = some stored ∧ edit stored = some after ∧
        edited? stored after = some o ∧ Stores c p o c') ∨ Unchanged c c' := by
  unfold modify at h
  split at h
  · obtain ⟨-, rfl⟩ := Prod.mk.inj h
    exact .inr (.refl c)
  · split at h
    · obtain ⟨-, rfl⟩ := Prod.mk.inj h
      exact .inr ⟨rfl, rfl, rfl⟩
    · next stored hstored =>
      split at h
      · obtain ⟨-, rfl⟩ := Prod.mk.inj h
        exact .inr (.refl c)
      · next after hafter =>
        split at h
        · obtain ⟨-, rfl⟩ := Prod.mk.inj h
          exact .inr ⟨rfl, rfl, rfl⟩
        · next o ho =>
          obtain ⟨-, rfl⟩ := Prod.mk.inj h
          exact .inl ⟨stored, after, o, hstored, hafter, ho, (stores_commit (.refl c) p o).2⟩

/-- An edit that succeeds stores what it made, and stands in the way of nothing. -/
theorem modify_ok {edit : Object k → Option (Object k)} (h : c.modify p edit = (.ok o, c')) :
    c'.find? k p = some o ∧ (∃ o' : Object k, Stores c p o' c') ∧ c'.isBroken = c.isBroken := by
  unfold modify at h
  split at h
  · simp at h
  · split at h
    · simp at h
    · split at h
      · simp at h
      · split at h
        · simp at h
        · next o' _ =>
          obtain ⟨ho, rfl⟩ := Prod.mk.inj h
          obtain ⟨hcommitted, hstores⟩ := stores_commit (.refl c) p o'
          obtain rfl := (Except.ok.inj ho).symm.trans hcommitted
          exact ⟨hstores.find?_self, ⟨o', hstores⟩, rfl⟩

theorem removes_erase (hfind : c.find? k p = some o) :
    Removes c p o
      { c.withObjects k ((c.objects k).erase p) with log := c.log ++ [⟨⟨k, o⟩, true⟩] } := by
  refine ⟨hfind, ?_, fun j q hne ↦ ?_, rfl, rfl⟩
  · change ((c.withObjects k ((c.objects k).erase p)).objects k).get? p = none
    rw [objects_withObjects_self, Table.get?_erase, if_pos rfl]
  · change ((c.withObjects k ((c.objects k).erase p)).objects j).get? q = c.find? j q
    by_cases hj : j = k
    · subst hj
      rw [objects_withObjects_self, Table.get?_erase, if_neg fun hq ↦ hne ⟨rfl, hq⟩]
      rfl
    · rw [objects_withObjects_of_ne _ _ hj]
      rfl

theorem remove?_spec {removed : Option (Object k)} (h : c.remove? k p = some (removed, c')) :
    (∃ o : Object k, Removes c p o c') ∨ Unchanged c c' := by
  unfold remove? at h
  split at h
  · exact absurd h (by simp)
  · split at h
    · obtain ⟨-, rfl⟩ := Prod.mk.inj (Option.some.inj h)
      exact .inr (.refl c)
    · next o ho =>
      obtain ⟨-, rfl⟩ := Prod.mk.inj (Option.some.inj h)
      exact .inl ⟨o, removes_erase ho⟩

end Edits

end Cluster

end Submarine
