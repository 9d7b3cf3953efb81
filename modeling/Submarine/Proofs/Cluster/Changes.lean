import Submarine.Proofs.Cluster.Naming

namespace Submarine

variable {k : Kind} {c c' : Cluster}

theorem Place.eq_of_key_eq {p q : Place} (hp : '/' ∉ p.ns.toList) (hq : '/' ∉ q.ns.toList)
    (h : p.key = q.key) : p = q := by
  rcases p with ⟨ns, name⟩
  rcases q with ⟨ns', name'⟩
  obtain ⟨rfl, rfl⟩ := objectKey_inj hp hq h
  rfl

namespace Cluster

inductive Differs (c c' : Cluster) : List Change → Prop where
  | nothing (objects : c'.objects = c.objects) : Differs c c' []
  | stored {k : Kind} {p : Place} {o : Object k} (before : c.find? k p ≠ some o)
      (after : c'.find? k p = some o)
      (others : ∀ j q, ¬ (j = k ∧ q = p) → c'.find? j q = c.find? j q) :
      Differs c c' [⟨⟨k, o⟩, false⟩]
  | removed {k : Kind} {p : Place} {o : Object k} (before : c.find? k p = some o)
      (after : c'.find? k p = none)
      (others : ∀ j q, ¬ (j = k ∧ q = p) → c'.find? j q = c.find? j q) :
      Differs c c' [⟨⟨k, o⟩, true⟩]

/-- The changes that the operations make one after another. -/
inductive Makes : Cluster → List Operation → List Change → Prop where
  | nil (c : Cluster) : Makes c [] []
  | cons {c : Cluster} {op : Operation} {ops : List Operation} {made later : List Change}
      (first : Differs c (c.perform op) made) (rest : Makes (c.perform op) ops later) :
      Makes c (op :: ops) (made ++ later)

/-- What an effect changes is logged. A stored object bears a new version, so it is another than
the one that was there. -/
theorem Effect.exists_differs (hc : Stamped c) (h : Effect c c') :
    ∃ made, Differs c c' made ∧ c'.log = c.log ++ made := by
  cases h with
  | unchanged same => exact ⟨[], .nothing same.objects, by rw [same.log, List.append_nil]⟩
  | @stores k p o stores =>
    refine ⟨_, .stored (fun hbefore ↦ ?_) stores.find?_self stores.find?_of_ne, stores.log⟩
    obtain ⟨n, hn, hversion⟩ := hc.bears hbefore
    have := hversion.unique (.withVersion o (c.version + 1))
    omega
  | removes p o removes =>
    exact ⟨_, .removed removes.find?_old removes.find?_self removes.find?_of_ne, removes.log⟩

theorem exists_makes (hc : Stamped c) (ops : List Operation) :
    ∃ changes, Makes c ops changes ∧ (c.performAll ops).log = c.log ++ changes := by
  induction ops generalizing c with
  | nil => exact ⟨[], .nil c, (List.append_nil _).symm⟩
  | cons op rest ih =>
    have heffect : Effect c (c.perform op) := .perform c op
    obtain ⟨made, hdiffers, hlog⟩ := heffect.exists_differs hc
    obtain ⟨later, hlater, hlog'⟩ := ih (hc.effect heffect)
    refine ⟨made ++ later, .cons hdiffers hlater, ?_⟩
    rw [← List.append_assoc, ← hlog, ← hlog']
    rfl

/-- The operation renames nothing, and brings no namespace that has a slash. -/
structure Operation.IsOrderly (c : Cluster) (op : Operation) : Prop where
  keepsNames : op.KeepsNames c
  slashFree : match op with
    | .create _ o | .insert _ o => ∀ ns, o.metadata.ns = some ns → '/' ∉ ns.toList
    | _ => True

inductive Orderly : Cluster → Prop where
  | empty : Orderly empty
  | perform {c : Cluster} {op : Operation} (h : Orderly c) (hop : op.IsOrderly c) :
      Orderly (c.perform op)

structure IsSlashFree (c : Cluster) : Prop where
  ns : ∀ {k : Kind} {p : Place} {o : Object k}, c.find? k p = some o → '/' ∉ p.ns.toList

namespace IsSlashFree

theorem unchanged (h : IsSlashFree c) (hsame : Unchanged c c') : IsSlashFree c' where
  ns {k p _} hfind := h.ns (hsame.find? k p ▸ hfind)

theorem stores {q : Place} {o : Object k} (h : IsSlashFree c) (hq : '/' ∉ q.ns.toList)
    (hstores : Stores c q o c') : IsSlashFree c' where
  ns {j p o'} hfind := by
    by_cases hself : j = k ∧ p = q
    · exact hself.2 ▸ hq
    · exact h.ns (hstores.find?_of_ne j p hself ▸ hfind)

theorem removes {q : Place} {o : Object k} (h : IsSlashFree c) (hremoves : Removes c q o c') :
    IsSlashFree c' where
  ns {j p o'} hfind := by
    by_cases hself : j = k ∧ p = q
    · obtain ⟨rfl, rfl⟩ := hself
      exact h.ns hremoves.find?_old
    · exact h.ns (hremoves.find?_of_ne j p hself ▸ hfind)

theorem write {verb : Verb} {merge? : Object k → Object k → Option (Object k)} {o : Object k}
    (h : IsSlashFree c) : IsSlashFree (c.write verb merge? o).2 := by
  rcases write_spec (Prod.eta (c.write verb merge? o)) with
    ⟨p, stored, merged, -, hfind, -, -, hstores, -⟩ | ⟨hsame, -⟩
  · exact h.stores (h.ns hfind) hstores
  · exact h.unchanged hsame

theorem perform {op : Operation} (h : IsSlashFree c) (hop : op.IsOrderly c) :
    IsSlashFree (c.perform op) := by
  have hbrought := hop.slashFree
  cases op with
  | get k p => exact h.unchanged (get_spec (Prod.eta _)).1
  | create k o =>
    rcases create_spec (Prod.eta (c.create o)) with ⟨p, uid, hplace, -, hstores, -⟩ | ⟨hsame, -⟩
    · exact h.stores (hbrought _ (Object.place_eq_ok_iff.1 hplace).2) hstores
    · exact h.unchanged hsame
  | update k o | updateStatus k o => exact h.write
  | insert k o =>
    rcases hinsert : c.insert? o with _ | ⟨stored, c'⟩
    · rw [Cluster.perform, hinsert]
      exact h
    · obtain ⟨p, uid, hplace, -, hstores⟩ := insert?_spec hinsert
      rw [Cluster.perform, hinsert]
      exact h.stores (hbrought _ (Object.place_eq_ok_iff.1 hplace).2) hstores
  | modify k p edit =>
    rcases modify_spec (Prod.eta (c.modify p edit)) with ⟨_, _, o, hfind, -, -, hstores⟩ | hsame
    · exact h.stores (h.ns hfind) hstores
    · exact h.unchanged hsame
  | remove k p =>
    rcases hremove : c.remove? k p with _ | ⟨removed, c'⟩
    · rw [Cluster.perform, hremove]
      exact h
    · rw [Cluster.perform, hremove]
      rcases remove?_spec hremove with ⟨o, hremoves⟩ | hsame
      · exact h.removes hremoves
      · exact h.unchanged hsame
  | failNext | clearCalls => exact h.unchanged ⟨rfl, rfl, rfl⟩

end IsSlashFree

namespace Orderly

theorem placed (h : Orderly c) : Placed c := by
  induction h with
  | empty => exact .empty
  | perform _ hop ih => exact ih.tidy (.perform ih hop.keepsNames)

theorem isSlashFree (h : Orderly c) : IsSlashFree c := by
  induction h with
  | empty => exact ⟨fun hfind ↦ by simp [find?, Cluster.empty] at hfind⟩
  | perform _ hop ih => exact ih.perform hop

end Orderly

end Cluster

end Submarine
