import Submarine.Proofs.Cluster.Manners
import Submarine.Proofs.Passes.Serving

namespace Submarine

variable {k : Kind} {c c' : Cluster}

/-- A key tells its parts if the namespace has no slash, whatever the name has. -/
theorem objectKey_inj {ns ns' name name' : String} (hns : '/' ∉ ns.toList)
    (hns' : '/' ∉ ns'.toList) (h : objectKey ns name = objectKey ns' name') :
    ns = ns' ∧ name = name' := by
  have hsplit {ns name : String} (hns : '/' ∉ ns.toList) :
      splitAtSlash (objectKey ns name).toList = some (ns.toList, name.toList) :=
    splitAtSlash_eq_some_iff.2 ⟨by simp [objectKey], hns⟩
  have he := (hsplit hns).symm.trans ((congrArg (splitAtSlash ·.toList) h).trans (hsplit hns'))
  obtain ⟨he, he'⟩ := Prod.mk.inj (Option.some.inj he)
  exact ⟨String.toList_inj.1 he, String.toList_inj.1 he'⟩

theorem Object.cacheKey_of_place {o : Object k} {p : Place} (h : o.place = .ok p) :
    o.cacheKey = p.key := by
  obtain ⟨hname, hns⟩ := Object.place_eq_ok_iff.1 h
  rw [Object.cacheKey, hname, hns]
  rfl

namespace Cluster

structure Placed (c : Cluster) : Prop where
  stamped : c.Stamped
  place : ∀ {k : Kind} {p : Place} {o : Object k}, c.find? k p = some o → o.place = .ok p

inductive Tidy (c c' : Cluster) : Prop where
  | unchanged (same : Unchanged c c')
  | stores {k : Kind} (p : Place) (o : Object k) (place : o.place = .ok p)
      (stores : Stores c p o c')
  | removes {k : Kind} (p : Place) (o : Object k) (removes : Removes c p o c')

theorem Tidy.effect (h : Tidy c c') : Effect c c' := by
  cases h with
  | unchanged same => exact .unchanged same
  | stores p o _ stores => exact .stores p o stores
  | removes p o removes => exact .removes p o removes

theorem Placed.empty : Placed empty where
  stamped := .empty
  place h := by simp [find?, Cluster.empty] at h

theorem Placed.tidy (hc : Placed c) (h : Tidy c c') : Placed c' where
  stamped := hc.stamped.effect h.effect
  place {k p o} hfind := by
    cases h with
    | unchanged same => exact hc.place (same.find? k p ▸ hfind)
    | stores q o' place stores =>
      rcases stores.find?_cases hfind with hold | ⟨rfl, ⟨⟩⟩
      · exact hc.place hold
      · exact (Object.place_congr rfl rfl).trans place
    | removes q o' removes => exact hc.place (removes.find?_of_some hfind)

def Operation.KeepsNames (c : Cluster) : Operation → Prop
  | .modify k p edit => ∀ old after, c.find? k p = some old → edit old = some after →
      after.metadata.name = old.metadata.name ∧ after.metadata.ns = old.metadata.ns
  | .get _ _ | .create _ _ | .update _ _ | .updateStatus _ _ | .insert _ _ | .remove _ _
  | .failNext _ _ _ | .clearCalls => True

namespace Tidy

theorem create (c : Cluster) (o : Object k) : Tidy c (c.create o).2 := by
  rcases create_spec (Prod.eta (c.create o)) with ⟨p, uid, hplace, -, hstores, -⟩ | ⟨hsame, -⟩
  · refine .stores p _ ?_ hstores
    exact (Object.place_congr rfl rfl).trans hplace
  · exact .unchanged hsame

theorem update (c : Cluster) (o : Object k) : Tidy c (c.update o).2 := by
  rcases write_spec (Prod.eta (c.update o)) with
    ⟨p, stored, merged, hplace, -, -, hmerged, hstores, -⟩ | ⟨hsame, -⟩
  · obtain ⟨generation, -, rfl⟩ := Option.map_eq_some_iff.1 hmerged
    refine .stores p _ ?_ hstores
    exact (Object.place_congr rfl rfl).trans hplace
  · exact .unchanged hsame

theorem updateStatus (hc : Placed c) (o : Object k) : Tidy c (c.updateStatus o).2 := by
  have hwrite : c.write .updateStatus (fun stored incoming ↦ some (withStatus stored incoming)) o =
      ((c.updateStatus o).1, (c.updateStatus o).2) := rfl
  rcases write_spec hwrite with ⟨p, stored, merged, -, hfind, -, hmerged, hstores, -⟩ | ⟨hsame, -⟩
  · obtain rfl := Option.some.inj hmerged
    have hkept : (withStatus stored o).place = stored.place := rfl
    exact .stores p _ (hkept.trans (hc.place hfind)) hstores
  · exact .unchanged hsame

theorem insert (c : Cluster) (o : Object k) : Tidy c (((c.insert? o).map Prod.snd).getD c) := by
  rcases hinsert : c.insert? o with _ | ⟨stored, c'⟩
  · exact .unchanged (.refl c)
  · obtain ⟨p, uid, hplace, -, hstores⟩ := insert?_spec hinsert
    refine .stores p _ ?_ hstores
    exact (Object.place_congr rfl rfl).trans hplace

theorem modify {p : Place} {edit : Object k → Option (Object k)} (hc : Placed c)
    (h : Operation.KeepsNames c (.modify k p edit)) : Tidy c (c.modify p edit).2 := by
  rcases modify_spec (Prod.eta (c.modify p edit)) with
    ⟨stored, after, o, hfind, hafter, ho, hstores⟩ | hsame
  · obtain ⟨hname, hns⟩ := h stored after hfind hafter
    have hedited : o.place = after.place := by
      unfold edited? at ho
      split at ho
      · obtain rfl := Option.some.inj ho
        rfl
      · obtain ⟨generation, -, rfl⟩ := Option.map_eq_some_iff.1 ho
        exact Object.place_congr rfl rfl
    refine .stores p o ?_ hstores
    rw [hedited, Object.place_congr hname hns, hc.place hfind]
  · exact .unchanged hsame

theorem remove (c : Cluster) (k : Kind) (p : Place) :
    Tidy c (((c.remove? k p).map Prod.snd).getD c) := by
  rcases h : c.remove? k p with _ | ⟨removed, c'⟩
  · exact .unchanged (.refl c)
  · rcases remove?_spec h with ⟨o, hremoves⟩ | hsame
    · exact .removes p o hremoves
    · exact .unchanged hsame

theorem perform {op : Operation} (hc : Placed c) (h : op.KeepsNames c) :
    Tidy c (c.perform op) := by
  cases op with
  | get k p => exact .unchanged (get_spec (Prod.eta _)).1
  | create k o => exact create c o
  | update k o => exact update c o
  | updateStatus k o => exact updateStatus hc o
  | insert k o => exact insert c o
  | modify k p edit => exact modify hc h
  | remove k p => exact remove c k p
  | failNext | clearCalls => exact .unchanged ⟨rfl, rfl, rfl⟩

theorem serve {w : World} (hc : Placed w.cluster) (r : Request) :
    Tidy w.cluster (w.serve r).2.cluster := by
  cases r with
  | create k o => exact create w.cluster o
  | update k o => exact update w.cluster o
  | updateStatus k o => exact updateStatus hc o
  | cachedRoot | get | publish | now => exact .unchanged (w.unchanged_serve_of_not_write rfl)

end Tidy

end Cluster

end Submarine
