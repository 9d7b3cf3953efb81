import Submarine.Controller.Watchers
import Submarine.Owner
import Submarine.Proofs.Cluster.Versions

namespace Submarine

variable {k : Kind}

namespace Place

/-- Namespace and name make a key that splits into them again. -/
structure IsKeyed (p : Place) : Prop where
  ns_ne : p.ns ≠ ""
  name_ne : p.name ≠ ""
  ns_slash : '/' ∉ p.ns.toList
  name_slash : '/' ∉ p.name.toList

def key (p : Place) : String := objectKey p.ns p.name

theorem IsKeyed.splitKey? {p : Place} (h : p.IsKeyed) : splitKey? p.key = some (p.ns, p.name) :=
  splitKey?_eq_some_iff.2 ⟨h.ns_ne, h.name_ne, h.ns_slash, h.name_slash, rfl⟩

theorem IsKeyed.key_injective {p q : Place} (hp : p.IsKeyed) (hq : q.IsKeyed)
    (h : p.key = q.key) : p = q := by
  have hsplit := hp.splitKey?
  rw [h, hq.splitKey?] at hsplit
  obtain ⟨hns, hname⟩ := Prod.mk.inj (Option.some.inj hsplit)
  cases p
  cases q
  simp_all

end Place

namespace Object

structure Named (o : Object k) (p : Place) : Prop where
  name : o.metadata.name = some p.name
  ns : o.metadata.ns = some p.ns
  uid : o.metadata.uid.isSome
  isKeyed : p.IsKeyed

namespace Named

variable {o o' : Object k} {p : Place}

theorem of_place (hplace : o.place = .ok p) (huid : o.metadata.uid.isSome) (hp : p.IsKeyed) :
    o.Named p :=
  ⟨(place_eq_ok_iff.1 hplace).1, (place_eq_ok_iff.1 hplace).2, huid, hp⟩

theorem congr (h : o.Named p) (hname : o'.metadata.name = o.metadata.name)
    (hns : o'.metadata.ns = o.metadata.ns) (huid : o'.metadata.uid.isSome) : o'.Named p :=
  ⟨hname.trans h.name, hns.trans h.ns, huid, h.isKeyed⟩

theorem unique {q : Place} (hp : o.Named p) (hq : o.Named q) : p = q := by
  rcases p with ⟨ns, name⟩
  rcases q with ⟨ns', name'⟩
  obtain rfl : name = name' := Option.some.inj (hp.name.symm.trans hq.name)
  obtain rfl : ns = ns' := Option.some.inj (hp.ns.symm.trans hq.ns)
  rfl

theorem cacheKey (h : o.Named p) : o.cacheKey = p.key := by
  rw [Object.cacheKey, h.name, h.ns]
  rfl

theorem rootKey {root : Root} (h : root.Named p) : Router.rootKey root = p.key := by
  rw [Router.rootKey, h.name, h.ns]
  rfl

end Named

structure IsChildOf (o : Object k) (root : Root) : Prop where
  controlled : o.isControlledBy root
  ns : o.metadata.ns = root.metadata.ns

def KeepsController (old new : Object k) : Prop :=
  ∀ link, old.controller? = some link → new.controller? = some link

theorem KeepsController.isControlledBy {old new : Object k} (h : old.KeepsController new)
    {root : Root} (hold : old.isControlledBy root) : new.isControlledBy root := by
  unfold Object.isControlledBy at hold ⊢
  cases hlink : old.controller? with
  | none =>
    rw [hlink] at hold
    contradiction
  | some link => rwa [h link hlink, ← hlink]

end Object

namespace Cluster

variable {c c' : Cluster}

structure Proper (c : Cluster) : Prop where
  stamped : c.Stamped
  named : ∀ {k : Kind} {p : Place} {o : Object k}, c.find? k p = some o → o.Named p

/-- A change that leaves every object its name, and every child its controller. -/
inductive Gentle (c c' : Cluster) : Prop where
  | unchanged (same : Unchanged c c')
  | stores {k : Kind} (p : Place) (o : Object k) (named : o.Named p)
      (keeps : k ∈ childKinds → ∀ old, c.find? k p = some old → old.KeepsController o)
      (stores : Stores c p o c')
  | removes {k : Kind} (p : Place) (o : Object k) (removes : Removes c p o c')

theorem Gentle.effect (h : Gentle c c') : Effect c c' := by
  cases h with
  | unchanged same => exact .unchanged same
  | stores p o _ _ stores => exact .stores p o stores
  | removes p o removes => exact .removes p o removes

theorem Proper.empty : Proper empty where
  stamped := .empty
  named h := by simp [find?, Cluster.empty] at h

theorem Proper.gentle (hc : Proper c) (h : Gentle c c') : Proper c' where
  stamped := hc.stamped.effect h.effect
  named {k p o} hfind := by
    cases h with
    | unchanged same => exact hc.named (same.find? k p ▸ hfind)
    | stores q o' named _ stores =>
      rcases stores.find?_cases hfind with hold | ⟨rfl, ⟨⟩⟩
      · exact hc.named hold
      · exact named.congr rfl rfl named.uid
    | removes q o' removes => exact hc.named (removes.find?_of_some hfind)

/-- What others may do. Names have to make keys, no object is renamed or loses its uid, and a child
that has a controller keeps it. -/
def Operation.Polite (c : Cluster) : Operation → Prop
  | .create _ o => ∀ p, o.place = .ok p → p.IsKeyed
  | .update k o => k ∈ childKinds → ∀ p, o.place = .ok p → ∀ old, c.find? k p = some old →
      old.KeepsController o
  | .insert k o => ∀ p, o.place = .ok p → p.IsKeyed ∧
      (k ∈ childKinds → ∀ old, c.find? k p = some old → old.KeepsController o)
  | .modify k p edit => ∀ old after, c.find? k p = some old → edit old = some after →
      after.metadata.name = old.metadata.name ∧ after.metadata.ns = old.metadata.ns ∧
        after.metadata.uid.isSome ∧ (k ∈ childKinds → old.KeepsController after)
  | .get _ _ | .updateStatus _ _ | .remove _ _ | .failNext _ _ _ | .clearCalls => True

namespace Gentle

theorem create {o : Object k} (h : Operation.Polite c (.create k o)) :
    Gentle c (c.create o).2 := by
  rcases create_spec (Prod.eta (c.create o)) with
    ⟨p, uid, hplace, hfree, hstores, -⟩ | ⟨hsame, -⟩
  · have hnamed : (o.born uid).Named p := by
      refine .of_place ?_ rfl (h p hplace)
      rw [← hplace]
      exact Object.place_congr rfl rfl
    refine .stores p _ hnamed (fun _ old hold ↦ ?_) hstores
    rw [hfree] at hold
    contradiction
  · exact .unchanged hsame

theorem update {o : Object k} (hc : Proper c) (h : Operation.Polite c (.update k o)) :
    Gentle c (c.update o).2 := by
  rcases write_spec (Prod.eta (c.update o)) with
    ⟨p, stored, merged, hplace, hfind, -, hmerged, hstores, -⟩ | ⟨hsame, -⟩
  · have hstored := hc.named hfind
    obtain ⟨generation, -, rfl⟩ := Option.map_eq_some_iff.1 hmerged
    obtain ⟨hname, hns⟩ := Object.place_eq_ok_iff.1 hplace
    refine .stores p _ ?_ ?_ hstores
    · exact ⟨hname, hns, hstored.uid, hstored.isKeyed⟩
    · exact (h · p hplace)
  · exact .unchanged hsame

theorem updateStatus (hc : Proper c) (o : Object k) : Gentle c (c.updateStatus o).2 := by
  have hwrite : c.write .updateStatus (fun stored incoming ↦ some (withStatus stored incoming)) o =
      ((c.updateStatus o).1, (c.updateStatus o).2) := rfl
  rcases write_spec hwrite with
    ⟨p, stored, merged, -, hfind, -, hmerged, hstores, -⟩ | ⟨hsame, -⟩
  · obtain rfl := Option.some.inj hmerged
    have hstored := hc.named hfind
    refine .stores p _ ?_ ?_ hstores
    · exact hstored.congr rfl rfl hstored.uid
    · intro _ old hold link hlink
      obtain rfl := Option.some.inj (hfind.symm.trans hold)
      exact hlink
  · exact .unchanged hsame

theorem insert {o : Object k} (h : Operation.Polite c (.insert k o)) :
    Gentle c (((c.insert? o).map Prod.snd).getD c) := by
  rcases hinsert : c.insert? o with _ | ⟨stored, c'⟩
  · exact .unchanged (.refl c)
  · obtain ⟨p, uid, hplace, -, hstores⟩ := insert?_spec hinsert
    obtain ⟨hp, hkeeps⟩ := h p hplace
    obtain ⟨hname, hns⟩ := Object.place_eq_ok_iff.1 hplace
    refine .stores p _ ?_ ?_ hstores
    · exact ⟨hname, hns, rfl, hp⟩
    · exact hkeeps

theorem modify {p : Place} {edit : Object k → Option (Object k)} (hc : Proper c)
    (h : Operation.Polite c (.modify k p edit)) : Gentle c (c.modify p edit).2 := by
  rcases modify_spec (Prod.eta (c.modify p edit)) with
    ⟨stored, after, o, hfind, hafter, ho, hstores⟩ | hsame
  · obtain ⟨hname, hns, huid, hkeeps⟩ := h stored after hfind hafter
    have hmetadata : ∃ generation, o.metadata = { after.metadata with generation } := by
      unfold edited? at ho
      split at ho
      · obtain rfl := Option.some.inj ho
        exact ⟨after.metadata.generation, rfl⟩
      · obtain ⟨generation, -, rfl⟩ := Option.map_eq_some_iff.1 ho
        exact ⟨some generation, rfl⟩
    obtain ⟨generation, hmetadata⟩ := hmetadata
    refine .stores p o ((hc.named hfind).congr ?_ ?_ ?_) (fun hk old hold link hlink ↦ ?_) hstores
    · rw [hmetadata, hname]
    · rw [hmetadata, hns]
    · rw [hmetadata]
      exact huid
    · obtain rfl := Option.some.inj (hfind.symm.trans hold)
      rw [Object.controller?, hmetadata]
      exact hkeeps hk link hlink
  · exact .unchanged hsame

theorem remove (c : Cluster) (k : Kind) (p : Place) :
    Gentle c (((c.remove? k p).map Prod.snd).getD c) := by
  rcases h : c.remove? k p with _ | ⟨removed, c'⟩
  · exact .unchanged (.refl c)
  · rcases remove?_spec h with ⟨o, hremoves⟩ | hsame
    · exact .removes p o hremoves
    · exact .unchanged hsame

theorem perform {op : Operation} (hc : Proper c) (h : op.Polite c) : Gentle c (c.perform op) := by
  cases op with
  | get k p => exact .unchanged (get_spec (Prod.eta _)).1
  | create k o => exact create h
  | update k o => exact update hc h
  | updateStatus k o => exact updateStatus hc o
  | insert k o => exact insert h
  | modify k p edit => exact modify hc h
  | remove k p => exact remove c k p
  | failNext | clearCalls => exact .unchanged ⟨rfl, rfl, rfl⟩

end Gentle

end Cluster

end Submarine
