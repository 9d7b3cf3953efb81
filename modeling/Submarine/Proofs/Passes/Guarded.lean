import Submarine.Proofs.Manifest.Children
import Submarine.Proofs.Passes.Discipline
import Submarine.Proofs.Passes.Serving

namespace Submarine

open Cluster (Effect Stamped Stores Unchanged)

variable {k : Kind} {α : Type} {w w' : World} {c c' : Cluster} {root : Root}
  {children : List AnyChild} {seen : Option Sight}

inductive Written (root : Root) (children : List AnyChild) (seen : Option Sight)
    (c c' : Cluster) : Prop where
  | nothing (same : Unchanged c c')
  | created {k : Kind} (child : Child k) (ns : String) (o : Object k)
      (declared : ⟨k, child⟩ ∈ children) (home : root.metadata.ns = some ns)
      (free : c.find? k ⟨ns, child.name⟩ = none) (place : o.place = .ok ⟨ns, child.name⟩)
      (controlled : o.isControlledBy root) (known : o.metadata.uid.isSome)
      (stores : Stores c ⟨ns, child.name⟩ o c')
  | updated {k : Kind} (child : Child k) (ns : String) (live o : Object k)
      (declared : ⟨k, child⟩ ∈ children) (home : root.metadata.ns = some ns)
      (sight : seen = some ⟨k, ⟨ns, child.name⟩, live⟩)
      (there : c.find? k ⟨ns, child.name⟩ = some live) (controlled : live.isControlledBy root)
      (metadata : ∃ generation, o.metadata = { live.metadata with generation })
      (stores : Stores c ⟨ns, child.name⟩ o c')
  | reported (p : Place) (live o : Root) (place : root.place = .ok p)
      (there : c.find? .submarine p = some live)
      (version : root.metadata.resourceVersion = none ∨
        live.metadata.resourceVersion = root.metadata.resourceVersion)
      (metadata : o.metadata = live.metadata) (stores : Stores c p o c')

/-- Where a disciplined pass stands in a cluster. -/
structure Pass.Guarded (root : Root) (children : List AnyChild) (seen : Option Sight) (p : Pass α)
    (c : Cluster) : Prop where
  disciplined : p.Obeys (discipline root children) (fun _ _ ↦ True) seen
  remembers : ∀ sight, seen = some sight → c.Remembers sight.place sight.object

theorem remembers_sightAfter {r : Request} {answer : r.Answer} (hw : Stamped w.cluster)
    (hseen : ∀ sight, seen = some sight → w.cluster.Remembers sight.place sight.object)
    (hserve : w.serve r = (some answer, w')) {sight : Sight}
    (hsight : sightAfter seen r answer = some sight) :
    w'.cluster.Remembers sight.place sight.object := by
  have heffect : Effect w.cluster w'.cluster := by
    have h := w.effect_serve r
    rwa [hserve] at h
  cases r with
  | get k ns name =>
    rcases (answer : Except ApiError (Object k)) with e | live
    · simp [sightAfter] at hsight
    · obtain rfl := Option.some.inj hsight
      have hfind := ((Cluster.get_spec (World.get_of_serve hserve)).2.1 live rfl).1
      exact (Cluster.Remembers.of_find? hw hfind).effect heffect
  | _ => exact (hseen sight hsight).effect heffect

namespace Pass.Guarded

theorem effect {p : Pass α} (h : p.Guarded root children seen c) (he : Effect c c') :
    p.Guarded root children seen c' where
  disciplined := h.disciplined
  remembers sight hseen := (h.remembers sight hseen).effect he

theorem next {r : Request} {next : r.Answer → Pass α} {answer : r.Answer} (hw : Stamped w.cluster)
    (h : (Pass.ask r next).Guarded root children seen w.cluster)
    (hserve : w.serve r = (some answer, w')) :
    (next answer).Guarded root children (sightAfter seen r answer) w'.cluster where
  disciplined := h.disciplined.2 answer
  remembers _ hsight := remembers_sightAfter hw h.remembers hserve hsight

section Writes

variable {o : Object k} {reply : Reply k} {next : Except ApiError (Object k) → Pass α}

theorem create_cases (h : (Pass.ask (.create k o) next).Guarded root children seen w.cluster)
    (hserve : w.serve (.create k o) = (reply, w')) :
    (∃ (child : Child k) (ns : String) (born : Object k), ⟨k, child⟩ ∈ children ∧
        root.metadata.ns = some ns ∧ w.cluster.find? k ⟨ns, child.name⟩ = none ∧
        born.place = .ok ⟨ns, child.name⟩ ∧ o.place = .ok ⟨ns, child.name⟩ ∧
        born.isControlledBy root ∧ born.metadata.uid.isSome ∧
        Stores w.cluster ⟨ns, child.name⟩ born w'.cluster) ∨
      Unchanged w.cluster w'.cluster ∧ ∀ stored, reply ≠ some (.ok stored) := by
  obtain ⟨child, ns, hmem, hns, hnewborn⟩ := h.disciplined.1
  obtain ⟨hplace, hcontrolled, -⟩ := Child.newborn_spec hnewborn
  rcases Cluster.create_spec (World.create_of_serve hserve) with
    ⟨p, uid, hp, hfree, hstores, -⟩ | hnone
  · obtain rfl := Except.ok.inj (hp.symm.trans hplace)
    refine .inl ⟨child, ns, o.born uid, hmem, hns, hfree, ?_, hplace, ?_, rfl, hstores⟩
    · rw [← hplace]
      exact Object.place_congr rfl rfl
    · exact (Object.isControlledBy_congr rfl rfl rfl).trans hcontrolled
  · exact .inr hnone

theorem update_cases (h : (Pass.ask (.update k o) next).Guarded root children seen w.cluster)
    (hserve : w.serve (.update k o) = (reply, w')) :
    (∃ (child : Child k) (ns : String) (live merged : Object k), ⟨k, child⟩ ∈ children ∧
        root.metadata.ns = some ns ∧ seen = some ⟨k, ⟨ns, child.name⟩, live⟩ ∧
        w.cluster.find? k ⟨ns, child.name⟩ = some live ∧ live.isControlledBy root ∧
        o.place = .ok ⟨ns, child.name⟩ ∧
        (∃ generation, merged.metadata = { live.metadata with generation }) ∧
        Stores w.cluster ⟨ns, child.name⟩ merged w'.cluster) ∨
      Unchanged w.cluster w'.cluster ∧ ∀ stored, reply ≠ some (.ok stored) := by
  obtain ⟨child, ns, live, hmem, hns, hseen, hcontrolled, rfl⟩ := h.disciplined.1
  rcases Cluster.write_spec (World.update_of_serve hserve) with
    ⟨p, stored, merged, hp, hfind, hagrees, hmerged, hstores, -⟩ | hnone
  · -- The version written against is that of the object read, so the stored one is the one read.
    obtain ⟨rfl, rfl⟩ := (h.remembers _ hseen).eq_of_versionAgrees hfind rfl hagrees
    obtain ⟨generation, -, rfl⟩ := Option.map_eq_some_iff.1 hmerged
    refine .inl ⟨child, ns, stored, _, hmem, hns, hseen, hfind, hcontrolled, hp, ?_, hstores⟩
    exact ⟨some generation, rfl⟩
  · exact .inr hnone

theorem report_cases (h : (Pass.ask (.updateStatus k o) next).Guarded root children seen w.cluster)
    (hserve : w.serve (.updateStatus k o) = (reply, w')) :
    k = .submarine ∧ o.metadata = root.metadata ∧
      ((∃ (p : Place) (live merged : Object k), o.place = .ok p ∧ w.cluster.find? k p = some live ∧
          (root.metadata.resourceVersion = none ∨
            live.metadata.resourceVersion = root.metadata.resourceVersion) ∧
          merged.metadata = live.metadata ∧ Stores w.cluster p merged w'.cluster) ∨
        Unchanged w.cluster w'.cluster ∧ ∀ stored, reply ≠ some (.ok stored)) := by
  obtain ⟨status, heq⟩ := h.disciplined.1
  obtain ⟨rfl, ho⟩ := AnyObject.mk.inj heq
  obtain rfl := eq_of_heq ho
  refine ⟨rfl, rfl, ?_⟩
  rcases Cluster.write_spec (World.updateStatus_of_serve hserve) with
    ⟨p, live, merged, hp, hfind, hagrees, hmerged, hstores, -⟩ | hnone
  · obtain rfl := Option.some.inj hmerged
    have hkept : (Cluster.withStatus live (root.withStatus status)).metadata = live.metadata := rfl
    refine .inl ⟨p, live, _, hp, hfind, ?_, hkept, hstores⟩
    simp only [Cluster.versionAgrees, Bool.or_eq_true, decide_eq_true_eq] at hagrees
    rcases hagrees with hnone | hsame
    · exact .inl (Option.isNone_iff_eq_none.1 hnone)
    · exact .inr hsame.symm
  · exact .inr hnone

end Writes

theorem written {p : Pass α} (h : p.Guarded root children seen w.cluster) :
    Written root children seen w.cluster (w.step p).2.cluster := by
  cases p with
  | done | fail => exact .nothing (.refl _)
  | ask r next =>
    rw [World.step_ask]
    cases r with
    | create k o =>
      rcases h.create_cases (Prod.eta (w.serve (.create k o))) with
        ⟨child, ns, born, hmem, hns, hfree, hplace, -, hcontrolled, huid, hstores⟩ | ⟨hsame, -⟩
      · exact .created child ns born hmem hns hfree hplace hcontrolled huid hstores
      · exact .nothing hsame
    | update k o =>
      rcases h.update_cases (Prod.eta (w.serve (.update k o))) with
        ⟨child, ns, live, merged, hmem, hns, hseen, hfind, hown, -, hmeta, hstores⟩ | ⟨hsame, -⟩
      · exact .updated child ns live merged hmem hns hseen hfind hown hmeta hstores
      · exact .nothing hsame
    | updateStatus k o =>
      obtain ⟨rfl, hmetadata, hcases⟩ := h.report_cases (Prod.eta (w.serve (.updateStatus k o)))
      rcases hcases with ⟨p, live, merged, hp, hfind, hversion, hmeta, hstores⟩ | ⟨hsame, -⟩
      · refine .reported p live merged ?_ hfind hversion hmeta hstores
        rw [← hp, Object.place, Object.place, hmetadata]
      · exact .nothing hsame
    | cachedRoot | get | publish | now => exact .nothing (w.unchanged_serve_of_not_write rfl)

end Pass.Guarded

end Submarine
