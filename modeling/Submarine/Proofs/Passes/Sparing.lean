import Submarine.Proofs.Passes.Guarded
import Submarine.Proofs.Passes.Repeating

namespace Submarine

open Cluster (Stamped Unchanged)

variable {k : Kind} {α : Type} {w w' : World} {c c' c'' : Cluster} {root : Root}
  {seen : Option Sight}

/-- A declared child has its place there, in the root's own namespace. -/
def Root.Claims (root : Root) (k : Kind) (p : Place) : Prop :=
  ∃ (child : Child k) (ns : String), ⟨k, child⟩ ∈ plan root ∧ root.metadata.ns = some ns ∧
    p = ⟨ns, child.name⟩

theorem Root.Claims.kind_ne {p : Place} (h : root.Claims k p) : k ≠ .submarine := by
  obtain ⟨child, _, hmem, -⟩ := h
  exact Plan.kind_ne_submarine hmem

def Root.restated (root : Root) (status : Option InstallationStatus) (version : Option String) :
    Root where
  metadata := { root.metadata with resourceVersion := version }
  content := show InstallationContent from ⟨root.spec, status⟩

/-- What may happen to a cluster on behalf of a root. -/
structure Cluster.Spares (root : Root) (c c' : Cluster) : Prop where
  keeps : ∀ k p, (c.find? k p).isSome → (c'.find? k p).isSome
  -- What is neither a declared child nor the root itself stays as it is.
  others : ∀ k p, ¬ root.Claims k p → ¬ (k = .submarine ∧ root.place = .ok p) →
    c'.find? k p = c.find? k p
  -- An object in the place of a child that the root does not control stays as it is.
  foreign : ∀ k p (o : Object k), root.Claims k p → c.find? k p = some o →
    o.isControlledBy root = false → c'.find? k p = some o
  -- Of the root itself at most status and version change.
  own : ∀ p, root.place = .ok p → ∃ status version,
    c'.find? .submarine p = (c.find? .submarine p).map (Root.restated · status version)

namespace Cluster.Spares

theorem own_of_eq {p : Place} (h : c'.find? .submarine p = c.find? .submarine p) :
    ∃ status version,
      c'.find? .submarine p = (c.find? .submarine p).map (Root.restated · status version) := by
  rw [h]
  cases hfind : c.find? .submarine p with
  | none => exact ⟨none, none, rfl⟩
  | some live => exact ⟨Root.status live, live.metadata.resourceVersion, rfl⟩

theorem of_unchanged (h : Unchanged c c') : Spares root c c' where
  keeps k p hthere := by rwa [h.find?]
  others k p _ _ := h.find? k p
  foreign k p o _ hfind _ := by rwa [h.find?]
  own p _ := own_of_eq (h.find? _ p)

theorem trans (h : Spares root c c') (h' : Spares root c' c'') : Spares root c c'' where
  keeps k p hthere := h'.keeps k p (h.keeps k p hthere)
  others k p hchild hself := (h'.others k p hchild hself).trans (h.others k p hchild hself)
  foreign k p o hchild hfind hforeign :=
    h'.foreign k p o hchild (h.foreign k p o hchild hfind hforeign) hforeign
  own p hp := by
    obtain ⟨status, version, hfirst⟩ := h.own p hp
    obtain ⟨status', version', hsecond⟩ := h'.own p hp
    refine ⟨status', version', ?_⟩
    rw [hsecond, hfirst, Option.map_map]
    rfl

/-- An object is stored in the place of a child, where there was none or one that the root
controls. -/
theorem of_child {p : Place} {o : Object k} (hchild : root.Claims k p)
    (hstores : Stores c p o c')
    (hown : ∀ live, c.find? k p = some live → live.isControlledBy root) : Spares root c c' where
  keeps j q hthere := by
    by_cases hself : j = k ∧ q = p
    · obtain ⟨rfl, rfl⟩ := hself
      rw [hstores.find?_self]
      rfl
    · rwa [hstores.find?_of_ne j q hself]
  others j q hother _ := by
    refine hstores.find?_of_ne j q fun hself ↦ hother ?_
    obtain ⟨rfl, rfl⟩ := hself
    exact hchild
  foreign j q live _ hfind hforeign := by
    rw [hstores.find?_of_ne j q, hfind]
    rintro ⟨rfl, rfl⟩
    rw [hown live hfind] at hforeign
    contradiction
  own q _ := own_of_eq (hstores.find?_of_ne _ q fun hself ↦ hchild.kind_ne hself.1.symm)

theorem of_status {p : Place} {live incoming : Root} (hplace : root.place = .ok p)
    (hfind : c.find? .submarine p = some live)
    (hstores : Stores c p (withStatus live incoming) c') : Spares root c c' where
  keeps j q hthere := by
    by_cases hself : j = .submarine ∧ q = p
    · obtain ⟨rfl, rfl⟩ := hself
      rw [hstores.find?_self]
      rfl
    · rwa [hstores.find?_of_ne j q hself]
  others j q _ hother := by
    refine hstores.find?_of_ne j q fun hself ↦ hother ⟨hself.1, ?_⟩
    rw [hplace, hself.2]
  foreign j q o hchild hold _ := by
    rw [hstores.find?_of_ne j q fun hself ↦ hchild.kind_ne hself.1, hold]
  own q hq := by
    obtain rfl := Except.ok.inj (hplace.symm.trans hq)
    rw [hstores.find?_self, hfind]
    exact ⟨Root.status incoming, some (toString (c.version + 1)), rfl⟩

end Cluster.Spares

namespace Pass.Guarded

/-- One request of a pass, however it is served. -/
theorem spares_serve {r : Request} {next : r.Answer → Pass α}
    (h : (Pass.ask r next).Guarded root (plan root) seen w.cluster) :
    Cluster.Spares root w.cluster (w.serve r).2.cluster := by
  cases r with
  | create k o =>
    rcases h.create_cases (Prod.eta (w.serve (.create k o))) with
      ⟨child, ns, born, hmem, hns, hfree, -, -, -, -, hstores⟩ | ⟨hsame, -⟩
    · refine .of_child ⟨child, ns, hmem, hns, rfl⟩ hstores fun live hlive ↦ ?_
      rw [hfree] at hlive
      contradiction
    · exact .of_unchanged hsame
  | update k o =>
    rcases h.update_cases (Prod.eta (w.serve (.update k o))) with
      ⟨child, ns, live, merged, hmem, hns, -, hfind, hcontrolled, -, -, hstores⟩ | ⟨hsame, -⟩
    · refine .of_child ⟨child, ns, hmem, hns, rfl⟩ hstores fun live' hlive' ↦ ?_
      obtain rfl := Option.some.inj (hfind.symm.trans hlive')
      exact hcontrolled
    · exact .of_unchanged hsame
  | updateStatus k o =>
    obtain ⟨status, heq⟩ := h.disciplined.1
    obtain ⟨rfl, ho⟩ := AnyObject.mk.inj heq
    obtain rfl := eq_of_heq ho
    have hserve := Prod.eta (w.serve (.updateStatus .submarine (root.withStatus status)))
    rcases Cluster.write_spec (World.updateStatus_of_serve hserve) with
      ⟨p, live, merged, hp, hfind, -, hmerged, hstores, -⟩ | ⟨hsame, -⟩
    · obtain rfl := Option.some.inj hmerged
      exact .of_status ((Object.place_congr rfl rfl).symm.trans hp) hfind hstores
    · exact .of_unchanged hsame
  | cachedRoot | get | publish | now =>
    exact .of_unchanged (w.unchanged_serve_of_not_write rfl)

theorem spares_run {p : Pass α} (hw : Stamped w.cluster)
    (h : p.Guarded root (plan root) seen w.cluster) :
    Cluster.Spares root w.cluster (w.run p).2.cluster := by
  induction p generalizing w seen with
  | done | fail => exact .of_unchanged (.refl _)
  | ask r next ih =>
    have hfirst := h.spares_serve
    have heffect := w.effect_serve r
    rw [World.run]
    rcases hserve : w.serve r with ⟨_ | answer, w₁⟩ <;> rw [hserve] at hfirst heffect
    · exact hfirst
    · exact hfirst.trans (ih answer (hw.effect heffect) (h.next hw hserve))

end Pass.Guarded

namespace World

def ActsOn (w : World) (key : String) (root : Root) : Prop :=
  ∃ ns name, splitKey? key = some (ns, name) ∧ w.roots.get? ns name = some root ∧
    root.metadata.deletionTimestamp = none ∧ root.spec.validate = .ok ()

theorem ActsOn.run_reconcile {key : String} (h : w.ActsOn key root) :
    w.run (reconcile key) = w.run (reconcileRoot root) := by
  obtain ⟨ns, name, hkey, hcached, hstays, hvalid⟩ := h
  exact Submarine.run_reconcile hkey hcached hvalid hstays

theorem run_reconcile_of_idle {key : String} (h : ∀ root, ¬ w.ActsOn key root) :
    ∃ result w', w.run (reconcile key) = (result, w') ∧ w'.cluster = w.cluster := by
  unfold reconcile
  split
  · exact ⟨_, w, rfl, rfl⟩
  · next ns name hkey =>
    have hserve : w.serve (.cachedRoot ns name) = (some (w.roots.get? ns name), w) := rfl
    cases hcached : w.roots.get? ns name with
    | none =>
      rw [hcached] at hserve
      exact ⟨_, w, run_ask_of_serve hserve, rfl⟩
    | some root =>
      rw [hcached] at hserve
      cases hstays : root.metadata.deletionTimestamp with
      | some time =>
        refine ⟨.ok (), w, (run_ask_of_serve hserve).trans ?_, rfl⟩
        dsimp only
        rw [hstays]
        rfl
      | none =>
        rcases hvalid : (Root.spec root).validate with fault | _
        · let event : Event := .invalidSpec root fault.toFailure.message
          let told : World := { w with events := w.events ++ [event] }
          refine ⟨.error fault.toFailure, told, (run_ask_of_serve hserve).trans ?_, rfl⟩
          dsimp only
          rw [hstays, hvalid]
          rfl
        · exact absurd ⟨ns, name, hkey, hcached, hstays, hvalid⟩ (h root)

/-- A pass acts on the root that is cached under its key, and spares all else. Without such a root
that is valid and stays, it leaves the cluster as it is. -/
theorem reconcile_spares (hw : w.cluster.Reachable) (key : String) :
    (∀ root, w.ActsOn key root →
      Cluster.Spares root w.cluster (w.run (reconcile key)).2.cluster) ∧
    ((∀ root, ¬ w.ActsOn key root) → (w.run (reconcile key)).2.cluster = w.cluster) := by
  refine ⟨fun root hacts ↦ ?_, fun hidle ↦ ?_⟩
  · have hguarded : (reconcileRoot root).Guarded root (plan root) none w.cluster :=
      ⟨Pass.Disciplined.reconcileRoot none, by simp⟩
    rw [hacts.run_reconcile]
    exact hguarded.spares_run (.reachable hw)
  · obtain ⟨result, w', hrun, hcluster⟩ := run_reconcile_of_idle hidle
    rw [hrun, hcluster]

def foreignDeployment (name : String) : Object .deployment where
  metadata := { name := some name, ns := some "default" }
  content := show DeploymentContent from {}

def sampleCrowded : World :=
  { sampleFirst with
    cluster := sampleFirst.cluster.performAll [
      .insert .deployment (foreignDeployment "other"),
      .insert .deployment (foreignDeployment "submarine-tensorboard")] }

/-- The pass creates the server's account, and gives up at the name that is taken. -/
theorem reconcile_spares_sample :
    (sampleCrowded.ActsOn "default/demo" (Root.sampleWithBoard.withVersion 1) ∧
      Cluster.Spares (Root.sampleWithBoard.withVersion 1) sampleCrowded.cluster
        (sampleCrowded.run (reconcile "default/demo")).2.cluster ∧
      (sampleCrowded.run (reconcile "default/demo")).1 ≠ .ok () ∧
      ((sampleCrowded.run (reconcile "default/demo")).2.cluster.find? .serviceAccount
        ⟨"default", "submarine-server"⟩).isSome ∧
      ∀ name ∈ ["other", "submarine-tensorboard"],
        (sampleCrowded.cluster.find? .deployment ⟨"default", name⟩).isSome ∧
        (sampleCrowded.run (reconcile "default/demo")).2.cluster.find? .deployment
          ⟨"default", name⟩ = sampleCrowded.cluster.find? .deployment ⟨"default", name⟩) ∧
    ((∀ root, ¬ sampleCrowded.ActsOn "demo" root) ∧
      (sampleCrowded.run (reconcile "demo")).2.cluster = sampleCrowded.cluster) := by
  have hcluster : sampleCrowded.cluster.Reachable := .performAll (.performAll .empty _) _
  have hacts : sampleCrowded.ActsOn "default/demo" (Root.sampleWithBoard.withVersion 1) :=
    ⟨"default", "demo", by decide +kernel, by decide +kernel, rfl, rfl⟩
  have hidle : ∀ root, ¬ sampleCrowded.ActsOn "demo" root := by
    rintro root ⟨ns, name, hkey, -⟩
    have hbad : splitKey? "demo" = none := by decide +kernel
    rw [hbad] at hkey
    contradiction
  exact ⟨⟨hacts, (reconcile_spares hcluster "default/demo").1 _ hacts, by decide +kernel,
    by decide +kernel, by decide +kernel⟩, hidle, (reconcile_spares hcluster "demo").2 hidle⟩

end World

end Submarine
