import Submarine.Proofs.Manifest.Children
import Submarine.Proofs.Passes.Serving
import Submarine.Proofs.Passes.Planned

namespace Submarine

open Cluster (Effect Stamped)

variable {k : Kind} {α β : Type} {w w' : World}

namespace World

theorem run_bind (w : World) (p : Pass α) (f : α → Pass β) :
    w.run (p.bind f) =
      match w.run p with
      | (.ok a, w') => w'.run (f a)
      | (.error e, w') => (.error e, w') := by
  induction p generalizing w with
  | done a => rfl
  | fail e => rfl
  | ask r next ih =>
    simp only [Pass.bind, run]
    rcases w.serve r with ⟨_ | answer, w₁⟩
    · rfl
    · exact ih answer w₁

theorem run_bind_of_ok {p : Pass α} {f : α → Pass β} {a : α} (h : w.run p = (.ok a, w')) :
    w.run (p.bind f) = w'.run (f a) := by
  rw [run_bind, h]

/-- A sequence ends well only if both of its parts do. -/
theorem ok_of_run_bind {p : Pass α} {f : α → Pass β} {b : β}
    (h : w.run (p.bind f) = (.ok b, w')) :
    ∃ a w₁, w.run p = (.ok a, w₁) ∧ w₁.run (f a) = (.ok b, w') := by
  rw [run_bind] at h
  rcases hp : w.run p with ⟨e | a, w₁⟩ <;> rw [hp] at h
  · simp at h
  · exact ⟨a, w₁, rfl, h⟩

theorem run_ask_of_serve {r : Request} {answer : r.Answer} {next : r.Answer → Pass α}
    (h : w.serve r = (some answer, w')) : w.run (.ask r next) = w'.run (next answer) := by
  rw [run, h]

theorem ok_of_run_ask {r : Request} {next : r.Answer → Pass α} {a : α}
    (h : w.run (.ask r next) = (.ok a, w')) :
    ∃ answer w₁, w.serve r = (some answer, w₁) ∧ w₁.run (next answer) = (.ok a, w') := by
  rw [run] at h
  rcases hserve : w.serve r with ⟨_ | answer, w₁⟩ <;> rw [hserve] at h
  · simp at h
  · exact ⟨answer, w₁, rfl, h⟩

end World

structure Settlement where
  child : AnyChild
  object : Object child.kind

/-- The object is stored where the child belongs, the root controls it, and it agrees with what is
built for the child. -/
def Settlement.Stands (s : Settlement) (root : Root) (c : Cluster) : Prop :=
  ∃ ns, root.metadata.ns = some ns ∧
    c.find? s.child.kind ⟨ns, s.child.child.name⟩ = some s.object ∧
      s.object.isControlledBy root ∧ s.object.agreesWith (s.child.child.build root)

structure Settled (root : Root) (child : Child k) (o : Object k) (c c' : Cluster) : Prop where
  stands : Settlement.Stands ⟨⟨k, child⟩, o⟩ root c'
  stamped : c'.Stamped
  isBroken : c'.isBroken = false
  find?_of_ne : ∀ ns j q, root.metadata.ns = some ns → ¬ (j = k ∧ q = ⟨ns, child.name⟩) →
    c'.find? j q = c.find? j q

namespace Settled

variable {root : Root} {child : Child k} {o : Object k} {ns : String}

theorem of_create (hw : Stamped w.cluster) (hns : root.metadata.ns = some ns) {newborn : Object k}
    (hnewborn : child.newborn root ns = .ok newborn)
    (hserve : w.serve (.create k newborn) = (some (.ok o), w')) :
    Settled root child o w.cluster w'.cluster := by
  obtain ⟨hplace, hcontrolled, hcontent⟩ := Child.newborn_spec hnewborn
  rcases Cluster.create_spec (World.create_of_serve hserve) with
    ⟨p, uid, hp, -, hstores, hreply, hbroken⟩ | ⟨-, hno⟩
  · obtain rfl := Except.ok.inj (hp.symm.trans hplace)
    obtain rfl := Except.ok.inj (Option.some.inj hreply)
    refine ⟨⟨ns, hns, hstores.find?_self, ?_, ?_⟩, hw.effect (.stores _ _ hstores), hbroken, ?_⟩
    · exact (Object.isControlledBy_congr rfl rfl rfl).trans hcontrolled
    · change newborn.content.agreesWith (child.build root).content = true
      rw [hcontent]
      exact Content.agreesWith_self _
    · intro ns' j q hns' hne
      obtain rfl := Option.some.inj (hns.symm.trans hns')
      exact hstores.find?_of_ne j q hne
  · exact absurd rfl (hno o)

theorem of_update (hw : Stamped w.cluster) (hk : k ≠ .submarine)
    (hns : root.metadata.ns = some ns) {live : Object k}
    (hfind : w.cluster.find? k ⟨ns, child.name⟩ = some live)
    (hcontrolled : live.isControlledBy root)
    (hserve : w.serve (.update k (child.renewed root live)) = (some (.ok o), w')) :
    Settled root child o w.cluster w'.cluster := by
  have hremembers := Cluster.Remembers.of_find? hw hfind
  rcases Cluster.write_spec (World.update_of_serve hserve) with
    ⟨p, stored, merged, -, hstored, hagrees, hmerged, hstores, hreply, hbroken⟩ | ⟨-, hno⟩
  · obtain ⟨rfl, rfl⟩ := hremembers.eq_of_versionAgrees hstored rfl hagrees
    obtain rfl := Except.ok.inj (Option.some.inj hreply)
    obtain ⟨generation, -, rfl⟩ := Option.map_eq_some_iff.1 hmerged
    refine ⟨⟨ns, hns, hstores.find?_self, ?_, ?_⟩, hw.effect (.stores _ _ hstores), hbroken, ?_⟩
    · exact (Object.isControlledBy_congr rfl rfl rfl).trans hcontrolled
    · exact Content.agreesWith_withStatusOf hk _ _
    · intro ns' j q hns' hne
      obtain rfl := Option.some.inj (hns.symm.trans hns')
      exact hstores.find?_of_ne j q hne
  · exact absurd rfl (hno o)

/-- A convergence that ends well settles the child. -/
theorem of_run (hw : Stamped w.cluster) (hk : k ≠ .submarine)
    (hrun : w.run (converge root child) = (.ok o, w')) :
    Settled root child o w.cluster w'.cluster := by
  unfold converge at hrun
  split at hrun
  · simp [World.run] at hrun
  · next ns hns =>
    obtain ⟨found, w₁, hget, hrun⟩ := World.ok_of_run_ask hrun
    obtain ⟨hsame, hlive, hmissing⟩ := Cluster.get_spec (World.get_of_serve hget)
    have hw₁ : Stamped w₁.cluster := hw.effect (.unchanged hsame)
    have hframe : ∀ {c : Cluster}, Settled root child o w₁.cluster c →
        Settled root child o w.cluster c := fun h ↦
      { h with find?_of_ne := fun ns j q hns hne ↦
          (h.find?_of_ne ns j q hns hne).trans (hsame.find? j q) }
    rcases (found : Except ApiError (Object k)) with e | live
    · cases e with
      | notFound what =>
        dsimp only at hrun
        rcases hnewborn : child.newborn root ns with fault | newborn <;> rw [hnewborn] at hrun
        · simp [World.run] at hrun
        · obtain ⟨reply, w₂, hserve, hrun⟩ := World.ok_of_run_ask hrun
          rcases (reply : Except ApiError (Object k)) with e | stored
          · simp [World.run] at hrun
          · obtain ⟨rfl, rfl⟩ : stored = o ∧ w₂ = w' := by simpa [World.run] using hrun
            exact hframe (of_create hw₁ hns hnewborn hserve)
      | _ => simp [World.run] at hrun
    · obtain ⟨hfind, hbroken⟩ := hlive live rfl
      dsimp only at hrun
      split at hrun
      · next hcontrolled =>
        split at hrun
        · next hagrees =>
          obtain ⟨rfl, rfl⟩ : live = o ∧ w₁ = w' := by simpa [World.run] using hrun
          have hstored : w₁.cluster.find? k ⟨ns, child.name⟩ = some live := by
            rw [hsame.find?, hfind]
          exact hframe ⟨⟨ns, hns, hstored, hcontrolled, hagrees⟩, hw₁, hbroken, fun _ _ _ _ _ ↦ rfl⟩
        · obtain ⟨reply, w₂, hserve, hrun⟩ := World.ok_of_run_ask hrun
          rcases (reply : Except ApiError (Object k)) with e | stored
          · simp [World.run] at hrun
          · obtain ⟨rfl, rfl⟩ : stored = o ∧ w₂ = w' := by simpa [World.run] using hrun
            have hstored : w₁.cluster.find? k ⟨ns, child.name⟩ = some live := by
              rw [hsame.find?, hfind]
            exact hframe (of_update hw₁ hk hns hstored hcontrolled hserve)
      · obtain ⟨_, w₂, -, hrun⟩ := World.ok_of_run_ask hrun
        simp [World.run] at hrun

end Settled

/-- How far a pass has got: what it has settled, and what of the plan it has still to settle. -/
structure Progress (root : Root) (home : Place) (settled : List Settlement)
    (todo : List AnyChild) (c : Cluster) : Prop where
  stamped : c.Stamped
  find?_root : c.find? .submarine home = some root
  plan : settled.map Settlement.child ++ todo = Submarine.plan root
  stands : ∀ s ∈ settled, s.Stands root c
  isBroken : settled ≠ [] → c.isBroken = false

namespace Progress

variable {root : Root} {home : Place} {settled : List Settlement} {todo : List AnyChild}

/-- No child stands in the place of another. -/
theorem label_ne {child : Child k} (h : Progress root home settled (⟨k, child⟩ :: todo) w.cluster)
    {s : Settlement} (hs : s ∈ settled) : ¬ (s.child.kind = k ∧ s.child.child.name = child.name) := by
  intro ⟨hkind, hname⟩
  have hnodup := Plan.nodup_labels root
  rw [← h.plan, List.map_append, List.nodup_append] at hnodup
  have hne := hnodup.2.2 s.child.label
    (List.mem_map.2 ⟨_, List.mem_map.2 ⟨s, hs, rfl⟩, rfl⟩) (AnyChild.label ⟨k, child⟩) (by simp)
  exact hne (Prod.ext hkind hname)

theorem converge {child : Child k} {o : Object k}
    (h : Progress root home settled (⟨k, child⟩ :: todo) w.cluster)
    (hrun : w.run (Submarine.converge root child) = (.ok o, w')) :
    Progress root home (settled ++ [⟨⟨k, child⟩, o⟩]) todo w'.cluster := by
  have hmem : ⟨k, child⟩ ∈ Submarine.plan root := by
    rw [← h.plan]
    simp
  have hk : k ≠ .submarine := Plan.kind_ne_submarine hmem
  have hsettled := Settled.of_run h.stamped hk hrun
  obtain ⟨ns, hns, -⟩ := hsettled.stands
  refine ⟨hsettled.stamped, ?_, ?_, fun s hs ↦ ?_, fun _ ↦ hsettled.isBroken⟩
  · rw [hsettled.find?_of_ne ns _ _ hns fun he ↦ hk he.1.symm, h.find?_root]
  · rw [← h.plan]
    simp
  · rcases List.mem_append.1 hs with hold | hnew
    · obtain ⟨ns', hns', hfind, hrest⟩ := h.stands s hold
      obtain rfl := Option.some.inj (hns.symm.trans hns')
      refine ⟨ns, hns, ?_, hrest⟩
      rw [hsettled.find?_of_ne ns _ _ hns fun he ↦ h.label_ne hold ⟨he.1, congrArg Place.name he.2⟩,
        hfind]
    · obtain rfl := List.mem_singleton.1 hnew
      exact hsettled.stands

theorem convergeAll {now : List AnyChild} (h : Progress root home settled (now ++ todo) w.cluster)
    (hrun : w.run (Submarine.convergeAll root now) = (.ok (), w')) :
    ∃ more, Progress root home (settled ++ more) todo w'.cluster := by
  induction now generalizing settled w with
  | nil =>
    obtain rfl : w = w' := by simpa [Submarine.convergeAll, World.run] using hrun
    exact ⟨[], by simpa using h⟩
  | cons c rest ih =>
    obtain ⟨o, w₁, hfirst, hrest⟩ := World.ok_of_run_bind hrun
    obtain ⟨more, hmore⟩ := ih (h.converge hfirst) hrest
    exact ⟨_ :: more, by simpa using hmore⟩

theorem convergeServer {server : Object .deployment}
    (h : Progress root home settled (Plan.server ++ todo) w.cluster)
    (hrun : w.run (Submarine.convergeServer root) = (.ok server, w')) :
    ∃ more, Progress root home (settled ++ more) todo w'.cluster ∧
      ⟨⟨_, Child.serverDeployment⟩, server⟩ ∈ more := by
  obtain ⟨account, w₁, hrun₁, hrun⟩ := World.ok_of_run_bind hrun
  obtain ⟨deployment, w₂, hrun₂, hrun⟩ := World.ok_of_run_bind hrun
  obtain ⟨service, w₃, hrun₃, hrun⟩ := World.ok_of_run_bind hrun
  obtain ⟨rfl, rfl⟩ : deployment = server ∧ w₃ = w' := by simpa [pure, World.run] using hrun
  have h₃ := ((h.converge hrun₁).converge hrun₂).converge hrun₃
  simp only [List.append_assoc] at h₃
  exact ⟨_, h₃, by simp⟩

theorem convergeDatabaseSet {database : Object .statefulSet}
    (h : Progress root home settled
      (⟨_, Child.databaseSet⟩ :: ⟨_, Child.databaseService⟩ :: todo) w.cluster)
    (hrun : w.run (Submarine.convergeDatabaseSet root) = (.ok database, w')) :
    ∃ more, Progress root home (settled ++ more) todo w'.cluster ∧
      ⟨⟨_, Child.databaseSet⟩, database⟩ ∈ more := by
  obtain ⟨set, w₁, hrun₁, hrun⟩ := World.ok_of_run_bind hrun
  obtain ⟨service, w₂, hrun₂, hrun⟩ := World.ok_of_run_bind hrun
  obtain ⟨rfl, rfl⟩ : set = database ∧ w₂ = w' := by simpa [pure, World.run] using hrun
  have h₂ := (h.converge hrun₁).converge hrun₂
  rw [List.append_assoc] at h₂
  exact ⟨_, h₂, by simp⟩

theorem convergeDatabase {database : Object .statefulSet}
    (h : Progress root home settled (Plan.database root ++ todo) w.cluster)
    (hrun : w.run (Submarine.convergeDatabase root) = (.ok database, w')) :
    ∃ more, Progress root home (settled ++ more) todo w'.cluster ∧
      ⟨⟨_, Child.databaseSet⟩, database⟩ ∈ more := by
  rw [convergeDatabase_eq] at hrun
  obtain ⟨claim, w₁, hrun₁, hrun⟩ := World.ok_of_run_bind hrun
  split at hrun
  · next hmanages =>
    simp only [Plan.database, hmanages, if_true, List.cons_append, List.nil_append] at h
    obtain ⟨secret, w₂, hrun₂, hrun⟩ := World.ok_of_run_bind hrun
    obtain ⟨more, hmore, hmem⟩ :=
      ((h.converge hrun₁).converge hrun₂).convergeDatabaseSet hrun
    simp only [List.append_assoc] at hmore
    exact ⟨_, hmore, by simp [hmem]⟩
  · next hmanages =>
    simp only [Plan.database, hmanages, List.append_assoc, List.cons_append,
      List.nil_append] at h
    obtain ⟨more, hmore, hmem⟩ := (h.converge hrun₁).convergeDatabaseSet hrun
    rw [List.append_assoc] at hmore
    exact ⟨_, hmore, by simp [hmem]⟩

end Progress

/-- The status no longer depends on the time once it is the one observed. -/
theorem observedStatus_stable {root root' : Root} {server : Object .deployment}
    {database : Object .statefulSet} {now : Time.Instant} (hspec : root'.spec = root.spec)
    (hstatus : root'.status = some (observedStatus root server database now))
    (later : Time.Instant) :
    root'.status = some (observedStatus root' server database later) := by
  rw [hstatus]
  simp only [observedStatus, hspec, hstatus, if_true]

structure Finished (root : Root) (home : Place) (c : Cluster) : Prop where
  find?_root : c.find? .submarine home = some root
  isBroken : c.isBroken = false
  stands : ∀ child ∈ plan root, ∃ o, Settlement.Stands ⟨child, o⟩ root c
  status : ∃ server database, Settlement.Stands ⟨⟨_, Child.serverDeployment⟩, server⟩ root c ∧
    Settlement.Stands ⟨⟨_, Child.databaseSet⟩, database⟩ root c ∧
      ∀ now, root.status = some (observedStatus root server database now)

/-- The report writes the root that was read, or has nothing to write. -/
theorem status_of_run {root : Root} {home : Place} {server : Object .deployment}
    {database : Object .statefulSet} (hw : Stamped w.cluster)
    (hfind : w.cluster.find? .submarine home = some root) (hbroken : w.cluster.isBroken = false)
    (hrun : w.run (reportStatus root server database) = (.ok (), w')) :
    ∃ root' : Root, w'.cluster.find? .submarine home = some root' ∧ root.SameDeclaration root' ∧
      root'.metadata.deletionTimestamp = root.metadata.deletionTimestamp ∧
      root'.status = some (observedStatus root server database w.clock) ∧
      w'.cluster.isBroken = false ∧
      ∀ k p, k ≠ .submarine → w'.cluster.find? k p = w.cluster.find? k p := by
  obtain ⟨now, w₁, hnow, hrun⟩ := World.ok_of_run_ask hrun
  obtain ⟨hclock, rfl⟩ := Prod.mk.inj hnow
  obtain rfl := Option.some.inj hclock
  dsimp only at hrun
  split at hrun
  · next hstatus =>
    obtain rfl : w = w' := by simpa [World.run] using hrun
    exact ⟨root, hfind, ⟨rfl, rfl, rfl, rfl⟩, rfl, hstatus, hbroken, fun _ _ _ ↦ rfl⟩
  · obtain ⟨reply, w₂, hwrite, hrun⟩ := World.ok_of_run_bind hrun
    obtain ⟨answer, w₃, hserve, hwrite⟩ := World.ok_of_run_ask hwrite
    rcases (answer : Except ApiError Root) with e | stored
    · simp [World.run] at hwrite
    · obtain ⟨-, rfl⟩ : stored = reply ∧ w₃ = w₂ := by simpa [World.run] using hwrite
      obtain rfl : w₃ = w' := by simpa [pure, World.run] using hrun
      rcases Cluster.write_spec (World.updateStatus_of_serve hserve) with
        ⟨p, live, merged, -, hlive, hagrees, hmerged, hstores, -, hbroken'⟩ | ⟨-, hno⟩
      · obtain ⟨rfl, rfl⟩ :=
          (Cluster.Remembers.of_find? hw hfind).eq_of_versionAgrees hlive rfl hagrees
        obtain rfl := Option.some.inj hmerged
        refine ⟨_, hstores.find?_self, ⟨rfl, rfl, rfl, rfl⟩, rfl, rfl, hbroken', fun k q hk ↦ ?_⟩
        exact hstores.find?_of_ne k q fun he ↦ hk he.1
      · exact absurd rfl (hno stored)

/-- A child stands for every root that declares the same, as long as the children stay. -/
theorem Settlement.Stands.sameDeclaration {s : Settlement} {root root' : Root} {c c' : Cluster}
    (h : s.Stands root c) (hsame : root.SameDeclaration root') (hplan : s.child ∈ plan root)
    (hothers : ∀ k p, k ≠ .submarine → c'.find? k p = c.find? k p) : s.Stands root' c' := by
  obtain ⟨ns, hns, hfind, hcontrolled, hagrees⟩ := h
  refine ⟨ns, hsame.ns.trans hns, ?_, ?_, ?_⟩
  · rw [hothers _ _ (Plan.kind_ne_submarine hplan), hfind]
  · rw [hsame.isControlledBy, hcontrolled]
  · rw [hsame.build hplan, hagrees]

/-- A pass over a root that ends well leaves nothing to do for the root as it is stored then. -/
theorem finished_of_run {root : Root} {home : Place} (hw : Stamped w.cluster)
    (hfind : w.cluster.find? .submarine home = some root)
    (hrun : w.run (reconcileRoot root) = (.ok (), w')) :
    ∃ root' : Root, Finished root' home w'.cluster ∧ root.SameDeclaration root' ∧
      root'.metadata.deletionTimestamp = root.metadata.deletionTimestamp := by
  have h₀ : Progress root home [] (plan root) w.cluster := ⟨hw, hfind, rfl, by simp, by simp⟩
  rw [reconcileRoot_eq_planned] at hrun
  obtain ⟨server, w₁, hserver, hrun⟩ := World.ok_of_run_bind hrun
  obtain ⟨database, w₂, hdatabase, hrun⟩ := World.ok_of_run_bind hrun
  obtain ⟨_, w₃, haccess, hrun⟩ := World.ok_of_run_bind hrun
  obtain ⟨_, w₄, hauxiliaries, hrun⟩ := World.ok_of_run_bind hrun
  obtain ⟨_, w₅, hreport, hrun⟩ := World.ok_of_run_bind hrun
  simp only [plan, List.append_assoc] at h₀
  obtain ⟨more₁, h₁, hmem₁⟩ := h₀.convergeServer hserver
  obtain ⟨more₂, h₂, hmem₂⟩ := h₁.convergeDatabase hdatabase
  obtain ⟨more₃, h₃⟩ := h₂.convergeAll haccess
  rw [← List.append_nil (Plan.auxiliaries root)] at h₃
  obtain ⟨more₄, h₄⟩ := h₃.convergeAll hauxiliaries
  have hwhole : w₄.cluster.isBroken = false := h₄.isBroken (by simp [List.ne_nil_of_mem hmem₁])
  obtain ⟨root', hroot', hsame, hdeletion, hstatus, hbroken, hothers⟩ :=
    status_of_run h₄.stamped h₄.find?_root hwhole hreport
  have hcluster : w'.cluster = w₅.cluster := (congrArg (fun r ↦ r.2.cluster) hrun).symm
  -- What stood before the report stands after it, for the root as it is stored now.
  have hstands : ∀ s ∈ [] ++ more₁ ++ more₂ ++ more₃ ++ more₄, s.Stands root' w₅.cluster := by
    intro s hs
    have hplan : s.child ∈ plan root := by
      rw [← h₄.plan, List.append_nil]
      exact List.mem_map_of_mem hs
    exact (h₄.stands s hs).sameDeclaration hsame hplan hothers
  rw [hcluster]
  refine ⟨root', ⟨hroot', hbroken, fun child hchild ↦ ?_, server, database, ?_, ?_, ?_⟩,
    hsame, hdeletion⟩
  · rw [hsame.plan, ← h₄.plan, List.append_nil] at hchild
    obtain ⟨s, hs, rfl⟩ := List.mem_map.1 hchild
    exact ⟨s.object, hstands s hs⟩
  · exact hstands _ (by simp [hmem₁])
  · exact hstands _ (by simp [hmem₂])
  · exact observedStatus_stable hsame.spec hstatus

end Submarine
