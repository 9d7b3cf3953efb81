import Submarine.Proofs.Cluster.Outages
import Submarine.Proofs.Passes.Settling

namespace Submarine

variable {k : Kind} {α β : Type}

/-- Calls were made, all of them reads. Nothing else has changed. -/
def Cluster.OnlyRead (c c' : Cluster) : Prop :=
  ∃ gets : List Call, (∀ call ∈ gets, call.verb = .get) ∧ c' = { c with calls := c.calls ++ gets }

structure World.Calm (w : World) : Prop where
  outages : w.cluster.outages = []
  isBroken : w.cluster.isBroken = false
  crashes : ∀ k, w.crashes k = 0

def World.withCluster (w : World) (c : Cluster) : World := { w with cluster := c }

structure World.OnlyRead (w w' : World) : Prop where
  cluster : w.cluster.OnlyRead w'.cluster
  crashes : w'.crashes = w.crashes

def World.Quietly (w : World) (p : Pass α) (a : α) : Prop :=
  ∃ w', w.run p = (.ok a, w') ∧ w.OnlyRead w'

variable {w w' : World}

namespace World.OnlyRead

theorem refl (w : World) : w.OnlyRead w := ⟨⟨[], by simp, by simp⟩, rfl⟩

theorem record (w : World) (k : Kind) (p : Place) :
    w.OnlyRead (w.withCluster (w.cluster.record ⟨.get, k, p⟩)) :=
  ⟨⟨[⟨.get, k, p⟩], by simp, rfl⟩, rfl⟩

theorem trans {w'' : World} (h : w.OnlyRead w') (h' : w'.OnlyRead w'') : w.OnlyRead w'' := by
  obtain ⟨⟨gets, hgets, hcluster⟩, hcrashes⟩ := h
  obtain ⟨⟨gets', hgets', hcluster'⟩, hcrashes'⟩ := h'
  refine ⟨⟨gets ++ gets', fun call hcall ↦ ?_, ?_⟩, hcrashes'.trans hcrashes⟩
  · rcases List.mem_append.1 hcall with hfirst | hsecond
    · exact hgets call hfirst
    · exact hgets' call hsecond
  · rw [hcluster', hcluster]
    simp

theorem find? (h : w.OnlyRead w') (k : Kind) (p : Place) :
    w'.cluster.find? k p = w.cluster.find? k p := by
  obtain ⟨gets, -, hcluster⟩ := h.cluster
  rw [hcluster]
  rfl

theorem calm (h : w.OnlyRead w') (hw : w.Calm) : w'.Calm := by
  obtain ⟨⟨gets, -, hcluster⟩, hcrashes⟩ := h
  refine ⟨?_, ?_, fun k ↦ ?_⟩
  · rw [hcluster]
    exact hw.outages
  · rw [hcluster]
    exact hw.isBroken
  · rw [hcrashes]
    exact hw.crashes k

theorem stands (h : w.OnlyRead w') {s : Settlement} {root : Root}
    (hs : s.Stands root w.cluster) : s.Stands root w'.cluster := by
  obtain ⟨ns, hns, hfind, hrest⟩ := hs
  refine ⟨ns, hns, ?_, hrest⟩
  rw [h.find?, hfind]

end World.OnlyRead

namespace World.Quietly

theorem done (w : World) (a : α) : w.Quietly (.done a) a := ⟨w, rfl, .refl w⟩

theorem bind {p : Pass α} {f : α → Pass β} {a : α} {b : β} (hp : w.Quietly p a)
    (hf : ∀ w', w.OnlyRead w' → w'.Quietly (f a) b) : w.Quietly (p.bind f) b := by
  obtain ⟨w₁, hrun, hread⟩ := hp
  obtain ⟨w₂, hrun', hread'⟩ := hf w₁ hread
  exact ⟨w₂, (World.run_bind_of_ok hrun).trans hrun', hread.trans hread'⟩

theorem ask {r : Request} {next : r.Answer → Pass α} {answer : r.Answer} {a : α}
    (hserve : w.serve r = (some answer, w')) (hread : w.OnlyRead w')
    (hnext : w'.Quietly (next answer) a) : w.Quietly (.ask r next) a := by
  obtain ⟨w₁, hrun, hread'⟩ := hnext
  exact ⟨w₁, (World.run_ask_of_serve hserve).trans hrun, hread.trans hread'⟩

end World.Quietly

namespace World.Calm

theorem serve_get_of_stored (h : w.Calm) {ns name : String} {o : Object k}
    (hfind : w.cluster.find? k ⟨ns, name⟩ = some o) :
    w.serve (.get k ns name) =
      (some (.ok o), w.withCluster (w.cluster.record ⟨.get, k, ⟨ns, name⟩⟩)) := by
  rw [serve_eq_answer h.crashes, answer,
    Cluster.get_of_stored h.outages h.isBroken hfind]
  rfl

theorem serve_get_of_missing (h : w.Calm) {ns name : String}
    (hfree : w.cluster.find? k ⟨ns, name⟩ = none) :
    w.serve (.get k ns name) = (some (.error (.notFound (describe k ⟨ns, name⟩))),
      w.withCluster (w.cluster.record ⟨.get, k, ⟨ns, name⟩⟩)) := by
  rw [serve_eq_answer h.crashes, answer,
    Cluster.get_of_missing h.outages h.isBroken hfree]
  rfl

theorem serve_get (hw : w.Calm) {ns name : String} {o : Object k}
    (hfind : w.cluster.find? k ⟨ns, name⟩ = some o) :
    ∃ w', w.serve (.get k ns name) = (some (.ok o), w') ∧ w.OnlyRead w' :=
  ⟨_, hw.serve_get_of_stored hfind, .record w k _⟩

end World.Calm

theorem Finished.unchanged {root : Root} {home : Place} {c c' : Cluster}
    (h : Finished root home c) (hsame : c.Unchanged c') (hbroken : c'.isBroken = c.isBroken) :
    Finished root home c' := by
  have hstands : ∀ {s : Settlement}, s.Stands root c → s.Stands root c' := by
    rintro s ⟨ns, hns, hfind, hrest⟩
    exact ⟨ns, hns, by rw [hsame.find?, hfind], hrest⟩
  obtain ⟨server, database, hserver, hdatabase, hstatus⟩ := h.status
  refine ⟨?_, hbroken.trans h.isBroken, fun child hchild ↦ ?_, server, database, hstands hserver,
    hstands hdatabase, hstatus⟩
  · rw [hsame.find?, h.find?_root]
  · obtain ⟨o, ho⟩ := h.stands child hchild
    exact ⟨o, hstands ho⟩

section Again

variable {root : Root}

theorem converge_again (hw : w.Calm) {child : Child k} {o : Object k}
    (h : Settlement.Stands ⟨⟨k, child⟩, o⟩ root w.cluster) :
    w.Quietly (converge root child) o := by
  obtain ⟨ns, hns, hfind, hcontrolled, hagrees⟩ := h
  obtain ⟨w', hserve, hread⟩ := hw.serve_get hfind
  unfold converge
  rw [hns]
  refine .ask hserve hread ?_
  dsimp only
  rw [if_pos hcontrolled, if_pos hagrees]
  exact .done w' o

theorem convergeAll_again {todo : List AnyChild} (hw : w.Calm)
    (h : ∀ child ∈ todo, ∃ o, Settlement.Stands ⟨child, o⟩ root w.cluster) :
    w.Quietly (convergeAll root todo) () := by
  induction todo generalizing w with
  | nil => exact .done w ()
  | cons c rest ih =>
    obtain ⟨o, ho⟩ := h c (List.mem_cons_self ..)
    refine (converge_again hw ho).bind fun w' hread ↦ ih (hread.calm hw) fun child hchild ↦ ?_
    obtain ⟨o', ho'⟩ := h child (List.mem_cons_of_mem _ hchild)
    exact ⟨o', hread.stands ho'⟩

theorem convergeServer_again (hw : w.Calm)
    (h : ∀ child ∈ Plan.server, ∃ o, Settlement.Stands ⟨child, o⟩ root w.cluster)
    {server : Object .deployment}
    (hserver : Settlement.Stands ⟨⟨_, Child.serverDeployment⟩, server⟩ root w.cluster) :
    w.Quietly (convergeServer root) server := by
  obtain ⟨account, haccount⟩ := h ⟨_, Child.serverAccount⟩ (by simp [Plan.server])
  obtain ⟨service, hservice⟩ := h ⟨_, Child.serverService⟩ (by simp [Plan.server])
  refine (converge_again hw haccount).bind fun w₁ hread₁ ↦ ?_
  refine (converge_again (hread₁.calm hw) (hread₁.stands hserver)).bind fun w₂ hread₂ ↦ ?_
  have hread := hread₁.trans hread₂
  refine (converge_again (hread.calm hw) (hread.stands hservice)).bind fun w₃ _ ↦ ?_
  exact .done w₃ server

theorem convergeDatabase_again (hw : w.Calm)
    (h : ∀ child ∈ Plan.database root, ∃ o, Settlement.Stands ⟨child, o⟩ root w.cluster)
    {database : Object .statefulSet}
    (hdatabase : Settlement.Stands ⟨⟨_, Child.databaseSet⟩, database⟩ root w.cluster) :
    w.Quietly (convergeDatabase root) database := by
  obtain ⟨claim, hclaim⟩ := h ⟨_, Child.databaseClaim⟩ (by simp [Plan.database])
  obtain ⟨service, hservice⟩ := h ⟨_, Child.databaseService⟩ (by simp [Plan.database])
  have hlast : ∀ w', w.OnlyRead w' → w'.Quietly (convergeDatabaseSet root) database := by
    intro w' hread
    refine (converge_again (hread.calm hw) (hread.stands hdatabase)).bind fun w₁ hread₁ ↦ ?_
    have hread' := hread.trans hread₁
    refine (converge_again (hread'.calm hw) (hread'.stands hservice)).bind fun w₂ _ ↦ ?_
    exact .done w₂ database
  rw [convergeDatabase_eq]
  refine (converge_again hw hclaim).bind fun w₁ hread₁ ↦ ?_
  split
  · next hmanages =>
    obtain ⟨secret, hsecret⟩ := h ⟨_, Child.databaseSecret⟩ (by simp [Plan.database, hmanages])
    refine (converge_again (hread₁.calm hw) (hread₁.stands hsecret)).bind fun w₂ hread₂ ↦ ?_
    exact hlast w₂ (hread₁.trans hread₂)
  · exact hlast w₁ hread₁

theorem reportStatus_again {server : Object .deployment} {database : Object .statefulSet}
    (hstatus : ∀ now, root.status = some (observedStatus root server database now)) (w : World) :
    w.Quietly (reportStatus root server database) () := by
  have hserve : w.serve .now = (some w.clock, w) := rfl
  refine .ask hserve (.refl w) ?_
  dsimp only
  rw [if_pos (hstatus w.clock)]
  exact .done w ()

theorem Finished.reconcileRoot_again {home : Place} (h : Finished root home w.cluster)
    (hw : w.Calm) : w.Quietly (reconcileRoot root) () := by
  obtain ⟨server, database, hserver, hdatabase, hstatus⟩ := h.status
  have hplan : ∀ {part : List AnyChild}, (∀ child ∈ part, child ∈ plan root) → ∀ {w'},
      w.OnlyRead w' → ∀ child ∈ part, ∃ o, Settlement.Stands ⟨child, o⟩ root w'.cluster := by
    intro part hpart w' hread child hchild
    obtain ⟨o, ho⟩ := h.stands child (hpart child hchild)
    exact ⟨o, hread.stands ho⟩
  rw [reconcileRoot_eq_planned]
  refine (convergeServer_again hw (hplan (by simp +contextual [plan]) (.refl w)) hserver).bind
    fun w₁ hread₁ ↦ ?_
  refine (convergeDatabase_again (hread₁.calm hw) (hplan (by simp +contextual [plan]) hread₁)
    (hread₁.stands hdatabase)).bind fun w₂ hread₂ ↦ ?_
  have hread₂ := hread₁.trans hread₂
  refine (convergeAll_again (hread₂.calm hw) (hplan (by simp +contextual [plan]) hread₂)).bind
    fun w₃ hread₃ ↦ ?_
  have hread₃ := hread₂.trans hread₃
  refine (convergeAll_again (hread₃.calm hw) (hplan (by simp +contextual [plan]) hread₃)).bind
    fun w₄ _ ↦ ?_
  refine (reportStatus_again hstatus w₄).bind fun w₅ _ ↦ ?_
  exact .ask rfl ⟨⟨[], by simp, by simp⟩, rfl⟩ (.done _ ())

end Again

/-- A pass over the key of a valid root that stays is the pass over that root. -/
theorem run_reconcile {key ns name : String} {root : Root} (hkey : splitKey? key = some (ns, name))
    (hcached : w.roots.get? ns name = some root) (hvalid : root.spec.validate = .ok ())
    (hstays : root.metadata.deletionTimestamp = none) :
    w.run (reconcile key) = w.run (reconcileRoot root) := by
  have hserve : w.serve (.cachedRoot ns name) = (some (some root), w) := by
    rw [← hcached]
    rfl
  unfold reconcile
  rw [hkey]
  refine (World.run_ask_of_serve hserve).trans ?_
  dsimp only
  rw [hstays, hvalid]
  rfl

namespace World

/-- After a pass that ended well, once the cache holds the root as it is stored, a second pass ends
well and makes no call but reads. -/
theorem second_pass_only_reads {key ns name : String} {root : Root} {w w₁ w₂ : World}
    (hcluster : w.cluster.Reachable) (hkey : splitKey? key = some (ns, name))
    (hstored : w.cluster.find? .submarine ⟨ns, name⟩ = some root)
    (hcached : w.roots.get? ns name = some root) (hvalid : root.spec.validate = .ok ())
    (hstays : root.metadata.deletionTimestamp = none)
    (hfirst : w.run (reconcile key) = (.ok (), w₁))
    (hsame : w₁.cluster.Unchanged w₂.cluster)
    (hbroken : w₂.cluster.isBroken = w₁.cluster.isBroken)
    (hrefreshed : w₂.roots.get? ns name = w₁.cluster.find? .submarine ⟨ns, name⟩)
    (houtages : w₂.cluster.outages = []) (hcrashes : ∀ k, w₂.crashes k = 0) :
    ∃ w₃, w₂.run (reconcile key) = (.ok (), w₃) ∧ w₂.cluster.OnlyRead w₃.cluster := by
  rw [run_reconcile hkey hcached hvalid hstays] at hfirst
  obtain ⟨root', hfinished, hsameRoot, hdeletion⟩ :=
    finished_of_run (.reachable hcluster) hstored hfirst
  have hcached' : w₂.roots.get? ns name = some root' := hrefreshed.trans hfinished.find?_root
  have hcalm : w₂.Calm := ⟨houtages, hbroken.trans hfinished.isBroken, hcrashes⟩
  obtain ⟨w₃, hrun, hread⟩ := (hfinished.unchanged hsame hbroken).reconcileRoot_again hcalm
  refine ⟨w₃, ?_, hread.cluster⟩
  rw [run_reconcile hkey hcached' (hsameRoot.spec ▸ hvalid) (hdeletion.trans hstays), hrun]

def sampleFirst : World :=
  { World.new Cluster.drifted ⟨0, 0⟩ with
    roots := Cache.empty.put (Root.sampleWithBoard.withVersion 1) }

def sampleSecond : World :=
  let w := (sampleFirst.run (reconcile "default/demo")).2
  { w with
    clock := ⟨60, 0⟩
    roots := ((w.cluster.find? .submarine ⟨"default", "demo"⟩).map Cache.empty.put).getD .empty }

theorem second_pass_only_reads_sample :
    (sampleSecond.cluster.find? .ingressRoute
      ⟨"default", "submarine-tensorboard-ingressroute"⟩).isSome ∧
    ∃ w₃, sampleSecond.run (reconcile "default/demo") = (.ok (), w₃) ∧
      sampleSecond.cluster.OnlyRead w₃.cluster := by
  have hcluster : sampleFirst.cluster.Reachable := .performAll .empty _
  have hkey : splitKey? "default/demo" = some ("default", "demo") := by decide +kernel
  have hstored : sampleFirst.cluster.find? .submarine ⟨"default", "demo"⟩ =
      some (Root.sampleWithBoard.withVersion 1) := by decide +kernel
  have hfirst : (sampleFirst.run (reconcile "default/demo")).1 = .ok () := by decide +kernel
  have hcrashes : ∀ k ∈ Kind.all, sampleSecond.crashes k = 0 := by decide +kernel
  refine ⟨by decide +kernel, second_pass_only_reads hcluster hkey hstored (by decide +kernel) rfl
    rfl (Prod.ext hfirst rfl) ⟨rfl, rfl, rfl⟩ rfl (by decide +kernel) (by decide +kernel) ?_⟩
  exact fun k ↦ hcrashes k k.mem_all

end World

end Submarine
