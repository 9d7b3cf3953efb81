import Submarine.Proofs.Cluster.Outages
import Submarine.Proofs.Passes.Discipline
import Submarine.Proofs.Passes.Errand
import Submarine.Proofs.Passes.Settling

namespace Submarine

open Cluster (Meets Unchanged Stamped)

variable {k : Kind} {α β : Type} {w w' : World}

namespace World

theorem crashes_of_serve {r : Request} {answer? : Option r.Answer} (h : ∀ k, w.crashes k = 0)
    (hserve : w.serve r = (answer?, w')) : w'.crashes = w.crashes := by
  rw [serve_eq_answer h] at hserve
  have hworld : w' = (w.answer r).2 := congrArg Prod.snd hserve.symm
  rw [hworld]
  cases r <;> rfl

theorem serve_get (h : ∀ k, w.crashes k = 0) (k : Kind) (ns name : String) :
    ∃ reply w', w.serve (.get k ns name) = (reply, w') ∧
      w.cluster.get k ⟨ns, name⟩ = (reply, w'.cluster) ∧ w'.crashes = w.crashes := by
  refine ⟨_, _, rfl, ?_, crashes_of_serve h rfl⟩
  obtain ⟨hreply, hworld⟩ := Prod.mk.inj (serve_eq_answer h (.get k ns name))
  exact Prod.ext hreply.symm (congrArg World.cluster hworld).symm

theorem stamped_run (hw : Stamped w.cluster) (p : Pass α) : Stamped (w.run p).2.cluster := by
  induction p generalizing w with
  | done | fail => exact hw
  | ask r next ih =>
    have heffect := w.effect_serve r
    rw [run]
    rcases hserve : w.serve r with ⟨_ | answer, w₁⟩ <;> rw [hserve] at heffect
    · exact hw.effect heffect
    · exact ih answer (hw.effect heffect)

/-- The pass ends with `P`. It fails only by an outage and uses that up, and if it ends well then
all outages are there still. -/
inductive Weathers (P : World → Prop) (w : World) (p : Pass α) : Prop where
  | well (a : α) (w' : World) (run : w.run p = (.ok a, w')) (keeps : P w')
      (outages : w'.cluster.outages = w.cluster.outages)
  | failed (f : Failure) (w' : World) (run : w.run p = (.error f, w')) (keeps : P w')
      (spends : w.cluster.Spends f w'.cluster)

namespace Weathers

variable {P Q : World → Prop} {p : Pass α}

theorem done (h : P w) (a : α) : w.Weathers P (.done a) := .well a w rfl h rfl

theorem bind {f : α → Pass β} (h : w.Weathers P p) (hPQ : ∀ w', P w' → Q w')
    (hf : ∀ a w', P w' → w'.Weathers Q (f a)) : w.Weathers Q (p.bind f) := by
  cases h with
  | failed e w₁ run keeps spends =>
    refine .failed e w₁ ?_ (hPQ w₁ keeps) spends
    rw [run_bind, run]
  | well a w₁ run keeps outages =>
    have hrun : w.run (p.bind f) = w₁.run (f a) := run_bind_of_ok run
    cases hf a w₁ keeps with
    | well b w₂ run₂ keeps₂ outages₂ =>
      exact .well b w₂ (hrun.trans run₂) keeps₂ (outages₂.trans outages)
    | failed e w₂ run₂ keeps₂ spends =>
      exact .failed e w₂ (hrun.trans run₂) keeps₂ (spends.of_outages_eq outages)

theorem andThen {f : α → Pass β} (h : w.Weathers P p) (hf : ∀ a w', P w' → w'.Weathers P (f a)) :
    w.Weathers P (p.bind f) := h.bind (fun _ hw ↦ hw) hf

theorem ask {r : Request} {next : r.Answer → Pass α} {answer : r.Answer}
    (hserve : w.serve r = (some answer, w')) (houtages : w'.cluster.outages = w.cluster.outages)
    (h : w'.Weathers P (next answer)) : w.Weathers P (.ask r next) := by
  have hrun : w.run (.ask r next) = w'.run (next answer) := run_ask_of_serve hserve
  cases h with
  | well a w₁ run keeps outages =>
    exact .well a w₁ (hrun.trans run) keeps (outages.trans houtages)
  | failed e w₁ run keeps spends =>
    exact .failed e w₁ (hrun.trans run) keeps (spends.of_outages_eq houtages)

end Weathers

end World

/-- The object can be made what the child is to be: it is so already, or it bears the name of its
place and is of a generation that has a next. -/
def Object.Yields (o : Object k) (child : Child k) (root : Root) (ns : String) : Prop :=
  o.agreesWith (child.build root) ∨
    o.place = .ok ⟨ns, child.name⟩ ∧ (Cluster.generationAfter? o (child.renewed root o)).isSome

structure Receptive (root : Root) (home : Place) (w : World) : Prop where
  stamped : w.cluster.Stamped
  isWhole : w.cluster.isBroken = false
  crashes : ∀ k, w.crashes k = 0
  find?_root : w.cluster.find? .submarine home = some root
  amenable : ∀ child ∈ plan root, ∀ o : Object child.kind,
    w.cluster.find? child.kind ⟨home.ns, child.child.name⟩ = some o →
      o.isControlledBy root ∧ o.Yields child.child root home.ns

def Kept (root : Root) (home : Place) (w : World) : Prop :=
  ∃ stored : Root, root.SameDeclaration stored ∧
    stored.metadata.deletionTimestamp = root.metadata.deletionTimestamp ∧
      Receptive stored home w

variable {root : Root} {home : Place}

namespace Receptive

theorem kept (h : Receptive root home w) : Kept root home w :=
  ⟨root, .refl root, rfl, h⟩

theorem unchanged (h : Receptive root home w) (hsame : Unchanged w.cluster w'.cluster)
    (hwhole : w'.cluster.isBroken = false) (hcrashes : w'.crashes = w.crashes) :
    Receptive root home w' where
  stamped := h.stamped.effect (.unchanged hsame)
  isWhole := hwhole
  crashes k := by rw [hcrashes, h.crashes]
  find?_root := by rw [hsame.find?, h.find?_root]
  amenable child hchild o ho := h.amenable child hchild o (hsame.find? _ _ ▸ ho)

/-- A child that has been settled is in order, and the others are where they were. -/
theorem settled {child : Child k} {o : Object k} (h : Receptive root home w)
    (hroot : root.Named home) (hmem : ⟨k, child⟩ ∈ plan root)
    (hsettled : Settled root child o w.cluster w'.cluster) (hcrashes : w'.crashes = w.crashes) :
    Receptive root home w' where
  stamped := hsettled.stamped
  isWhole := hsettled.isBroken
  crashes k := by rw [hcrashes, h.crashes]
  find?_root := by
    have hk : k ≠ .submarine := Plan.kind_ne_submarine hmem
    rw [hsettled.find?_of_ne home.ns _ _ hroot.ns fun he ↦ hk he.1.symm, h.find?_root]
  amenable other hother o' ho' := by
    obtain ⟨ns, hns, hfind, hcontrolled, hagrees⟩ := hsettled.stands
    obtain rfl : home.ns = ns := Option.some.inj (hroot.ns.symm.trans hns)
    by_cases hlabel : other.label = AnyChild.label ⟨k, child⟩
    · obtain rfl := List.inj_on_of_nodup_map (Plan.nodup_labels root) hother hmem hlabel
      obtain rfl := Option.some.inj (hfind.symm.trans ho')
      exact ⟨hcontrolled, .inl hagrees⟩
    · refine h.amenable other hother o' ?_
      rw [← ho']
      refine (hsettled.find?_of_ne home.ns _ _ hns fun he ↦ hlabel ?_).symm
      exact Prod.ext he.1 (congrArg Place.name he.2)

theorem sameDeclaration {stored : Root} (h : Receptive root home w)
    (hsame : root.SameDeclaration stored) (hstamped : w'.cluster.Stamped)
    (hwhole : w'.cluster.isBroken = false) (hcrashes : w'.crashes = w.crashes)
    (hroot : w'.cluster.find? .submarine home = some stored)
    (hothers : ∀ k p, k ≠ .submarine → w'.cluster.find? k p = w.cluster.find? k p) :
    Receptive stored home w' where
  stamped := hstamped
  isWhole := hwhole
  crashes k := by rw [hcrashes, h.crashes]
  find?_root := hroot
  amenable child hchild o ho := by
    rw [hsame.plan] at hchild
    rw [hothers _ _ (Plan.kind_ne_submarine hchild)] at ho
    obtain ⟨hcontrolled, hyields⟩ := h.amenable child hchild o ho
    refine ⟨?_, ?_⟩
    · rw [hsame.isControlledBy, hcontrolled]
    · rwa [Object.Yields, Child.renewed, hsame.build hchild]

end Receptive

namespace Kept

theorem crashes (h : Kept root home w) (k : Kind) : w.crashes k = 0 := by
  obtain ⟨_, -, -, hreceptive⟩ := h
  exact hreceptive.crashes k

theorem of_sameDeclaration {stored : Root} (h : Kept stored home w)
    (hsame : root.SameDeclaration stored)
    (hdeletion : stored.metadata.deletionTimestamp = root.metadata.deletionTimestamp) :
    Kept root home w := by
  obtain ⟨stored', hsame', hdeletion', hreceptive⟩ := h
  exact ⟨stored', hsame.trans hsame', hdeletion'.trans hdeletion, hreceptive⟩

theorem stands {finished : Root} (h : Kept root home w) (hw : Finished finished home w.cluster) :
    ∀ child ∈ plan root, ∃ o, Settlement.Stands ⟨child, o⟩ root w.cluster := by
  intro child hchild
  obtain ⟨stored, hsame, -, hreceptive⟩ := h
  obtain rfl := Option.some.inj (hw.find?_root.symm.trans hreceptive.find?_root)
  rw [← hsame.plan] at hchild
  obtain ⟨o, ho⟩ := hw.stands child hchild
  exact ⟨o, ho.sameDeclaration hsame.symm hchild fun _ _ _ ↦ rfl⟩

theorem of_cluster_eq (h : Kept root home w) (hcluster : w'.cluster = w.cluster)
    (hcrashes : ∀ k, w'.crashes k = 0) : Kept root home w' := by
  obtain ⟨stored, hsame, hdeletion, hreceptive⟩ := h
  refine ⟨stored, hsame, hdeletion, hreceptive.unchanged ?_ ?_ (funext fun k ↦ ?_)⟩
  · rw [hcluster]
    exact .refl _
  · rw [hcluster, hreceptive.isWhole]
  · rw [hcrashes, hreceptive.crashes]

end Kept

namespace Receptive

section Parts

variable {child : Child k}

theorem create (h : Receptive root home w) (hroot : root.Named home) (hmem : ⟨k, child⟩ ∈ plan root)
    (hfree : w.cluster.find? k ⟨home.ns, child.name⟩ = none) {newborn : Object k}
    (hnewborn : child.newborn root home.ns = .ok newborn) :
    w.Weathers (Receptive root home) (.call (.create k newborn) rfl) := by
  rcases hserve : w.serve (.create k newborn) with ⟨reply, w₁⟩
  have hcrashes : w₁.crashes = w.crashes := World.crashes_of_serve h.crashes hserve
  have hplace := (Child.newborn_spec hnewborn).1
  cases Meets.create h.isWhole hplace hfree (World.create_of_serve hserve) with
  | outage e hreply hspends _ hsame hwhole =>
    subst hreply
    refine .failed (.cluster e) w₁ ?_ (h.unchanged hsame hwhole hcrashes) hspends
    exact World.run_ask_of_serve hserve
  | course answer hreply hanswer houtages _ =>
    obtain ⟨stored, rfl⟩ := hanswer
    subst hreply
    have hsettled := Settled.of_create h.stamped hroot.ns hnewborn hserve
    refine .well stored w₁ ?_ (h.settled hroot hmem hsettled hcrashes) houtages
    exact World.run_ask_of_serve hserve

theorem update (h : Receptive root home w) (hroot : root.Named home) (hmem : ⟨k, child⟩ ∈ plan root)
    {live : Object k} (hfind : w.cluster.find? k ⟨home.ns, child.name⟩ = some live)
    (hcontrolled : live.isControlledBy root) (hplace : live.place = .ok ⟨home.ns, child.name⟩)
    (hnext : (Cluster.generationAfter? live (child.renewed root live)).isSome) :
    w.Weathers (Receptive root home) (.call (.update k (child.renewed root live)) rfl) := by
  rcases hserve : w.serve (.update k (child.renewed root live)) with ⟨reply, w₁⟩
  have hcrashes : w₁.crashes = w.crashes := World.crashes_of_serve h.crashes hserve
  have hplace' : (child.renewed root live).place = .ok ⟨home.ns, child.name⟩ :=
    (Object.place_congr rfl rfl).trans hplace
  have hversion : Cluster.versionAgrees (child.renewed root live) live := by
    simp [Cluster.versionAgrees, Child.renewed]
  have hmerge : (Cluster.replaced? live (child.renewed root live)).isSome := by
    rw [Cluster.replaced?, Option.isSome_map]
    exact hnext
  cases Meets.write h.isWhole hplace' hfind hversion hmerge (World.update_of_serve hserve) with
  | outage e hreply hspends _ hsame hwhole =>
    subst hreply
    refine .failed (.cluster e) w₁ ?_ (h.unchanged hsame hwhole hcrashes) hspends
    exact World.run_ask_of_serve hserve
  | course answer hreply hanswer houtages _ =>
    obtain ⟨stored, rfl⟩ := hanswer
    subst hreply
    have hk : k ≠ .submarine := Plan.kind_ne_submarine hmem
    have hsettled := Settled.of_update h.stamped hk hroot.ns hfind hcontrolled hserve
    refine .well stored w₁ ?_ (h.settled hroot hmem hsettled hcrashes) houtages
    exact World.run_ask_of_serve hserve

theorem converge (h : Receptive root home w) (hroot : root.Named home)
    (hmem : ⟨k, child⟩ ∈ plan root) :
    w.Weathers (Receptive root home) (Submarine.converge root child) := by
  unfold Submarine.converge
  rw [hroot.ns]
  obtain ⟨reply, w₁, hserve, hget, hcrashes⟩ := World.serve_get h.crashes k home.ns child.name
  have hsame : Unchanged w.cluster w₁.cluster := (Cluster.get_spec hget).1
  cases Meets.get h.isWhole hget with
  | outage e hreply hspends hfound _ hwhole =>
    subst hreply
    refine .failed (.cluster e) w₁ ?_ (h.unchanged hsame hwhole hcrashes) hspends
    refine (World.run_ask_of_serve hserve).trans ?_
    cases e with
    | notFound what => exact absurd rfl (hfound what)
    | _ => rfl
  | course answer hreply hanswer houtages hwhole =>
    have h₁ : Receptive root home w₁ := h.unchanged hsame hwhole hcrashes
    subst hreply
    refine .ask hserve houtages ?_
    rcases hanswer with ⟨live, hfind, rfl⟩ | ⟨hfree, what, rfl⟩
    · obtain ⟨hcontrolled, hyields⟩ := h.amenable ⟨k, child⟩ hmem live hfind
      dsimp only
      rw [if_pos hcontrolled]
      split
      · exact .done h₁ live
      · next hdrifted =>
        obtain ⟨hplace, hnext⟩ := hyields.resolve_left hdrifted
        rw [← hsame.find?] at hfind
        exact h₁.update hroot hmem hfind hcontrolled hplace hnext
    · obtain ⟨newborn, hnewborn⟩ := Child.exists_newborn hroot child home.ns
      rw [← hsame.find?] at hfree
      dsimp only
      rw [hnewborn]
      exact h₁.create hroot hmem hfree hnewborn

theorem convergeAll {todo : List AnyChild} (h : Receptive root home w) (hroot : root.Named home)
    (htodo : ∀ child ∈ todo, child ∈ plan root) :
    w.Weathers (Receptive root home) (Submarine.convergeAll root todo) := by
  induction todo generalizing w with
  | nil => exact .done h ()
  | cons c rest ih =>
    have hfirst := h.converge hroot (htodo c (List.mem_cons_self ..))
    refine hfirst.andThen fun _ w₁ h₁ ↦ ih h₁ fun child hchild ↦ ?_
    exact htodo child (List.mem_cons_of_mem _ hchild)

theorem convergeServer (h : Receptive root home w) (hroot : root.Named home) :
    w.Weathers (Receptive root home) (Submarine.convergeServer root) := by
  have hplan : ∀ child ∈ Plan.server, child ∈ plan root := by simp +contextual [plan]
  refine (h.converge hroot (hplan _ (by simp [Plan.server]))).andThen fun _ w₁ h₁ ↦ ?_
  refine (h₁.converge hroot (hplan _ (by simp [Plan.server]))).andThen fun deployment w₂ h₂ ↦ ?_
  refine (h₂.converge hroot (hplan _ (by simp [Plan.server]))).andThen fun _ w₃ h₃ ↦ ?_
  exact .done h₃ deployment

theorem convergeDatabase (h : Receptive root home w) (hroot : root.Named home) :
    w.Weathers (Receptive root home) (Submarine.convergeDatabase root) := by
  have hplan : ∀ child ∈ Plan.database root, child ∈ plan root := by simp +contextual [plan]
  have hlast : ∀ w', Receptive root home w' →
      w'.Weathers (Receptive root home) (convergeDatabaseSet root) := by
    intro w' h'
    refine (h'.converge hroot (hplan _ (by simp [Plan.database]))).andThen fun set w₁ h₁ ↦ ?_
    refine (h₁.converge hroot (hplan _ (by simp [Plan.database]))).andThen fun _ w₂ h₂ ↦ ?_
    exact .done h₂ set
  rw [convergeDatabase_eq]
  refine (h.converge hroot (hplan _ (by simp [Plan.database]))).andThen fun _ w₁ h₁ ↦ ?_
  split
  · next hmanages =>
    refine (h₁.converge hroot (hplan _ (by simp [Plan.database, hmanages]))).andThen ?_
    intro _ w₂ h₂
    exact hlast w₂ h₂
  · exact hlast w₁ h₁

theorem reportStatus (h : Receptive root home w) (hroot : root.Named home)
    (server : Object .deployment) (database : Object .statefulSet) :
    w.Weathers (Kept root home) (Submarine.reportStatus root server database) := by
  have hnow : w.serve .now = (some w.clock, w) := rfl
  by_cases hstatus : root.status = some (observedStatus root server database w.clock)
  · refine .ask hnow rfl ?_
    dsimp only
    rw [if_pos hstatus]
    exact .done h.kept ()
  · let reported := root.withStatus (observedStatus root server database w.clock)
    rcases hserve : w.serve (.updateStatus .submarine reported) with ⟨reply, w₁⟩
    have hcrashes : w₁.crashes = w.crashes := World.crashes_of_serve h.crashes hserve
    have hplace : reported.place = .ok home := Object.place_eq_ok_iff.2 ⟨hroot.name, hroot.ns⟩
    -- The root that was read is the stored one, and so is its version.
    have hversion : Cluster.versionAgrees reported root := by
      simp [Cluster.versionAgrees, reported, Root.withStatus]
    cases Meets.write h.isWhole hplace h.find?_root hversion rfl
      (World.updateStatus_of_serve hserve) with
    | outage e hreply hspends _ hsame hwhole =>
      subst hreply
      refine .ask hnow rfl ?_
      dsimp only
      rw [if_neg hstatus]
      refine .failed (.cluster e) w₁ ?_ (h.unchanged hsame hwhole hcrashes).kept hspends
      exact World.run_ask_of_serve hserve
    | course answer hreply hanswer houtages _ =>
      obtain ⟨written, rfl⟩ := hanswer
      subst hreply
      have hrun : w.run (Submarine.reportStatus root server database) = (.ok (), w₁) := by
        refine (World.run_ask_of_serve hnow).trans ?_
        dsimp only
        rw [if_neg hstatus]
        exact World.run_ask_of_serve hserve
      obtain ⟨stored, hfind, hsame, hdeletion, -, hwhole, hothers⟩ :=
        status_of_run h.stamped h.find?_root h.isWhole hrun
      have hstamped : w₁.cluster.Stamped := by
        have hall := World.stamped_run h.stamped (Submarine.reportStatus root server database)
        rwa [hrun] at hall
      refine .well () w₁ hrun ⟨stored, hsame, hdeletion, ?_⟩ houtages
      exact h.sameDeclaration hsame hstamped hwhole hcrashes hfind hothers

theorem reconcileRoot (h : Receptive root home w) (hroot : root.Named home) :
    w.Weathers (Kept root home) (Submarine.reconcileRoot root) := by
  rw [reconcileRoot_eq_planned]
  refine (h.convergeServer hroot).bind (fun _ h ↦ h.kept) fun server w₁ h₁ ↦ ?_
  refine (h₁.convergeDatabase hroot).bind (fun _ h ↦ h.kept) fun database w₂ h₂ ↦ ?_
  refine (h₂.convergeAll hroot (by simp +contextual [plan])).bind (fun _ h ↦ h.kept) ?_
  intro _ w₃ h₃
  refine (h₃.convergeAll hroot (by simp +contextual [plan])).bind (fun _ h ↦ h.kept) ?_
  intro _ w₄ h₄
  refine (h₄.reportStatus hroot server database).andThen fun _ w₅ h₅ ↦ ?_
  let told : World := { w₅ with events := w₅.events ++ [.synced root] }
  have htold : Kept root home told := h₅.of_cluster_eq rfl h₅.crashes
  have hserve : w₅.serve (.publish (.synced root)) = (some (), told) := rfl
  exact .ask hserve rfl (.done htold ())

end Parts

end Receptive

end Submarine
