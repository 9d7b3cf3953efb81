import Submarine.Proofs.Manifest.Comparing
import Submarine.Proofs.Passes.Rounds
import Submarine.Proofs.Passes.Sparing

namespace Submarine

open Cluster (Stamped Unchanged Meets)

variable {k : Kind} {α β : Type} {w w' : World}

namespace Cluster

variable {c : Cluster} {o : Object k} {p : Place}

theorem calls_note (c : Cluster) (verb : Verb) (k : Kind) (p : Place) :
    (c.note verb k p).2.calls = c.calls ++ [⟨verb, k, p⟩] := by
  simp only [note]
  split <;> rfl

theorem calls_create (hwhole : c.isBroken = false) (hplace : o.place = .ok p) :
    (c.create o).2.calls = c.calls ++ [⟨.create, k, p⟩] := by
  have hcalls := calls_note c .create k p
  unfold create
  rw [hplace]
  dsimp only
  rw [if_neg (by simp [hwhole])]
  rcases hn : c.note .create k p with ⟨_ | e, c₁⟩ <;> rw [hn] at hcalls
  · dsimp only
    split <;> exact hcalls
  · exact hcalls

theorem calls_write {verb : Verb} {merge? : Object k → Object k → Option (Object k)}
    (hwhole : c.isBroken = false) (hplace : o.place = .ok p) :
    (c.write verb merge? o).2.calls = c.calls ++ [⟨verb, k, p⟩] := by
  have hcalls := calls_note c verb k p
  unfold write
  rw [hplace]
  dsimp only
  rw [if_neg (by simp [hwhole])]
  rcases hn : c.note verb k p with ⟨_ | e, c₁⟩ <;> rw [hn] at hcalls
  · dsimp only
    split
    · exact hcalls
    · split
      · split <;> exact hcalls
      · exact hcalls
  · exact hcalls

theorem writes_of_calls {c' : Cluster} {call : Call} (h : c'.calls = c.calls ++ [call])
    (hwrite : call.verb.isWrite) : c'.writes = c.writes ++ [call] := by
  simp [writes, h, hwrite]

theorem OnlyRead.writes {c' : Cluster} (h : c.OnlyRead c') : c'.writes = c.writes := by
  obtain ⟨gets, hgets, rfl⟩ := h
  have hnone : gets.filter (·.verb.isWrite) = [] := by
    refine List.filter_eq_nil_iff.2 fun call hcall ↦ ?_
    rw [hgets call hcall]
    decide
  simp only [Cluster.writes, List.filter_append, hnone, List.append_nil]

end Cluster

namespace World

theorem clock_serve (w : World) (r : Request) : (w.serve r).2.clock = w.clock := by
  unfold serve
  split
  · rfl
  · cases r <;> rfl

theorem clock_run (w : World) (p : Pass α) : (w.run p).2.clock = w.clock := by
  induction p generalizing w with
  | done | fail => rfl
  | ask r next ih =>
    have hclock := w.clock_serve r
    rw [run]
    rcases hserve : w.serve r with ⟨_ | answer, w₁⟩ <;> rw [hserve] at hclock
    · exact hclock
    · exact (ih answer w₁).trans hclock

theorem clock_of_run {p : Pass α} {result : Except Failure α} (h : w.run p = (result, w')) :
    w'.clock = w.clock := by
  have hclock := w.clock_run p
  rwa [h] at hclock

namespace Calm

theorem not_spends (hw : w.Calm) {f : Failure} {c : Cluster} : ¬ w.cluster.Spends f c := by
  rintro ⟨before, after, o, _, houtages, -⟩
  rw [hw.outages] at houtages
  simp at houtages

theorem serve_missing (hw : w.Calm) {ns name : String}
    (hfree : w.cluster.find? k ⟨ns, name⟩ = none) :
    ∃ what w', w.serve (.get k ns name) = (some (.error (.notFound what)), w') ∧
      w.OnlyRead w' :=
  ⟨_, _, hw.serve_get_of_missing hfree, .record w k _⟩

theorem serve_create (hw : w.Calm) {o : Object k} {p : Place} (hplace : o.place = .ok p)
    (hfree : w.cluster.find? k p = none) :
    ∃ stored w', w.serve (.create k o) = (some (.ok stored), w') ∧ w'.Calm ∧
      w'.cluster.writes = w.cluster.writes ++ [⟨.create, k, p⟩] := by
  rcases hserve : w.serve (.create k o) with ⟨reply, w₁⟩
  have hcreate := create_of_serve hserve
  have hcalls := Cluster.calls_create hw.isBroken hplace
  rw [hcreate] at hcalls
  cases Meets.create hw.isBroken hplace hfree hcreate with
  | outage _ _ hspends => exact absurd hspends hw.not_spends
  | course _ hreply hanswer houtages hwhole =>
    obtain ⟨stored, rfl⟩ := hanswer
    subst hreply
    refine ⟨stored, w₁, rfl, ⟨houtages.trans hw.outages, hwhole, fun j ↦ ?_⟩,
      Cluster.writes_of_calls hcalls rfl⟩
    rw [crashes_of_serve hw.crashes hserve, hw.crashes]

theorem serve_update (hw : w.Calm) {o live : Object k} {p : Place} (hplace : o.place = .ok p)
    (hfind : w.cluster.find? k p = some live) (hversion : Cluster.versionAgrees o live)
    (hnext : (Cluster.generationAfter? live o).isSome) :
    ∃ stored w', w.serve (.update k o) = (some (.ok stored), w') ∧ w'.Calm ∧
      w'.cluster.writes = w.cluster.writes ++ [⟨.update, k, p⟩] := by
  rcases hserve : w.serve (.update k o) with ⟨reply, w₁⟩
  have hupdate := update_of_serve hserve
  have hcalls : (w.cluster.update o).2.calls = _ := Cluster.calls_write hw.isBroken hplace
  rw [hupdate] at hcalls
  have hmerge : (Cluster.replaced? live o).isSome := by
    rw [Cluster.replaced?, Option.isSome_map]
    exact hnext
  cases Meets.write hw.isBroken hplace hfind hversion hmerge hupdate with
  | outage _ _ hspends => exact absurd hspends hw.not_spends
  | course _ hreply hanswer houtages hwhole =>
    obtain ⟨stored, rfl⟩ := hanswer
    subst hreply
    refine ⟨stored, w₁, rfl, ⟨houtages.trans hw.outages, hwhole, fun j ↦ ?_⟩,
      Cluster.writes_of_calls hcalls rfl⟩
    rw [crashes_of_serve hw.crashes hserve, hw.crashes]

end Calm

end World

/-- The write that brings the child in order, if it needs any: it is created where there is none,
and updated where it has drifted. -/
def AnyChild.due (child : AnyChild) (root : Root) (ns : String) (c : Cluster) : Option Call :=
  match c.find? child.kind ⟨ns, child.child.name⟩ with
  | none => some ⟨.create, child.kind, ⟨ns, child.child.name⟩⟩
  | some live =>
    if live.agreesWith (child.child.build root) then none
    else some ⟨.update, child.kind, ⟨ns, child.child.name⟩⟩

/-- The root can own children, and those that are stored can be written where they have to be. -/
structure Root.Commands (root : Root) (ns : String) (c : Cluster) : Prop where
  home : root.metadata.ns = some ns
  name : root.metadata.name.isSome
  uid : root.metadata.uid.isSome
  children : ∀ child ∈ plan root, ∀ o : Object child.kind,
    c.find? child.kind ⟨ns, child.child.name⟩ = some o →
      o.isControlledBy root ∧ o.Yields child.child root ns

structure Unhindered (root : Root) (home : Place) (ns : String) (first : Cluster)
    (settled : List Settlement) (todo : List AnyChild) (w : World) : Prop where
  progress : Progress root home settled todo w.cluster
  calm : w.Calm
  same : ∀ child ∈ todo, w.cluster.find? child.kind ⟨ns, child.child.name⟩ =
    first.find? child.kind ⟨ns, child.child.name⟩

def World.Makes (P : α → World → Prop) (w : World) (p : Pass α) (calls : List Call) : Prop :=
  ∃ a w', w.run p = (.ok a, w') ∧ P a w' ∧ w'.cluster.writes = w.cluster.writes ++ calls

namespace World.Makes

variable {P : α → World → Prop} {Q : β → World → Prop} {p : Pass α} {calls later : List Call}

theorem done {a : α} (h : P a w) : w.Makes P (.done a) [] :=
  ⟨a, w, rfl, h, (List.append_nil _).symm⟩

theorem bind {f : α → Pass β} (h : w.Makes P p calls)
    (hf : ∀ a w', P a w' → w'.Makes Q (f a) later) : w.Makes Q (p.bind f) (calls ++ later) := by
  obtain ⟨a, w₁, hrun, hP, hwrites⟩ := h
  obtain ⟨b, w₂, hrun', hQ, hwrites'⟩ := hf a w₁ hP
  refine ⟨b, w₂, (World.run_bind_of_ok hrun).trans hrun', hQ, ?_⟩
  rw [hwrites', hwrites, List.append_assoc]

theorem mono {P' : α → World → Prop} (h : w.Makes P p calls) (hP : ∀ a w', P a w' → P' a w') :
    w.Makes P' p calls := by
  obtain ⟨a, w', hrun, h, hwrites⟩ := h
  exact ⟨a, w', hrun, hP a w' h, hwrites⟩

end World.Makes

variable {root : Root} {home : Place} {ns : String} {first : Cluster}
  {settled : List Settlement} {todo : List AnyChild}

theorem World.Calm.converge_of_commands {child : Child k} (hw : w.Calm) (hns : root.metadata.ns = some ns)
    (hname : root.metadata.name.isSome) (huid : root.metadata.uid.isSome)
    (hcommands : ∀ o, w.cluster.find? k ⟨ns, child.name⟩ = some o →
      o.isControlledBy root ∧ o.Yields child root ns) :
    ∃ o w', w.run (converge root child) = (.ok o, w') ∧ w'.Calm ∧
      w'.cluster.writes =
        w.cluster.writes ++ (AnyChild.due ⟨k, child⟩ root ns w.cluster).toList := by
  unfold Submarine.converge AnyChild.due
  rw [hns]
  dsimp only
  cases hfind : w.cluster.find? k ⟨ns, child.name⟩ with
  | none =>
    obtain ⟨what, w₁, hserve, hread⟩ := hw.serve_missing hfind
    obtain ⟨newborn, hnewborn⟩ := Child.exists_newborn_of_isSome hname huid child ns
    rw [← hread.find?] at hfind
    obtain ⟨stored, w₂, hserve', hcalm, hwrites⟩ :=
      (hread.calm hw).serve_create (Child.newborn_spec hnewborn).1 hfind
    rw [hread.cluster.writes] at hwrites
    refine ⟨stored, w₂, (World.run_ask_of_serve hserve).trans ?_, hcalm, hwrites⟩
    dsimp only
    rw [hnewborn]
    exact World.run_ask_of_serve hserve'
  | some live =>
    obtain ⟨hcontrolled, hyields⟩ := hcommands live hfind
    obtain ⟨w₁, hserve, hread⟩ := hw.serve_get hfind
    by_cases hagrees : live.agreesWith (child.build root)
    · refine ⟨live, w₁, (World.run_ask_of_serve hserve).trans ?_, hread.calm hw, ?_⟩
      · dsimp only
        rw [if_pos hcontrolled, if_pos hagrees]
        rfl
      · simp [hagrees, hread.cluster.writes]
    · obtain ⟨hplace, hnext⟩ := hyields.resolve_left hagrees
      have hplace' : (child.renewed root live).place = .ok ⟨ns, child.name⟩ :=
        (Object.place_congr rfl rfl).trans hplace
      have hversion : Cluster.versionAgrees (child.renewed root live) live := by
        simp [Cluster.versionAgrees, Child.renewed]
      rw [← hread.find?] at hfind
      obtain ⟨stored, w₂, hserve', hcalm, hwrites⟩ :=
        (hread.calm hw).serve_update hplace' hfind hversion hnext
      refine ⟨stored, w₂, (World.run_ask_of_serve hserve).trans ?_, hcalm, ?_⟩
      · dsimp only
        rw [if_pos hcontrolled, if_neg hagrees]
        exact World.run_ask_of_serve hserve'
      · simp [hagrees, hwrites, hread.cluster.writes]

theorem filterMap_due_cons (c : AnyChild) (rest : List AnyChild) :
    (c :: rest).filterMap (·.due root ns first) =
      (c.due root ns first).toList ++ rest.filterMap (·.due root ns first) := by
  rw [List.filterMap_cons]
  cases c.due root ns first <;> rfl

namespace Unhindered

theorem converge {child : Child k} (hroot : root.Commands ns first)
    (h : Unhindered root home ns first settled (⟨k, child⟩ :: todo) w) :
    w.Makes (fun o w' ↦ Unhindered root home ns first (settled ++ [⟨⟨k, child⟩, o⟩]) todo w')
      (Submarine.converge root child) (AnyChild.due ⟨k, child⟩ root ns first).toList := by
  have hmem : ⟨k, child⟩ ∈ plan root := by
    rw [← h.progress.plan]
    simp
  have hfirst := h.same ⟨k, child⟩ (List.mem_cons_self ..)
  obtain ⟨o, w', hrun, hcalm, hwrites⟩ := h.calm.converge_of_commands hroot.home hroot.name
    hroot.uid fun live hlive ↦ hroot.children ⟨k, child⟩ hmem live (hfirst ▸ hlive)
  have hdue : AnyChild.due ⟨k, child⟩ root ns w.cluster = AnyChild.due ⟨k, child⟩ root ns first := by
    unfold AnyChild.due
    rw [hfirst]
  rw [hdue] at hwrites
  have hsettled := Settled.of_run h.progress.stamped (Plan.kind_ne_submarine hmem) hrun
  refine ⟨o, w', hrun, ⟨h.progress.converge hrun, hcalm, fun other hother ↦ ?_⟩, hwrites⟩
  rw [hsettled.find?_of_ne ns _ _ hroot.home, h.same other (List.mem_cons_of_mem _ hother)]
  -- The names of the children still to come are other names.
  intro hsame
  have hnodup := Plan.nodup_labels root
  rw [← h.progress.plan, List.map_append, List.map_cons, List.nodup_append, List.nodup_cons]
    at hnodup
  refine hnodup.2.1.1 (List.mem_map.2 ⟨other, hother, ?_⟩)
  exact Prod.ext hsame.1 (congrArg Place.name hsame.2)

theorem convergeAll {now : List AnyChild} (hroot : root.Commands ns first)
    (h : Unhindered root home ns first settled (now ++ todo) w) :
    w.Makes (fun _ w' ↦ ∃ more, Unhindered root home ns first (settled ++ more) todo w')
      (Submarine.convergeAll root now) (now.filterMap (·.due root ns first)) := by
  induction now generalizing settled w with
  | nil => exact .done ⟨[], by simpa using h⟩
  | cons c rest ih =>
    rw [filterMap_due_cons]
    refine (h.converge hroot).bind fun o w₁ h₁ ↦ (ih h₁).mono fun _ w' ⟨more, hmore⟩ ↦ ?_
    exact ⟨_ :: more, by simpa using hmore⟩

theorem convergeServer (hroot : root.Commands ns first)
    (h : Unhindered root home ns first settled (Plan.server ++ todo) w) :
    w.Makes (fun server w' ↦ ∃ more, Unhindered root home ns first (settled ++ more) todo w' ∧
        ⟨⟨_, Child.serverDeployment⟩, server⟩ ∈ more)
      (Submarine.convergeServer root) (Plan.server.filterMap (·.due root ns first)) := by
  simp only [Plan.server, filterMap_due_cons, List.filterMap_nil]
  refine (h.converge hroot).bind fun account w₁ h₁ ↦ ?_
  refine (h₁.converge hroot).bind fun deployment w₂ h₂ ↦ ?_
  refine (h₂.converge hroot).bind fun service w₃ h₃ ↦ ?_
  simp only [List.append_assoc] at h₃
  exact .done ⟨_, h₃, by simp⟩

theorem convergeDatabaseSet (hroot : root.Commands ns first)
    (h : Unhindered root home ns first settled
      (⟨_, Child.databaseSet⟩ :: ⟨_, Child.databaseService⟩ :: todo) w) :
    w.Makes (fun database w' ↦ ∃ more, Unhindered root home ns first (settled ++ more) todo w' ∧
        ⟨⟨_, Child.databaseSet⟩, database⟩ ∈ more)
      (Submarine.convergeDatabaseSet root)
      ([⟨_, Child.databaseSet⟩, ⟨_, Child.databaseService⟩].filterMap
        fun c : AnyChild ↦ c.due root ns first) := by
  simp only [filterMap_due_cons, List.filterMap_nil]
  refine (h.converge hroot).bind fun set w₁ h₁ ↦ ?_
  refine (h₁.converge hroot).bind fun service w₂ h₂ ↦ ?_
  simp only [List.append_assoc] at h₂
  exact .done ⟨_, h₂, by simp⟩

theorem convergeDatabase (hroot : root.Commands ns first)
    (h : Unhindered root home ns first settled (Plan.database root ++ todo) w) :
    w.Makes (fun database w' ↦ ∃ more, Unhindered root home ns first (settled ++ more) todo w' ∧
        ⟨⟨_, Child.databaseSet⟩, database⟩ ∈ more)
      (Submarine.convergeDatabase root)
      ((Plan.database root).filterMap (·.due root ns first)) := by
  have hlater : ∀ {claims : List Settlement} {w' : World}, Unhindered root home ns first
      (settled ++ claims) (⟨_, Child.databaseSet⟩ :: ⟨_, Child.databaseService⟩ :: todo) w' →
      w'.Makes (fun database w' ↦ ∃ more, Unhindered root home ns first (settled ++ more) todo w' ∧
          ⟨⟨_, Child.databaseSet⟩, database⟩ ∈ more) (Submarine.convergeDatabaseSet root)
        ([⟨_, Child.databaseSet⟩, ⟨_, Child.databaseService⟩].filterMap
          fun c : AnyChild ↦ c.due root ns first) := by
    intro claims w' h'
    refine (h'.convergeDatabaseSet hroot).mono fun database w'' ⟨more, hmore, hmem⟩ ↦ ?_
    exact ⟨claims ++ more, by simpa using hmore, List.mem_append_right _ hmem⟩
  rw [convergeDatabase_eq, Plan.database, List.append_assoc, List.cons_append, List.nil_append,
    filterMap_due_cons]
  by_cases hmanages : Manifest.Database.managesSecret root
  · simp only [Plan.database, hmanages, if_true, List.cons_append, List.nil_append] at h ⊢
    rw [filterMap_due_cons]
    refine (h.converge hroot).bind fun claim w₁ h₁ ↦ (h₁.converge hroot).bind fun secret w₂ h₂ ↦ ?_
    rw [List.append_assoc] at h₂
    exact hlater h₂
  · simp only [Plan.database, hmanages, if_false, List.cons_append, List.nil_append,
      Bool.false_eq_true] at h ⊢
    exact (h.converge hroot).bind fun claim w₁ h₁ ↦ hlater h₁

end Unhindered

def Root.statusDue (root : Root) (p : Place) (server : Object .deployment)
    (database : Object .statefulSet) (now : Time.Instant) : List Call :=
  if root.status = some (observedStatus root server database now) then []
  else [⟨.updateStatus, .submarine, p⟩]

theorem World.Calm.reportStatus_writes (hw : w.Calm) {p : Place} (hplace : root.place = .ok p)
    (server : Object .deployment) (database : Object .statefulSet) :
    (w.run (reportStatus root server database)).2.cluster.writes =
        w.cluster.writes ++ root.statusDue p server database w.clock ∧
      ∀ k q, k ≠ .submarine →
        (w.run (reportStatus root server database)).2.cluster.find? k q = w.cluster.find? k q := by
  have hnow : w.serve .now = (some w.clock, w) := rfl
  unfold reportStatus Root.statusDue
  rw [World.run_ask_of_serve hnow]
  dsimp only
  split
  · exact ⟨(List.append_nil _).symm, fun _ _ _ ↦ rfl⟩
  · let reported := root.withStatus (observedStatus root server database w.clock)
    rcases hserve : w.serve (.updateStatus .submarine reported) with ⟨reply, w₁⟩
    have hupdate := World.updateStatus_of_serve hserve
    have hcalls : (w.cluster.updateStatus reported).2.calls =
        w.cluster.calls ++ [⟨.updateStatus, .submarine, p⟩] :=
      Cluster.calls_write hw.isBroken ((Object.place_congr rfl rfl).trans hplace)
    rw [hupdate] at hcalls
    have hothers : ∀ k q, k ≠ .submarine → w₁.cluster.find? k q = w.cluster.find? k q := by
      intro k q hk
      rcases Cluster.write_spec hupdate with
        ⟨_, _, _, -, -, -, -, hstores, -⟩ | ⟨hsame, -⟩
      · exact hstores.find?_of_ne k q fun hself ↦ hk hself.1
      · exact hsame.find? k q
    -- However the write ends, nothing is asked after it.
    have hend : (w.run (do
        let _ ← Pass.call (α := Root) (.updateStatus .submarine reported) rfl
        return ())).2 = w₁ := by
      change (w.run (.ask (.updateStatus .submarine reported) _)).2 = w₁
      rw [World.run, hserve]
      rcases reply with _ | (e | stored) <;> rfl
    exact ⟨hend ▸ Cluster.writes_of_calls hcalls rfl, hend ▸ hothers⟩

/-- A pass that nothing hinders brings each child in order that is not, and then the status. -/
theorem Root.Commands.reconcileRoot_writes {p : Place} (hroot : root.Commands ns w.cluster)
    (hplace : root.place = .ok p) (hw : w.Calm) (hstamped : Stamped w.cluster)
    (hfind : w.cluster.find? .submarine home = some root) :
    ∃ server database,
      Settlement.Stands ⟨⟨_, Child.serverDeployment⟩, server⟩ root
        (w.run (reconcileRoot root)).2.cluster ∧
      Settlement.Stands ⟨⟨_, Child.databaseSet⟩, database⟩ root
        (w.run (reconcileRoot root)).2.cluster ∧
      (w.run (reconcileRoot root)).2.cluster.writes =
        w.cluster.writes ++ (plan root).filterMap (·.due root ns w.cluster) ++
          root.statusDue p server database w.clock := by
  have h₀ : Unhindered root home ns w.cluster [] (plan root) w :=
    ⟨⟨hstamped, hfind, rfl, by simp, by simp⟩, hw, fun _ _ ↦ rfl⟩
  simp only [plan, List.append_assoc] at h₀
  obtain ⟨server, w₁, hrun₁, ⟨more₁, h₁, hserver⟩, hwrites₁⟩ := h₀.convergeServer hroot
  obtain ⟨database, w₂, hrun₂, ⟨more₂, h₂, hdatabase⟩, hwrites₂⟩ := h₁.convergeDatabase hroot
  obtain ⟨_, w₃, hrun₃, ⟨more₃, h₃⟩, hwrites₃⟩ := h₂.convergeAll hroot
  rw [← List.append_nil (Plan.auxiliaries root)] at h₃
  obtain ⟨_, w₄, hrun₄, ⟨more₄, h₄⟩, hwrites₄⟩ := h₃.convergeAll hroot
  obtain ⟨hreport, hothers⟩ := h₄.calm.reportStatus_writes hplace server database
  have hclock : w₄.clock = w.clock := by
    rw [World.clock_of_run hrun₄, World.clock_of_run hrun₃, World.clock_of_run hrun₂,
      World.clock_of_run hrun₁]
  have hcluster : (w.run (reconcileRoot root)).2.cluster =
      (w₄.run (reportStatus root server database)).2.cluster := by
    have hrun : w.run (reconcileRoot root) = w₄.run ((reportStatus root server database).bind
        fun _ ↦ (Pass.request (.publish (.synced root))).bind fun _ ↦ .done ()) := by
      rw [reconcileRoot_eq_planned]
      refine (World.run_bind_of_ok hrun₁).trans ((World.run_bind_of_ok hrun₂).trans ?_)
      exact (World.run_bind_of_ok hrun₃).trans (World.run_bind_of_ok hrun₄)
    rw [hrun, World.run_bind]
    rcases w₄.run (reportStatus root server database) with ⟨_ | _, w₅⟩ <;> rfl
  have hstands : ∀ s ∈ [] ++ more₁ ++ more₂ ++ more₃ ++ more₄,
      s.Stands root (w.run (reconcileRoot root)).2.cluster := by
    intro s hs
    have hplan : s.child ∈ plan root := by
      rw [← h₄.progress.plan, List.append_nil]
      exact List.mem_map_of_mem hs
    rw [hcluster]
    exact (h₄.progress.stands s hs).sameDeclaration (.refl root) hplan hothers
  refine ⟨server, database, hstands _ (by simp [hserver]), hstands _ (by simp [hdatabase]), ?_⟩
  rw [hcluster, hreport, hwrites₄, hwrites₃, hwrites₂, hwrites₁, hclock]
  simp only [plan, List.filterMap_append, List.append_assoc]

/-- A pass over the old root has just ended well. Since then the root was edited, and the cache has
taken note. No name that the new root needs is held by an object that it does not control, and no
call is to fail. -/
structure Revised (key : String) (home : Place) (old new : Root) (first w : World) : Prop where
  splits : splitKey? key = some (home.ns, home.name)
  reachable : first.cluster.Reachable
  stored_old : first.cluster.find? .submarine home = some old
  cached_old : first.roots.get? home.ns home.name = some old
  valid_old : old.spec.validate = .ok ()
  stays_old : old.metadata.deletionTimestamp = none
  succeeded : (first.run (reconcile key)).1 = .ok ()
  edited : ∃ edit, (first.run (reconcile key)).2.cluster.modify home edit = (.ok new, w.cluster)
  cached : w.roots.get? home.ns home.name = some new
  same_name : new.metadata.name = old.metadata.name
  same_ns : new.metadata.ns = old.metadata.ns
  same_uid : new.metadata.uid = old.metadata.uid
  valid : new.spec.validate = .ok ()
  stays : new.metadata.deletionTimestamp = none
  controlled : ∀ child ∈ plan new, ∀ ns (o : Object child.kind), new.metadata.ns = some ns →
    w.cluster.find? child.kind ⟨ns, child.child.name⟩ = some o → o.isControlledBy new
  outages : w.cluster.outages = []
  crashes : ∀ k, w.crashes k = 0

/-- What the pass over the new root writes is what the edit calls for. -/
structure Amends (old new : Root) (ns : String) (w w' : World) : Prop where
  -- One write for each child of the new root that has to be created or updated, and one for the
  -- status unless it is the one observed.
  writes : ∃ p server database, new.place = .ok p ∧
    Settlement.Stands ⟨⟨_, Child.serverDeployment⟩, server⟩ new w'.cluster ∧
    Settlement.Stands ⟨⟨_, Child.databaseSet⟩, database⟩ new w'.cluster ∧
    w'.cluster.writes = w.cluster.writes ++ (plan new).filterMap (·.due new ns w.cluster) ++
      new.statusDue p server database w.clock
  -- A child that the old root declares too is updated just if it is built differently, and never if
  -- only its kind's creation is up to the root.
  kept : ∀ child ∈ plan old, child.due new ns w.cluster =
    if child.kind.isCreateOnly ∨ child.child.build old = child.child.build new then none
    else some ⟨.update, child.kind, ⟨ns, child.child.name⟩⟩
  -- A child that only the old root declares stays as it is.
  dropped : ∀ child ∈ plan old, child ∉ plan new →
    w'.cluster.find? child.kind ⟨ns, child.child.name⟩ =
      w.cluster.find? child.kind ⟨ns, child.child.name⟩

namespace Revised

variable {key : String} {old new : Root} {world : World}

/-- The old root's children stand as the first pass left them. -/
theorem stands (h : Revised key home old new world w) :
    w.Calm ∧ Stamped w.cluster ∧ w.cluster.find? .submarine home = some new ∧
      ∀ child ∈ plan old, ∃ o, Settlement.Stands ⟨child, o⟩ old w.cluster := by
  rcases hrun : world.run (reconcile key) with ⟨result, w₁⟩
  obtain ⟨edit, hedit⟩ := h.edited
  have hresult := h.succeeded
  rw [hrun] at hedit hresult
  dsimp only at hedit hresult
  subst hresult
  have hstamped₁ : Stamped w₁.cluster := by
    have hall := World.stamped_run (.reachable h.reachable) (reconcile key)
    rwa [hrun] at hall
  rw [run_reconcile h.splits h.cached_old h.valid_old h.stays_old] at hrun
  obtain ⟨root, hfinished, hsame, -⟩ :=
    finished_of_run (.reachable h.reachable) h.stored_old hrun
  obtain ⟨hfind, ⟨_, hstores⟩, hbroken⟩ := Cluster.modify_ok hedit
  refine ⟨⟨h.outages, hbroken.trans hfinished.isBroken, h.crashes⟩,
    hstamped₁.effect (.stores _ _ hstores), hfind, fun child hchild ↦ ?_⟩
  rw [← hsame.plan] at hchild
  obtain ⟨o, ho⟩ := hfinished.stands child hchild
  refine ⟨o, ho.sameDeclaration hsame.symm hchild fun k p hk ↦ ?_⟩
  exact hstores.find?_of_ne k p fun hself ↦ hk hself.1

/-- A child that stands for the old root is updated for the new one just if that builds it
differently. -/
theorem due_of_stands {ns : String} {child : AnyChild} {o : Object child.kind}
    (hchild : child ∈ plan old) (hns : new.metadata.ns = some ns)
    (hsame : new.metadata.ns = old.metadata.ns)
    (h : Settlement.Stands ⟨child, o⟩ old w.cluster) :
    child.due new ns w.cluster =
      if child.kind.isCreateOnly ∨ child.child.build old = child.child.build new then none
      else some ⟨.update, child.kind, ⟨ns, child.child.name⟩⟩ := by
  obtain ⟨ns', hns', hfind, -, hagrees⟩ := h
  obtain rfl := Option.some.inj (hns.symm.trans (hsame.trans hns'))
  unfold AnyChild.due
  dsimp only at hfind hagrees
  rw [hfind]
  dsimp only
  congr 1
  rw [eq_iff_iff, Object.agreesWith_congr_left hagrees]
  cases hkind : child.kind.isCreateOnly with
  | true => simp [Content.agreesWith_of_isCreateOnly hkind, Object.agreesWith]
  | false =>
    simp [AnyChild.agreesWith_build_iff ((Plan.sublist_full old).subset hchild) hkind hsame]

theorem amends {ns : String} (h : Revised key home old new world w)
    (hns : new.metadata.ns = some ns)
    (hyields : ∀ child ∈ plan new, ∀ o : Object child.kind,
      w.cluster.find? child.kind ⟨ns, child.child.name⟩ = some o → o.Yields child.child new ns) :
    Amends old new ns w (w.run (reconcile key)).2 := by
  obtain ⟨hcalm, hstamped, hfind, hstands⟩ := h.stands
  -- The root controls a child, so it has a name and a uid.
  obtain ⟨_, -, -, -, hcontrolled, -⟩ := hstands ⟨_, Child.serverAccount⟩ (by simp [plan, Plan.server])
  obtain ⟨hname, huid⟩ := Object.isSome_of_isControlledBy hcontrolled
  rw [← h.same_name] at hname
  rw [← h.same_uid] at huid
  obtain ⟨name, hname'⟩ := Option.isSome_iff_exists.1 hname
  have hplace : new.place = .ok ⟨ns, name⟩ := Object.place_eq_ok_iff.2 ⟨hname', hns⟩
  have hcommands : new.Commands ns w.cluster := ⟨hns, hname, huid, fun child hchild o ho ↦
    ⟨h.controlled child hchild ns o hns ho, hyields child hchild o ho⟩⟩
  obtain ⟨server, database, hserver, hdatabase, hwrites⟩ :=
    hcommands.reconcileRoot_writes hplace hcalm hstamped hfind
  have hguarded : (reconcileRoot new).Guarded new (plan new) none w.cluster :=
    ⟨Pass.Disciplined.reconcileRoot none, by simp⟩
  rw [run_reconcile h.splits h.cached h.valid h.stays]
  refine ⟨⟨_, server, database, hplace, hserver, hdatabase, hwrites⟩, fun child hchild ↦ ?_,
    fun child hchild hgone ↦ ?_⟩
  · obtain ⟨o, ho⟩ := hstands child hchild
    exact due_of_stands hchild hns h.same_ns ho
  · refine (hguarded.spares_run hstamped).others _ _ ?_ fun hself ↦
      Plan.kind_ne_submarine hchild hself.1
    rintro ⟨other, ns', hother, -, hp⟩
    refine hgone ?_
    have hlabel : child.label = AnyChild.label ⟨child.kind, other⟩ :=
      Prod.ext rfl (congrArg Place.name hp)
    rwa [List.inj_on_of_nodup_map Plan.nodup_labels_full ((Plan.sublist_full old).subset hchild)
      ((Plan.sublist_full new).subset hother) hlabel]

section Scenes

open Cluster (empty)
open Rounds (afresh)
open Interplay (sampleService)

abbrev demo : Place := ⟨"default", "demo"⟩

def editedAfter (c : Cluster) (edit : Root → Root) : Except Cluster.EditFault Root × Cluster :=
  ((afresh demo "default/demo" c).run (reconcile "default/demo")).2.cluster.modify demo
    fun root ↦ some (edit root)

theorem revised_of_all {c : Cluster} {edit : Root → Root} {old new : Root} (hc : c.Reachable)
    (hold : c.find? .submarine demo = some old ∧ old.spec.validate = .ok () ∧
      old.metadata.deletionTimestamp = none)
    (hsucceeded : ((afresh demo "default/demo" c).run (reconcile "default/demo")).1 = .ok ())
    (hedited : (editedAfter c edit).1 = .ok new)
    (hsame : new.metadata.name = old.metadata.name ∧ new.metadata.ns = old.metadata.ns ∧
      new.metadata.uid = old.metadata.uid)
    (hnew : new.metadata.ns = some "default" ∧ new.spec.validate = .ok () ∧
      new.metadata.deletionTimestamp = none)
    (houtages : (editedAfter c edit).2.outages = [])
    (hcontrolled : ∀ child ∈ plan new, ∀ o : Object child.kind,
      (editedAfter c edit).2.find? child.kind ⟨"default", child.child.name⟩ = some o →
        o.isControlledBy new) :
    Revised "default/demo" demo old new (afresh demo "default/demo" c)
      (afresh demo "default/demo" (editedAfter c edit).2) where
  splits := by decide +kernel
  reachable := hc
  stored_old := hold.1
  cached_old := (Rounds.get?_afresh demo "default/demo" c).trans hold.1
  valid_old := hold.2.1
  stays_old := hold.2.2
  succeeded := hsucceeded
  edited := ⟨_, Prod.ext hedited rfl⟩
  cached := by
    have hmodify : (editedAfter c edit) = (.ok new, (editedAfter c edit).2) := Prod.ext hedited rfl
    exact (Rounds.get?_afresh demo "default/demo" _).trans (Cluster.modify_ok hmodify).1
  same_name := hsame.1
  same_ns := hsame.2.1
  same_uid := hsame.2.2
  valid := hnew.2.1
  stays := hnew.2.2
  controlled child hchild ns o hns ho := by
    obtain rfl := Option.some.inj (hnew.1.symm.trans hns)
    exact hcontrolled child hchild o ho
  outages := houtages
  crashes _ := rfl

def toggled (root : Root) : Root :=
  { root with
    content := show InstallationContent from
      { root.content with
        spec := { root.spec with
          version := "0.9"
          mlflow := {}
          database := { root.spec.database with rootPasswordSecret := some "mine" } } } }

def prepared : Cluster := empty.performAll [
  .insert .submarine Root.sample,
  .insert .service { sampleService with
    metadata := { sampleService.metadata with name := some "submarine-mlflow-service" } }]

def preparedNew : Root := ((editedAfter prepared toggled).1.toOption).getD Root.sample

def secondOf (c : Cluster) (edit : Root → Root) : World :=
  afresh demo "default/demo" (editedAfter c edit).2

theorem amends_of_toggled :
    Revised "default/demo" demo (Root.sample.withVersion 1) preparedNew
        (afresh demo "default/demo" prepared) (secondOf prepared toggled) ∧
      (plan preparedNew).filterMap (·.due preparedNew "default" (secondOf prepared toggled).cluster) =
        [⟨.update, .deployment, ⟨"default", "submarine-server"⟩⟩,
          ⟨.update, .statefulSet, ⟨"default", "submarine-database"⟩⟩,
          ⟨.create, .persistentVolumeClaim, ⟨"default", "submarine-mlflow-pvc"⟩⟩,
          ⟨.create, .deployment, ⟨"default", "submarine-mlflow"⟩⟩,
          ⟨.update, .service, ⟨"default", "submarine-mlflow-service"⟩⟩,
          ⟨.create, .ingressRoute, ⟨"default", "submarine-mlflow-ingressroute"⟩⟩] ∧
      Amends (Root.sample.withVersion 1) preparedNew "default" (secondOf prepared toggled)
        ((secondOf prepared toggled).run (reconcile "default/demo")).2 := by
  have hold : prepared.find? .submarine demo = some (Root.sample.withVersion 1) := by decide +kernel
  have hsucceeded : ((afresh demo "default/demo" prepared).run (reconcile "default/demo")).1 =
      .ok () := by decide +kernel
  have hedited : (editedAfter prepared toggled).1 = .ok preparedNew := by decide +kernel
  have hsame : preparedNew.metadata.name = some "demo" ∧ preparedNew.metadata.ns = some "default" ∧
      preparedNew.metadata.uid = some "u-1" := by decide +kernel
  have hvalid : preparedNew.spec.validate = .ok () ∧
      preparedNew.metadata.deletionTimestamp = none := by decide +kernel
  have hcontrolled : ∀ child ∈ plan preparedNew,
      ((editedAfter prepared toggled).2.find? child.kind ⟨"default", child.child.name⟩).all
        fun o ↦ decide (o.isControlledBy preparedNew ∧
          o.Yields child.child preparedNew "default") := by decide +kernel
  have hmeets : ∀ child ∈ plan preparedNew, ∀ o : Object child.kind,
      (editedAfter prepared toggled).2.find? child.kind ⟨"default", child.child.name⟩ = some o →
        o.isControlledBy preparedNew ∧ o.Yields child.child preparedNew "default" :=
    fun child hchild o ho ↦
      of_decide_eq_true ((Option.all_eq_true _ _).1 (hcontrolled child hchild) o ho)
  have hrevised : Revised "default/demo" demo (Root.sample.withVersion 1) preparedNew
      (afresh demo "default/demo" prepared) (secondOf prepared toggled) :=
    revised_of_all (.performAll .empty _) ⟨hold, rfl, rfl⟩ hsucceeded hedited hsame
      ⟨hsame.2.1, hvalid⟩ (by decide +kernel) fun child hchild o ho ↦ (hmeets child hchild o ho).1
  refine ⟨hrevised, by decide +kernel, hrevised.amends hsame.2.1 fun child hchild o ho ↦ ?_⟩
  exact (hmeets child hchild o ho).2

/-- The edit is not followed up, though nothing but an edit lies between the passes. -/
def Misses (c : Cluster) (edit : Root → Root) (old new : Root) : Prop :=
  Revised "default/demo" demo old new (afresh demo "default/demo" c) (secondOf c edit) ∧
    ¬ Amends old new "default" (secondOf c edit)
      ((secondOf c edit).run (reconcile "default/demo")).2

theorem misses_of_length {c : Cluster} {edit : Root → Root} {old new : Root} (hc : c.Reachable)
    (hold : c.find? .submarine demo = some old ∧ old.spec.validate = .ok () ∧
      old.metadata.deletionTimestamp = none)
    (hsucceeded : ((afresh demo "default/demo" c).run (reconcile "default/demo")).1 = .ok ())
    (hedited : (editedAfter c edit).1 = .ok new)
    (hsame : new.metadata.name = old.metadata.name ∧ new.metadata.ns = old.metadata.ns ∧
      new.metadata.uid = old.metadata.uid)
    (hnew : new.metadata.ns = some "default" ∧ new.spec.validate = .ok () ∧
      new.metadata.deletionTimestamp = none)
    (houtages : (editedAfter c edit).2.outages = [])
    (hcontrolled : ∀ child ∈ plan new,
      ((editedAfter c edit).2.find? child.kind ⟨"default", child.child.name⟩).all
        (·.isControlledBy new))
    (hfew : ((secondOf c edit).run (reconcile "default/demo")).2.cluster.writes.length <
      (secondOf c edit).cluster.writes.length +
        ((plan new).filterMap (·.due new "default" (secondOf c edit).cluster)).length) :
    Misses c edit old new := by
  have hrevised := revised_of_all hc hold hsucceeded hedited hsame hnew houtages
    fun child hchild ↦ (Option.all_eq_true _ _).1 (hcontrolled child hchild)
  refine ⟨hrevised, fun hamends ↦ ?_⟩
  obtain ⟨p, server, database, -, -, -, hwrites⟩ := hamends.writes
  rw [hwrites, List.length_append, List.length_append] at hfew
  omega

def renewed (root : Root) : Root :=
  { root with
    content := show InstallationContent from
      { root.content with spec := { root.spec with version := "0.9" } } }

def sampleDeployment : Object .deployment :=
  { Manifest.Server.deployment Root.sample with
    metadata := { sampleService.metadata with name := some "submarine-server" } }

def strayed : Cluster := empty.performAll [
  .insert .submarine Root.sample,
  .insert .deployment sampleDeployment,
  .modify .deployment ⟨"default", "submarine-server"⟩ fun o ↦
    some { o with metadata := { o.metadata with name := some "stray" } }]

def exhausted : Cluster := empty.performAll [
  .insert .submarine Root.sample,
  .insert .deployment
    { sampleDeployment with
      metadata := { sampleDeployment.metadata with generation := some Int64.maxValue } }]

def newOf (c : Cluster) : Root := ((editedAfter c renewed).1.toOption).getD Root.sample

/-- In either case the update of the server fails, and the database is not updated any more. -/
theorem misses_of_strayed_of_exhausted :
    Misses strayed renewed (Root.sample.withVersion 1) (newOf strayed) ∧
      Misses exhausted renewed (Root.sample.withVersion 1) (newOf exhausted) := by
  refine ⟨?_, ?_⟩
  all_goals
    refine misses_of_length (.performAll .empty _) ?_ ?_ ?_ ?_ ?_ ?_ ?_ ?_
    all_goals decide +kernel

end Scenes

end Revised

end Submarine
