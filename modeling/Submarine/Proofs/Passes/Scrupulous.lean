import Submarine.Proofs.Passes.Stepping

namespace Submarine

variable {k : Kind} {α β : Type} {root : Root} {supply : Kind → Place → Int32}
  {seen : Option Sight}

def Content.available : {k : Kind} → Content k → Int32
  | .deployment, (c : DeploymentContent) => (c.status.bind (·.availableReplicas)).getD 0
  | .statefulSet, (c : StatefulSetContent) => (c.status.bind (·.availableReplicas)).getD 0
  | .submarine, _ | .configMap, _ | .service, _ | .persistentVolumeClaim, _ | .serviceAccount, _
  | .secret, _ | .role, _ | .roleBinding, _ | .ingress, _ | .ingressRoute, _ => 0

theorem Content.available_withStatusOf (content stored : Content k) :
    (content.withStatusOf stored).available = stored.available := by
  cases k <;> rfl

def Object.available (o : Object k) : Int32 := o.content.available

/-- Nothing is available of what has just been built. -/
theorem AnyChild.available_build {c : AnyChild} (hc : c ∈ plan root) :
    (c.child.build root).available = 0 := by
  have hfull := (Plan.sublist_full root).subset hc
  simp only [Plan.full, Plan.server, Plan.access, Plan.auxiliary, List.mem_append, List.mem_cons,
    List.not_mem_nil, or_false, List.mem_flatMap] at hfull
  rcases hfull with (((rfl | rfl | rfl) | (rfl | rfl) | rfl | rfl) | rfl | rfl | rfl) |
    ⟨aux, -, rfl | rfl | rfl | rfl⟩ <;> rfl

/-- The root reports what there is of its server and of its database, and the phase that this comes
to. -/
def Root.Reports (root : Root) (supply : Kind → Place → Int32) : Prop :=
  ∃ status ns, root.status = some status ∧ root.metadata.ns = some ns ∧
    status.availableServerReplicas =
      supply .deployment ⟨ns, Child.serverDeployment.name⟩ ∧
    status.availableDatabaseReplicas =
      supply .statefulSet ⟨ns, Child.databaseSet.name⟩ ∧
    status.state.phase = observedPhase root.spec status.availableServerReplicas
      status.availableDatabaseReplicas

namespace Request

/-- What is written has to be written, as far as the pass can know. -/
def IsDue (root : Root) (supply : Kind → Place → Int32) (seen : Option Sight) : Request → Prop
  | update k o => ∃ p live, seen = some ⟨k, p, live⟩ ∧ live.agreesWith o = false
  | updateStatus k o => ∃ status, AnyObject.mk k o = ⟨.submarine, root.withStatus status⟩ ∧
      (root.withStatus status).Reports supply ∧ ¬ root.Reports supply
  | cachedRoot _ _ | get _ _ _ | create _ _ | publish _ | now => True

def Credits (supply : Kind → Place → Int32) : (r : Request) → r.Answer → Prop
  | get k ns name, (answer : Except ApiError (Object k)) => ∀ live, answer = .ok live →
      live.place = .ok ⟨ns, name⟩ ∧ live.available = supply k ⟨ns, name⟩
  | create k o, (answer : Except ApiError (Object k))
  | update k o, (answer : Except ApiError (Object k)) => ∀ stored p, answer = .ok stored →
      o.place = .ok p → stored.available = supply k p
  | cachedRoot _ _, _ | updateStatus _ _, _ | publish _, _ | now, _ => True

end Request

/-- As long as it is answered credibly, the pass writes only what is due, and where it ends with a
value, that satisfies `Q`. -/
def Pass.Scrupulous (root : Root) (supply : Kind → Place → Int32) (Q : α → Prop) :
    Option Sight → Pass α → Prop
  | _, done a => Q a
  | _, fail _ => True
  | seen, ask r next => r.IsDue root supply seen ∧ ∀ answer, r.Credits supply answer →
      (next answer).Scrupulous root supply Q (sightAfter seen r answer)

namespace Pass.Scrupulous

theorem bind {Q : α → Prop} {R : β → Prop} {p : Pass α} {f : α → Pass β}
    (h : p.Scrupulous root supply Q seen)
    (hf : ∀ a seen, Q a → (f a).Scrupulous root supply R seen) :
    (p.bind f).Scrupulous root supply R seen := by
  induction p generalizing seen with
  | done a => exact hf a seen h
  | fail e => exact h
  | ask r next ih => exact ⟨h.1, fun answer hanswer ↦ ih answer (h.2 answer hanswer)⟩

/-- What a child came out as tells what is available in its place. -/
theorem converge (child : Child k) (seen : Option Sight) :
    (converge root child).Scrupulous root supply
      (fun o ↦ ∃ ns, root.metadata.ns = some ns ∧
        o.available = supply k ⟨ns, child.name⟩) seen := by
  unfold Submarine.converge
  split
  · exact trivial
  · next ns hns =>
    refine ⟨trivial, fun (found : Except ApiError (Object k)) hfound ↦ ?_⟩
    rcases found with e | live
    · cases e with
      | notFound what =>
        dsimp only
        rcases hnewborn : child.newborn root ns with fault | newborn
        · exact trivial
        · obtain ⟨hplace, -, -⟩ := Child.newborn_spec hnewborn
          refine ⟨trivial, fun (answer : Except ApiError (Object k)) hanswer ↦ ?_⟩
          rcases answer with e | stored
          · exact trivial
          · exact ⟨ns, hns, hanswer stored _ rfl hplace⟩
      | _ => exact trivial
    · obtain ⟨hplace, havailable⟩ := hfound live rfl
      dsimp only
      split
      · split
        · exact ⟨ns, hns, havailable⟩
        · next hdrifted =>
          refine ⟨⟨_, live, rfl, Bool.eq_false_iff.2 hdrifted⟩,
            fun (answer : Except ApiError (Object k)) hanswer ↦ ?_⟩
          rcases answer with e | stored
          · exact trivial
          · exact ⟨ns, hns, hanswer stored _ rfl hplace⟩
      · exact ⟨trivial, fun _ _ ↦ trivial⟩

/-- A status that is already reported is observed as it is. -/
theorem reportStatus {server : Object .deployment} {database : Object .statefulSet}
    (hserver : ∃ ns, root.metadata.ns = some ns ∧
      server.available = supply .deployment ⟨ns, Child.serverDeployment.name⟩)
    (hdatabase : ∃ ns, root.metadata.ns = some ns ∧
      database.available = supply .statefulSet ⟨ns, Child.databaseSet.name⟩)
    (seen : Option Sight) :
    (reportStatus root server database).Scrupulous root supply (fun _ ↦ True) seen := by
  obtain ⟨ns, hns, hserver⟩ := hserver
  obtain ⟨ns', hns', hdatabase⟩ := hdatabase
  obtain rfl := Option.some.inj (hns.symm.trans hns')
  refine ⟨trivial, fun (now : Time.Instant) _ ↦ ?_⟩
  dsimp only
  split
  · exact trivial
  · next hnew =>
    refine ⟨⟨_, rfl, ⟨_, ns, rfl, hns, hserver, hdatabase, rfl⟩, ?_⟩, fun answer _ ↦ ?_⟩
    · rintro ⟨status, ns', hstatus, hns', hserver', hdatabase', hphase⟩
      obtain rfl := Option.some.inj (hns.symm.trans hns')
      refine hnew (hstatus.trans (congrArg some ?_))
      have hservers : status.availableServerReplicas = server.availableReplicas :=
        hserver'.trans hserver.symm
      have hdatabases : status.availableDatabaseReplicas = database.availableSetReplicas :=
        hdatabase'.trans hdatabase.symm
      rw [hservers, hdatabases] at hphase
      rcases status with ⟨_, _, ⟨_, _⟩⟩
      dsimp only at hservers hdatabases hphase
      subst hservers hdatabases hphase
      simp [observedStatus, hstatus]
    · rcases (answer : Except ApiError Root) with e | stored <;> exact trivial

theorem convergeAll (todo : List AnyChild) (seen : Option Sight) :
    (convergeAll root todo).Scrupulous root supply (fun _ ↦ True) seen := by
  induction todo generalizing seen with
  | nil => exact trivial
  | cons c rest ih => exact (converge c.child seen).bind fun _ seen _ ↦ ih seen

theorem convergeServer (seen : Option Sight) :
    (convergeServer root).Scrupulous root supply
      (fun server ↦ ∃ ns, root.metadata.ns = some ns ∧
        server.available = supply .deployment ⟨ns, Child.serverDeployment.name⟩)
      seen := by
  refine (converge _ seen).bind fun _ seen _ ↦ ?_
  refine (converge _ seen).bind fun server seen hserver ↦ ?_
  exact (converge _ seen).bind fun _ _ _ ↦ hserver

theorem convergeDatabase (seen : Option Sight) :
    (convergeDatabase root).Scrupulous root supply
      (fun database ↦ ∃ ns, root.metadata.ns = some ns ∧
        database.available = supply .statefulSet ⟨ns, Child.databaseSet.name⟩)
      seen := by
  have hlast (seen : Option Sight) : (convergeDatabaseSet root).Scrupulous root supply
      (fun database ↦ ∃ ns, root.metadata.ns = some ns ∧
        database.available = supply .statefulSet ⟨ns, Child.databaseSet.name⟩)
      seen := by
    refine (converge _ seen).bind fun database seen hdatabase ↦ ?_
    exact (converge _ seen).bind fun _ _ _ ↦ hdatabase
  rw [convergeDatabase_eq]
  refine (converge _ seen).bind fun _ seen _ ↦ ?_
  split
  · exact (converge _ seen).bind fun _ seen _ ↦ hlast seen
  · exact hlast seen

theorem reconcileRoot (seen : Option Sight) :
    (reconcileRoot root).Scrupulous root supply (fun _ ↦ True) seen := by
  rw [reconcileRoot_eq_planned]
  refine (convergeServer seen).bind fun server seen hserver ↦ ?_
  refine (convergeDatabase seen).bind fun database seen hdatabase ↦ ?_
  refine (convergeAll _ seen).bind fun _ seen _ ↦ ?_
  refine (convergeAll _ seen).bind fun _ seen _ ↦ ?_
  refine (reportStatus hserver hdatabase seen).bind fun _ seen _ ↦ ?_
  exact ⟨trivial, fun _ _ ↦ trivial⟩

theorem afterLookup (root : Root) (seen : Option Sight) :
    (afterLookup (some root)).Scrupulous root supply (fun _ ↦ True) seen := by
  unfold Submarine.afterLookup
  dsimp only
  split
  · exact trivial
  · split
    · exact ⟨trivial, fun _ _ ↦ trivial⟩
    · exact reconcileRoot seen

end Pass.Scrupulous

end Submarine
