import Submarine.Proofs.Manifest.References

namespace Submarine

open Manifest

namespace AnyChild

def built (c : AnyChild) (root : Root) : AnyObject := ⟨c.kind, c.child.build root⟩

def references (c : AnyChild) (root : Root) : List Reference := (c.child.build root).references

end AnyChild

/-- What the user names in the spec and has to provide. -/
inductive Root.Provides (root : Root) : Reference → Prop where
  | password {name key : String} (named : root.spec.database.rootPasswordSecret = some name) :
      root.Provides (.secretKey root.metadata.ns name key)
  | pullSecret {common : CommonSpec} {name : String} (declared : root.spec.common = some common)
      (named : name ∈ common.image.pullSecrets) :
      root.Provides (.named .secret root.metadata.ns name)

namespace Plan

variable {root : Root} {before todo todo' : List AnyChild} {c : AnyChild} {r : Reference}

def declared (root : Root) : List AnyObject := (plan root).map (·.built root)

/-- The reference needs nothing but what comes before, or what the user provides. -/
def Resolved (root : Root) (before : List AnyChild) (r : Reference) : Prop :=
  r.FoundAmong (before.map (·.built root)) ∨ root.Provides r

def Ready (root : Root) : List AnyChild → List AnyChild → Prop
  | _, [] => True
  | before, c :: rest =>
    (∀ r ∈ c.references root, Resolved root before r) ∧ Ready root (before ++ [c]) rest

theorem ready_append : Ready root before (todo ++ todo') ↔
    Ready root before todo ∧ Ready root (before ++ todo) todo' := by
  induction todo generalizing before with
  | nil => simp [Ready]
  | cons c rest ih => simp [Ready, ih, and_assoc]

theorem Ready.resolved {later : List AnyChild} (h : Ready root before (todo ++ c :: later))
    (hr : r ∈ c.references root) : Resolved root (before ++ todo) r :=
  (ready_append.1 h).2.1 r hr

theorem foundAmong_child {k : Kind} (child : Child k) (hmem : ⟨k, child⟩ ∈ before)
    (hbuilt : (child.build root).metadata = metadata root child.name) :
    (Reference.named k root.metadata.ns child.name).FoundAmong (before.map (·.built root)) := by
  refine ⟨⟨k, child.build root⟩, List.mem_map_of_mem hmem, rfl, rfl, ?_⟩
  rw [Object.IsAt, hbuilt]
  exact ⟨rfl, rfl⟩

theorem resolved_pullSecret {name : String} (h : name ∈ (pullSecrets root).getD []) :
    Resolved root before (.named .secret root.metadata.ns name) := by
  unfold pullSecrets at h
  split at h
  · next common hcommon =>
    split at h
    · contradiction
    · exact .inr (.pullSecret hcommon h)
  · contradiction

/-- The root password is in the secret that is declared, unless the user names one. -/
theorem resolved_password
    (h : Database.managesSecret root → ⟨_, Child.databaseSecret⟩ ∈ before) :
    Resolved root before
      (.secretKey root.metadata.ns (Database.passwordSecretName root) Database.passwordKey) := by
  unfold Database.passwordSecretName Database.managesSecret at *
  cases hnamed : root.spec.database.rootPasswordSecret with
  | none =>
    rw [hnamed] at h
    refine .inl ⟨Database.secret root, List.mem_map_of_mem (h rfl), ⟨rfl, rfl⟩, ?_⟩
    simp [Object.secretData, Database.secret, Table.contains]
  | some user => exact .inr (.password hnamed)

/-- What is left to show for a pod of the plan: its account, its claims and its entries of secrets
are there, and it takes none of a config map. -/
theorem resolved_podSpec {p : PodSpec} (hpull : p.imagePullSecrets = pullSecrets root)
    (haccount : ∀ name, p.serviceAccountName = some name →
      Resolved root before (.named .serviceAccount root.metadata.ns name))
    (hclaims : ∀ v ∈ p.volumes.getD [], ∀ claim, v.claim = some claim →
      Resolved root before (.named .persistentVolumeClaim root.metadata.ns claim.name))
    (hkeys : ∀ c ∈ p.containers, ∀ e ∈ c.env.getD [], ∀ s, e.source = some s →
      s.configMapKey = none ∧ ∀ entry, s.secretKey = some entry →
        Resolved root before (.secretKey root.metadata.ns entry.name entry.key)) :
    ∀ r ∈ p.references root.metadata.ns, Resolved root before r := by
  intro r hr
  simp only [PodSpec.references, List.mem_append, List.mem_map, List.mem_flatMap,
    List.mem_filterMap, Option.mem_toList] at hr
  rcases hr with ((⟨name, hname, rfl⟩ | ⟨name, hname, rfl⟩) | ⟨claim, ⟨v, hv, hclaim⟩, rfl⟩) |
    ⟨c, hc, s, ⟨e, he, hs⟩, ⟨entry, hentry, rfl⟩ | ⟨entry, hentry, rfl⟩⟩
  · exact haccount name hname
  · rw [hpull] at hname
    exact resolved_pullSecret hname
  · exact hclaims v hv claim hclaim
  · exact (hkeys c hc e he s hs).2 entry hentry
  · rw [(hkeys c hc e he s hs).1] at hentry
    contradiction

/-- A service finds the pods of its application. -/
theorem resolved_service {name app : String} {port : Int32} {w : Workload} (hmem : c ∈ before)
    (hns : (c.child.build root).metadata.ns = root.metadata.ns)
    (hw : (c.child.build root).content.workload? = some w)
    (hlabels : w.labels = some (labels app)) (hport : w.ListensAt port) :
    ∀ r ∈ (service root name app port).references, Resolved root before r := by
  intro r hr
  obtain rfl := List.mem_singleton.1 hr
  have hlabeled : labels app ≠ ∅ := by
    intro h
    have hget := congrArg (·.get? "app") h
    simp [labels] at hget
  refine .inl ⟨hlabeled, by simp [service], _, List.mem_map_of_mem hmem, hns, w, hw, ?_, ?_⟩
  · rw [hlabels]
    exact fun e he ↦ he
  · intro p hp
    obtain rfl := List.mem_singleton.1 hp
    exact ⟨port, rfl, hport⟩

theorem resolved_backend (child : Child .service) {app : String} {port : Int32}
    (hmem : ⟨_, child⟩ ∈ before) (hbuild : child.build root = service root child.name app port) :
    Resolved root before (.backend root.metadata.ns child.name { number := some port }) := by
  refine .inl ⟨child.build root, List.mem_map_of_mem hmem, ?_⟩
  rw [hbuild]
  exact ⟨⟨rfl, rfl⟩, _, List.mem_singleton_self _, .inl rfl⟩

theorem ready_server : Ready root before server := by
  refine ⟨?_, ?_, ?_, trivial⟩
  · intro r hr
    contradiction
  · refine resolved_podSpec rfl ?_ ?_ ?_
    · rintro name ⟨⟩
      exact .inl (foundAmong_child Child.serverAccount (by simp) rfl)
    · intro v hv
      contradiction
    · intro c hc e he s hs
      obtain rfl := List.mem_singleton.1 hc
      simp only [Option.getD_some, List.mem_cons, List.not_mem_nil, or_false] at he
      rcases he with rfl | rfl <;> contradiction
  · exact resolved_service (c := ⟨_, Child.serverDeployment⟩) (by simp) rfl rfl rfl
      ⟨_, List.mem_singleton_self _, _, List.mem_singleton_self _, rfl⟩

theorem ready_database : Ready root before (database root) := by
  rw [database, ready_append, ready_append]
  refine ⟨⟨⟨?_, trivial⟩, ?_⟩, ?_, ?_, trivial⟩
  · intro r hr
    contradiction
  · split
    · refine ⟨?_, trivial⟩
      intro r hr
      contradiction
    · exact trivial
  · refine resolved_podSpec rfl ?_ ?_ ?_
    · intro name hname
      contradiction
    · intro v hv claim hclaim
      obtain rfl := List.mem_singleton.1 hv
      obtain rfl := Option.some.inj hclaim
      exact .inl (foundAmong_child Child.databaseClaim (by simp) rfl)
    · intro c hc e he s hs
      obtain rfl := List.mem_singleton.1 hc
      obtain rfl := List.mem_singleton.1 he
      obtain rfl := Option.some.inj hs
      refine ⟨rfl, fun entry hentry ↦ ?_⟩
      obtain rfl := Option.some.inj hentry
      exact resolved_password fun h ↦ by simp [h]
  · exact resolved_service (c := ⟨_, Child.databaseSet⟩) (by simp) rfl rfl rfl
      ⟨_, List.mem_singleton_self _, _, List.mem_singleton_self _, rfl⟩

theorem ready_access (h : ⟨_, Child.serverAccount⟩ ∈ before)
    (h' : ⟨_, Child.serverService⟩ ∈ before) : Ready root before access := by
  refine ⟨?_, ?_, ?_, trivial⟩
  · intro r hr
    obtain rfl := List.mem_singleton.1 hr
    exact resolved_backend Child.serverService h' rfl
  · intro r hr
    contradiction
  · intro r hr
    rcases List.mem_cons.1 hr with rfl | hr
    · exact .inl (foundAmong_child Child.serverRole (by simp) rfl)
    · obtain rfl := List.mem_singleton.1 hr
      exact .inl (foundAmong_child Child.serverAccount (by simp [h]) rfl)

theorem ready_auxiliary (aux : Manifest.Auxiliary) : Ready root before (auxiliary aux) := by
  refine ⟨?_, ?_, ?_, ?_, trivial⟩
  · intro r hr
    contradiction
  · refine resolved_podSpec rfl ?_ ?_ ?_
    · intro name hname
      contradiction
    · intro v hv claim hclaim
      obtain rfl := List.mem_singleton.1 hv
      obtain rfl := Option.some.inj hclaim
      exact .inl (foundAmong_child (Child.auxiliaryClaim aux) (by simp) rfl)
    · intro c hc e he s hs
      obtain rfl := List.mem_singleton.1 hc
      -- The environment consists of plain values.
      simp only [Auxiliary.ifAny] at he
      split at he
      · contradiction
      · obtain ⟨_, -, rfl⟩ := List.mem_map.1 he
        contradiction
  · exact resolved_service (c := ⟨_, Child.auxiliaryDeployment aux⟩) (by simp) rfl rfl rfl
      ⟨_, List.mem_singleton_self _, _, List.mem_singleton_self _, rfl⟩
  · intro r hr
    obtain rfl := List.mem_singleton.1 hr
    exact resolved_backend (Child.auxiliaryService aux) (by simp) rfl

theorem ready_auxiliaries (l : List Manifest.Auxiliary) :
    Ready root before (l.flatMap auxiliary) := by
  induction l generalizing before with
  | nil => exact trivial
  | cons aux l ih => exact ready_append.2 ⟨ready_auxiliary aux, ih⟩

theorem ready (root : Root) : Ready root [] (plan root) := by
  rw [plan, ready_append, ready_append, ready_append]
  refine ⟨⟨⟨ready_server, ready_database⟩, ready_access ?_ ?_⟩, ready_auxiliaries _⟩
  · simp [server]
  · simp [server]

theorem isAt_build (hc : c ∈ plan root) :
    (c.child.build root).IsAt root.metadata.ns c.child.name := by
  have hfull := (sublist_full root).subset hc
  simp only [full, server, access, auxiliary, List.mem_append, List.mem_cons, List.not_mem_nil,
    or_false, List.mem_flatMap] at hfull
  rcases hfull with (((rfl | rfl | rfl) | (rfl | rfl) | rfl | rfl) | rfl | rfl | rfl) |
    ⟨aux, -, rfl | rfl | rfl | rfl⟩ <;> exact ⟨rfl, rfl⟩

/-- The server, the database and the auxiliaries run pods, and nothing else does. -/
theorem cases_of_workload (hc : c ∈ plan root)
    (hkind : c.kind = .deployment ∨ c.kind = .statefulSet) :
    c = ⟨_, Child.serverDeployment⟩ ∨ c = ⟨_, Child.databaseSet⟩ ∨
      ∃ aux, ⟨_, Child.auxiliaryClaim aux⟩ ∈ plan root ∧
        c = ⟨_, Child.auxiliaryDeployment aux⟩ := by
  unfold plan at hc
  rcases List.mem_append.1 hc with hc | hc
  · simp only [server, database, access, List.mem_append, List.mem_cons, List.not_mem_nil,
      or_false] at hc
    rcases hc with ((rfl | rfl | rfl) | (rfl | hc) | rfl | rfl) | rfl | rfl | rfl
    · simp at hkind
    · exact .inl rfl
    · simp at hkind
    · simp at hkind
    · split at hc
      · obtain rfl := List.mem_singleton.1 hc
        simp at hkind
      · contradiction
    · exact .inr (.inl rfl)
    · simp at hkind
    · simp at hkind
    · simp at hkind
    · simp at hkind
  · obtain ⟨aux, haux, hc⟩ := List.mem_flatMap.1 hc
    simp only [auxiliary, List.mem_cons, List.not_mem_nil, or_false] at hc
    rcases hc with rfl | rfl | rfl | rfl
    · simp at hkind
    · refine .inr (.inr ⟨aux, ?_, rfl⟩)
      exact List.mem_append_right _ (List.mem_flatMap.2 ⟨aux, haux, by simp [auxiliary]⟩)
    · simp at hkind
    · simp at hkind

theorem kind_of_workload {k : Kind} {content : Content k} {w : Workload}
    (h : content.workload? = some w) : k = .deployment ∨ k = .statefulSet := by
  cases k with
  | deployment => exact .inl rfl
  | statefulSet => exact .inr rfl
  | _ => contradiction

theorem managesSecret_of_secret (hc : c ∈ plan root) (hkind : c.kind = .secret) :
    Database.managesSecret root := by
  by_contra hmanages
  have hothers : ∀ c ∈ server ++ ([⟨_, Child.databaseClaim⟩, ⟨_, Child.databaseSet⟩,
      ⟨_, Child.databaseService⟩] ++ access), c.kind ≠ .secret := by
    decide +kernel
  rcases List.mem_append.1 hc with hc | hc
  · exact hothers c (by simpa [database, hmanages] using hc) hkind
  · obtain ⟨aux, -, hc⟩ := List.mem_flatMap.1 hc
    simp only [auxiliary, List.mem_cons, List.not_mem_nil, or_false] at hc
    rcases hc with rfl | rfl | rfl | rfl <;> simp at hkind

/-- The password is read from the declared secret, if the controller manages one, and from that of
the user otherwise. -/
structure PasswordFrom (root : Root) (name : String) : Prop where
  read : ∃ c ∈ plan root, c.kind = .statefulSet ∧
    .secretKey root.metadata.ns name Database.passwordKey ∈ c.references root
  declared_iff : (Reference.secretKey root.metadata.ns name Database.passwordKey).FoundAmong
    (declared root) ↔ Database.managesSecret root
  ofUser : ∀ user, root.spec.database.rootPasswordSecret = some user → name = user

theorem passwordFrom (root : Root) : PasswordFrom root (Database.passwordSecretName root) where
  read := by
    refine ⟨⟨_, Child.databaseSet⟩, by simp [plan, database], rfl, ?_⟩
    exact List.mem_append_right _ (List.mem_singleton_self _)
  declared_iff := by
    constructor
    · rintro ⟨s, hs, -⟩
      obtain ⟨c, hc, hbuilt⟩ := List.mem_map.1 hs
      exact managesSecret_of_secret hc (congrArg AnyObject.kind hbuilt)
    · intro hmanages
      have hresolved : Resolved root (plan root) _ :=
        resolved_password fun h ↦ by simp [plan, database, h]
      rcases hresolved with hfound | hprovided
      · exact hfound
      · cases hprovided with
        | password hnamed => simp [Database.managesSecret, hnamed] at hmanages
  ofUser user huser := by simp [Database.passwordSecretName, huser]

/-- The declared children are all there, and fit together. -/
structure SelfContained (root : Root) : Prop where
  distinct : ((plan root).map AnyChild.label).Nodup
  -- Each has the name under which it is looked up, in the namespace of the root.
  named : ∀ c ∈ plan root, (c.child.build root).IsAt root.metadata.ns c.child.name
  selects : ∀ c ∈ plan root, ∀ w, (c.child.build root).content.workload? = some w →
    w.labels.isSome ∧ w.selector.matchLabels = w.labels
  -- What is mounted is a volume of the pod, with a declared claim behind it.
  mounts : ∀ c ∈ plan root, ∀ w, (c.child.build root).content.workload? = some w →
    ∀ m ∈ w.mounts, ∃ v ∈ w.volumes, v.name = m.name ∧ ∃ claim, v.claim = some claim ∧
      (Reference.named .persistentVolumeClaim root.metadata.ns claim.name).FoundAmong (declared root)
  -- What a child refers to comes before it, or is left to the user.
  precedes : ∀ before c later, plan root = before ++ c :: later →
    ∀ r ∈ c.references root, Resolved root before r
  governed : ∀ c ∈ plan root, c.kind = .statefulSet →
    ∃ service, (c.child.build root).content.governor? = some service ∧
      (Reference.named .service root.metadata.ns service).FoundAmong (declared root)
  password : ∃ name, PasswordFrom root name

theorem self_contained (root : Root) : SelfContained root where
  distinct := nodup_labels root
  named _ hc := isAt_build hc
  selects c hc w hw := by
    rcases cases_of_workload hc (kind_of_workload hw) with rfl | rfl | ⟨aux, -, rfl⟩ <;>
      obtain rfl := Option.some.inj hw <;> exact ⟨rfl, rfl⟩
  mounts c hc w hw m hm := by
    rcases cases_of_workload hc (kind_of_workload hw) with rfl | rfl | ⟨aux, haux, rfl⟩ <;>
      obtain rfl := Option.some.inj hw
    · contradiction
    · obtain rfl := List.mem_singleton.1 hm
      refine ⟨_, List.mem_singleton_self _, rfl, _, rfl, ?_⟩
      exact foundAmong_child Child.databaseClaim (by simp [plan, database]) rfl
    · obtain rfl := List.mem_singleton.1 hm
      refine ⟨_, List.mem_singleton_self _, rfl, _, rfl, ?_⟩
      exact foundAmong_child (Child.auxiliaryClaim aux) haux rfl
  precedes before c later hplan r hr := by
    have hready := ready root
    rw [hplan] at hready
    exact hready.resolved hr
  governed c hc hkind := by
    rcases cases_of_workload hc (.inr hkind) with rfl | rfl | ⟨aux, -, rfl⟩
    · contradiction
    · refine ⟨_, rfl, ?_⟩
      exact foundAmong_child Child.databaseService (by simp [plan, database]) rfl
    · contradiction
  password := ⟨_, passwordFrom root⟩

/-- Even the small installation is held together by eight references. -/
example : ((plan Root.sample).flatMap (·.references Root.sample)).length = 8 := by decide +kernel

end Plan

end Submarine
