import Submarine.Proofs.Controller.Noticing
import Submarine.Proofs.Controller.Owners

namespace Submarine

variable {k : Kind}

namespace Router

def keysOfChildren (roots : Cache .submarine) (changes : List (Notification k)) : List String :=
  changes.filterMap (keyOfChild? roots)

theorem keyOfChild?_eq_some_iff {roots : Cache .submarine} {n : Notification k} {key : String}
    (hroots : roots.IsKeyed) : keyOfChild? roots n = some key ↔
      ∃ o root, n.Tells o ∧ roots.Holds root ∧ o.IsChildOf root ∧ rootKey root = key := by
  simp only [keyOfChild?, Option.bind_eq_some_iff, Notification.tells_iff,
    ownerKey?_eq_some_iff hroots, exists_and_left]

theorem mem_keysOfChildren {roots : Cache .submarine} {changes : List (Notification k)}
    {key : String} (hroots : roots.IsKeyed) : key ∈ keysOfChildren roots changes ↔
      ∃ n ∈ changes, ∃ o root, n.Tells o ∧ roots.Holds root ∧ o.IsChildOf root ∧
        rootKey root = key := by
  simp only [keysOfChildren, List.mem_filterMap, keyOfChild?_eq_some_iff hroots]

end Router

namespace Watchers

variable {s : Watchers} {i : Nat} {l : Loop k} {cache : Cache k} {old new : Object k}
  {later : List (Notification k)} {es : List (WatchEvent .submarine)}

def stepMany? (s : Watchers) (i : Nat) : Nat → Option Watchers
  | 0 => some s
  | n + 1 => (s.step? i).bind (·.stepMany? i n)

/-- A loop that has changes of children to route adds a key for each that concerns somebody. -/
theorem work_stepMany? (hloop : s.watchers[i]? = some (.children k l cache)) :
    (s.stepMany? i l.pending.length).map Watchers.work =
      some ((Router.keysOfChildren s.world.roots l.pending).foldl WorkQueue.add s.work) := by
  obtain ⟨feed, pending, ended⟩ := l
  induction pending generalizing s with
  | nil => rfl
  | cons n pending ih =>
    have hstep : s.step? i = some
        { world := s.world
          watchers := s.watchers.set i (.children k ⟨feed, pending, ended⟩ cache)
          work := (Router.keyOfChild? s.world.roots n).elim s.work s.work.add } := by
      rw [step?, hloop]
      cases hkey : Router.keyOfChild? s.world.roots n <;>
        simp [Watcher.step?, hkey]
    rw [List.length_cons, stepMany?, hstep, Option.bind_some,
      ih (getElem?_set_self_of_some hloop _), Router.keysOfChildren, Router.keysOfChildren,
      List.filterMap_cons]
    cases Router.keyOfChild? s.world.roots n <;> rfl

/-- An update of a child, and deletions of the version that it brought, are routed by the owner link
of that version: whoever controlled the old one is told if it controls the new one too, another
installation is told if that one controls it now, and without a controller nobody is. -/
theorem routes_by_last_link (hloop : s.watchers[i]? = some (.children k l cache))
    (hpending : l.pending = .updated old new :: later)
    (hmoved : old.metadata.resourceVersion ≠ new.metadata.resourceVersion)
    (hlater : ∀ n ∈ later, ∃ t : Tombstone k, n = .deleted t ∧ t.object = new)
    (hroots : s.world.roots = (Cache.empty.applyAll es).1)
    (hnames : ∀ root, s.world.roots.Holds root → ∃ p : Place, p.IsKeyed ∧ root.place = .ok p) :
    ∃ keys : List String,
      (s.stepMany? i l.pending.length).map Watchers.work =
        some (keys.foldl WorkQueue.add s.work) ∧
      (∀ root, s.world.roots.Holds root → (Router.rootKey root ∈ keys ↔ new.IsChildOf root)) ∧
      (∀ key ∈ keys, ∃ root, s.world.roots.Holds root ∧ new.IsChildOf root ∧
        Router.rootKey root = key) ∧
      (new.controller? = none → keys = []) := by
  have hkeyed : s.world.roots.IsKeyed := by
    rw [hroots] at hnames ⊢
    exact Cache.isKeyed_applyAll hnames
  have htells : ∀ n ∈ l.pending, ∀ o, n.Tells o → o = new := by
    intro n hn o ho
    rw [hpending] at hn
    rcases List.mem_cons.1 hn with rfl | hn
    · cases ho
      rfl
    · obtain ⟨t, rfl, rfl⟩ := hlater n hn
      cases ho <;> rfl
  have hkeys (key : String) : key ∈ Router.keysOfChildren s.world.roots l.pending ↔
      ∃ root, s.world.roots.Holds root ∧ new.IsChildOf root ∧ Router.rootKey root = key := by
    rw [Router.mem_keysOfChildren hkeyed]
    constructor
    · rintro ⟨n, hn, o, root, ho, hroot, hchild, hkey⟩
      obtain rfl := htells n hn o ho
      exact ⟨root, hroot, hchild, hkey⟩
    · rintro ⟨root, hroot, hchild, hkey⟩
      refine ⟨.updated old new, ?_, new, root, .updated old new hmoved, hroot, hchild, hkey⟩
      rw [hpending]
      exact List.mem_cons_self
  refine ⟨_, work_stepMany? hloop, fun root hroot ↦ ?_, fun key ↦ (hkeys key).1, fun hnone ↦ ?_⟩
  · refine (hkeys _).trans ⟨?_, fun hchild ↦ ⟨root, hroot, hchild, rfl⟩⟩
    rintro ⟨root', hroot', hchild, hsame⟩
    exact hkeyed.eq_of_rootKey hroot' hroot hsame ▸ hchild
  · refine List.eq_nil_iff_forall_not_mem.2 fun key hkey ↦ ?_
    obtain ⟨root, -, hchild, -⟩ := (hkeys key).1 hkey
    have hlink := hchild.controlled
    rw [Object.isControlledBy, hnone] at hlink
    contradiction

def keptAccount : Object .serviceAccount :=
  { sampleAccount with metadata := { sampleAccount.metadata with resourceVersion := some "2" } }

def updatingWatchers : Watchers :=
  { sampleWatchers with
    watchers := [.children .serviceAccount ⟨⟨[], .silent⟩,
      [.updated sampleAccount keptAccount, .deleted (.known keptAccount)], none⟩ .empty] }

theorem routes_by_last_link_of_kept : ∃ keys : List String,
    (updatingWatchers.stepMany? 0 2).map Watchers.work =
      some (keys.foldl WorkQueue.add updatingWatchers.work) ∧ "default/demo" ∈ keys := by
  have hnames : ∀ root, updatingWatchers.world.roots.Holds root →
      ∃ p : Place, p.IsKeyed ∧ root.place = .ok p := by
    rintro root ⟨key, hget⟩
    rcases Cache.applyAll_source hget with hold | ⟨e, he, hnews, -⟩
    · contradiction
    · obtain rfl := List.mem_singleton.1 he
      obtain rfl := Option.some.inj hnews
      exact ⟨⟨"default", "demo"⟩, Root.sample_named.isKeyed, rfl⟩
  have hlater : ∀ n ∈ [Notification.deleted (.known keptAccount)],
      ∃ t : Tombstone .serviceAccount, n = .deleted t ∧ t.object = keptAccount :=
    fun n hn ↦ ⟨_, List.mem_singleton.1 hn, rfl⟩
  obtain ⟨keys, hwork, hkeys, -⟩ :=
    routes_by_last_link (s := updatingWatchers) (i := 0) (l := _) rfl rfl (by decide) hlater rfl
      hnames
  exact ⟨keys, hwork, (hkeys Root.sample ⟨"default/demo", rfl⟩).2 ⟨by decide, rfl⟩⟩

end Watchers

namespace Controller

variable {s s' : Controller}

theorem exists_run?_of_restWithin? {fuel : Nat} (h : s.restWithin? fuel = some s') :
    ∃ moves, s.run? moves = some s' := by
  induction fuel generalizing s with
  | zero => contradiction
  | succ fuel ih =>
    unfold Controller.restWithin? at h
    split at h
    · next t hnext =>
      split at h
      · obtain ⟨a, -, ha⟩ := List.exists_of_findSome?_eq_some hnext
        obtain ⟨moves, hmoves⟩ := ih h
        refine ⟨.act a :: moves, ?_⟩
        rw [run?, move?, ha]
        exact hmoves
      · contradiction
    · exact ⟨[], h⟩

theorem run?_append {before after : List Move} (h : s.run? before = some s') :
    s.run? (before ++ after) = s'.run? after := by
  induction before generalizing s with
  | nil => rw [List.nil_append, Option.some.inj h]
  | cons m rest ih =>
    obtain ⟨t, ht, hrest⟩ := Option.bind_eq_some_iff.1 h
    rw [List.cons_append, run?, ht]
    exact ih hrest

def serviceUpdate? :
    Watcher → Option (Loop .service × Cache .service × Object .service × Object .service)
  | .children .service l cache =>
    match l.pending with
    | [.updated old new] => some (l, cache, old, new)
    | _ => none
  | _ => none

theorem serviceUpdate?_eq_some {w : Watcher} {l : Loop .service} {cache : Cache .service}
    {old new : Object .service} (h : serviceUpdate? w = some (l, cache, old, new)) :
    w = .children .service l cache ∧ l.pending = [.updated old new] := by
  unfold serviceUpdate? at h
  split at h
  · split at h
    · next hpending =>
      obtain ⟨rfl, rfl, rfl, rfl⟩ := Option.some.inj h
      exact ⟨rfl, hpending⟩
    · contradiction
  · contradiction

def databasePlace : Place := ⟨"default", "submarine-database"⟩

def disown (o : Object .service) : Option (Object .service) :=
  some { o with metadata := { o.metadata with ownerReferences := none } }

/-- The sample root was at rest with all its children; then one of them lost its owner link, and the
loop of services has read so. -/
def sampleStripped : Option Controller :=
  sampleQuiet.bind (·.run? [.operate (.modify .service databasePlace disown), .act (.watch 3)])

def sampleBereft : Option Controller :=
  (sampleStripped.bind (·.run? [.act (.watch 3), .operate (.remove .service databasePlace)])).bind
    (·.restWithin? 40)

theorem sampleStripped_eq_some : ∃ s l cache old new root, sampleStripped = some s ∧
    s.watching.watchers[3]? = some (.children .service l cache) ∧ l.pending = [.updated old new] ∧
    old.metadata.resourceVersion ≠ new.metadata.resourceVersion ∧
    s.world.roots.get? "default" "demo" = some root ∧ old.IsChildOf root ∧
    Router.keyOfChild? s.world.roots (.updated old new) = none ∧ s.work.queue.ready = [] := by
  have hrun : (sampleStripped.any fun s ↦
      ((s.watching.watchers[3]?).bind serviceUpdate?).any fun (_, _, old, new) ↦
        (s.world.roots.get? "default" "demo").any fun root ↦
          decide (old.metadata.resourceVersion ≠ new.metadata.resourceVersion ∧
            old.isControlledBy root ∧ old.metadata.ns = root.metadata.ns ∧
            Router.keyOfChild? s.world.roots (.updated old new) = none ∧
            s.work.queue.ready = [])) = true := by
    decide +kernel
  obtain ⟨s, hs, hrun⟩ := (Option.any_eq_true _ _).1 hrun
  obtain ⟨⟨l, cache, old, new⟩, hupdate, hrun⟩ := (Option.any_eq_true _ _).1 hrun
  obtain ⟨root, hroot, hrun⟩ := (Option.any_eq_true _ _).1 hrun
  obtain ⟨hmoved, hcontrolled, hns, hkey, hready⟩ := of_decide_eq_true hrun
  obtain ⟨w, hw, hupdate⟩ := Option.bind_eq_some_iff.1 hupdate
  obtain ⟨rfl, hpending⟩ := serviceUpdate?_eq_some hupdate
  exact ⟨s, l, cache, old, new, root, hs, hw, hpending, hmoved, hroot, ⟨hcontrolled, hns⟩, hkey,
    hready⟩

theorem sampleBereft_eq_some : ∃ s root, sampleBereft = some s ∧ s.Quiescent ∧
    s.world.cluster.Declares ⟨"default", "demo"⟩ root ∧ ∃ child ∈ plan root,
      s.world.cluster.find? child.kind ⟨"default", child.child.name⟩ = none := by
  have hrun : (sampleBereft.any fun s ↦ decide s.Quiescent &&
      (s.world.cluster.find? .submarine ⟨"default", "demo"⟩).any fun root ↦
        decide (Root.spec root = Root.sample.spec ∧ root.metadata.deletionTimestamp = none) &&
          s.lacksChild "default" root) = true := by
    decide +kernel
  obtain ⟨s, root, hs, hquiet, hdeclares, -, hlacks⟩ := exists_quiescent_of_any hrun rfl
  exact ⟨s, root, hs, hquiet, hdeclares, exists_of_lacksChild hlacks⟩

/-- The update takes the service from the sample root, and adds no key. Once the service is deleted,
everything comes to rest without it. -/
theorem loses_stripped_child :
    ∃ (before after : List Move) (s₁ s₂ : Controller) (l : Loop .service) (cache : Cache .service)
      (old new : Object .service) (root root' : Root),
      (Controller.new {} (.new sampleCluster ⟨0, 0⟩) (.live · sampleCluster)).run? before =
        some s₁ ∧
      s₁.watching.watchers[3]? = some (.children .service l cache) ∧
      l.pending = [.updated old new] ∧
      old.metadata.resourceVersion ≠ new.metadata.resourceVersion ∧
      s₁.world.roots.get? "default" "demo" = some root ∧ old.IsChildOf root ∧
      (s₁.watching.stepMany? 3 1).map Watchers.work = some s₁.work ∧ s₁.work.queue.ready = [] ∧
      s₁.run? after = some s₂ ∧ s₂.Quiescent ∧
      s₂.world.cluster.Declares ⟨"default", "demo"⟩ root' ∧ ∃ child ∈ plan root',
        s₂.world.cluster.find? child.kind ⟨"default", child.child.name⟩ = none := by
  obtain ⟨s₁, l, cache, old, new, root, hs₁, hw, hpending, hmoved, hroot, hchild, hkey, hready⟩ :=
    sampleStripped_eq_some
  obtain ⟨s₂, root', hs₂, hquiet, hdeclares, hmissing⟩ := sampleBereft_eq_some
  obtain ⟨s₀, hs₀, hstrip⟩ := Option.bind_eq_some_iff.1 hs₁
  obtain ⟨before, hbefore⟩ := exists_run?_of_restWithin? hs₀
  rw [sampleBereft, hs₁, Option.bind_some] at hs₂
  obtain ⟨s, hdelete, hrest⟩ := Option.bind_eq_some_iff.1 hs₂
  obtain ⟨after, hafter⟩ := exists_run?_of_restWithin? hrest
  have hwork := Watchers.work_stepMany? (s := s₁.watching) hw
  rw [hpending, Router.keysOfChildren, List.filterMap_cons, hkey] at hwork
  exact ⟨_, _, s₁, s₂, l, cache, old, new, root, root', (run?_append hbefore).trans hstrip, hw,
    hpending, hmoved, hroot, hchild, hwork, hready, (run?_append hdelete).trans hafter, hquiet,
    hdeclares, hmissing⟩

end Controller

end Submarine
