import Submarine.Proofs.Cluster.Naming
import Submarine.Proofs.Controller.Watching

namespace Submarine

variable {k : Kind}

/-- The only slash of the key of a place is the one in the middle, so that no other two texts make
the same key, whatever they are. -/
theorem Place.IsKeyed.eq_of_objectKey {p : Place} (hp : p.IsKeyed) {ns name : String}
    (h : objectKey ns name = p.key) : ns = p.ns ∧ name = p.name := by
  have hcount : (objectKey ns name).toList.count '/' = 1 := by
    rw [h, Place.key, objectKey]
    simp [List.count_eq_zero.2 hp.ns_slash, List.count_eq_zero.2 hp.name_slash]
  have hsum : ns.toList.count '/' + (name.toList.count '/' + 1) = 1 := by
    simpa [objectKey, Nat.add_assoc] using hcount
  have hns : '/' ∉ ns.toList := List.count_eq_zero.1 (by omega)
  exact objectKey_inj hns hp.ns_slash h

theorem Object.rootKey_of_place {root : Root} {p : Place} (h : root.place = .ok p) :
    Router.rootKey root = p.key := by
  obtain ⟨hname, hns⟩ := Object.place_eq_ok_iff.1 h
  rw [Router.rootKey, hname, hns]
  rfl

namespace Cache

def Holds (c : Cache k) (o : Object k) : Prop := ∃ key, c.objects.get? key = some o

def IsKeyed (c : Cache k) : Prop :=
  ∀ {key : String} {o : Object k}, c.objects.get? key = some o →
    ∃ p : Place, p.IsKeyed ∧ o.place = .ok p ∧ p.key = key

/-- Whatever was applied to a cache, the keys are those of the objects. -/
theorem isKeyed_applyAll {es : List (WatchEvent k)}
    (h : ∀ o, (empty.applyAll es).1.Holds o → ∃ p : Place, p.IsKeyed ∧ o.place = .ok p) :
    (empty.applyAll es).1.IsKeyed := by
  intro key o hget
  obtain ⟨p, hp, hplace⟩ := h o ⟨key, hget⟩
  refine ⟨p, hp, hplace, ?_⟩
  rcases applyAll_source hget with hold | ⟨e, he, hnews, hkey⟩
  · contradiction
  · exact (Object.cacheKey_of_place hplace).symm.trans hkey

theorem IsKeyed.eq_of_rootKey {roots : Cache .submarine} (h : roots.IsKeyed) {root root' : Root}
    (hroot : roots.Holds root) (hroot' : roots.Holds root')
    (he : Router.rootKey root = Router.rootKey root') : root = root' := by
  obtain ⟨key, hget⟩ := hroot
  obtain ⟨key', hget'⟩ := hroot'
  obtain ⟨p, -, hplace, rfl⟩ := h hget
  obtain ⟨p', -, hplace', rfl⟩ := h hget'
  rw [Object.rootKey_of_place hplace, Object.rootKey_of_place hplace'] at he
  rw [he, hget'] at hget
  exact (Option.some.inj hget).symm

end Cache

namespace Notification

/-- The notification tells of the object: in its new version, or as it last was. An update to the
same version tells of nothing. -/
inductive Tells : Notification k → Object k → Prop where
  | added (o : Object k) : Tells (.added o) o
  | updated (old new : Object k)
      (moved : old.metadata.resourceVersion ≠ new.metadata.resourceVersion) :
      Tells (.updated old new) new
  | known (o : Object k) : Tells (.deleted (.known o)) o
  | vanished (key : String) (last : Object k) : Tells (.deleted (.vanished key last)) last

theorem tells_iff {n : Notification k} {o : Object k} :
    n.Tells o ↔ Router.subject? n = some o := by
  constructor
  · intro h
    cases h with
    | added | known | vanished => rfl
    | updated old new moved => exact if_pos (decide_eq_true moved)
  · intro h
    match n with
    | .added new =>
      obtain rfl := Option.some.inj h
      exact .added new
    | .updated old new =>
      obtain ⟨hmoved, hnew⟩ := Option.ite_none_right_eq_some.1 h
      obtain rfl := Option.some.inj hnew
      exact .updated old new (of_decide_eq_true hmoved)
    | .deleted (.known last) =>
      obtain rfl := Option.some.inj h
      exact .known last
    | .deleted (.vanished key last) =>
      obtain rfl := Option.some.inj h
      exact .vanished key last

end Notification

namespace Router

variable {roots : Cache .submarine} {o : Object k} {key : String}

theorem ownerKey?_cases (h : ownerKey? roots o = some key) :
    ∃ link root, o.controller? = some link ∧ link.kind = Kind.submarine.name ∧
      roots.get? (o.metadata.ns.getD "") link.name = some root ∧
      root.metadata.uid = some link.uid ∧ key = objectKey (o.metadata.ns.getD "") link.name := by
  unfold ownerKey? at h
  obtain ⟨link, hlink, h⟩ := Option.bind_eq_some_iff.1 h
  by_cases hkind : link.kind = Kind.submarine.name
  · simp only [hkind, ne_eq, not_true_eq_false, if_false] at h
    obtain ⟨root, hroot, h⟩ := Option.bind_eq_some_iff.1 h
    obtain ⟨huid, hkey⟩ := Option.ite_none_right_eq_some.1 h
    exact ⟨link, root, hlink, hkind, hroot, huid, (Option.some.inj hkey).symm⟩
  · simp [hkind] at h

/-- The look-up of the router finds the installation that controls the object, and no other. -/
theorem ownerKey?_eq_some_iff (hroots : roots.IsKeyed) :
    ownerKey? roots o = some key ↔
      ∃ root, roots.Holds root ∧ o.IsChildOf root ∧ rootKey root = key := by
  constructor
  · intro h
    obtain ⟨link, root, hlink, hkind, hget, huid, rfl⟩ := ownerKey?_cases h
    obtain ⟨p, hp, hplace, hkey⟩ := hroots hget
    obtain ⟨hname, hns⟩ := Object.place_eq_ok_iff.1 hplace
    obtain ⟨hns', hname'⟩ := hp.eq_of_objectKey hkey.symm
    have hcontrolled : o.isControlledBy root := by
      rw [Object.isControlledBy, hlink]
      simp [OwnerLink.pointsTo, hkind, hname, hname', huid]
    refine ⟨root, ⟨_, hget⟩, ⟨hcontrolled, ?_⟩, ?_⟩
    · rw [hns, ← hns']
      cases hchild : o.metadata.ns with
      | none =>
        rw [hchild] at hns'
        exact absurd hns'.symm hp.ns_ne
      | some ns => rfl
    · rw [Object.rootKey_of_place hplace, hkey]
  · rintro ⟨root, ⟨key', hget⟩, hchild, rfl⟩
    obtain ⟨p, hp, hplace, rfl⟩ := hroots hget
    have huid := (Object.isSome_of_isControlledBy hchild.controlled).2
    rw [Object.rootKey_of_place hplace]
    exact hchild.ownerKey? (.of_place hplace huid hp) hget

end Router

/-- Routing a notification about a child adds at most one key to the queue. It is the key of a
cached installation exactly if that one controls the child that the notification tells of, by the
test that convergence makes, and has its namespace. -/
theorem Watchers.routes_to_controller {s : Watchers} {i : Nat} {l : Loop k} {cache : Cache k}
    {n : Notification k} {pending : List (Notification k)} {es : List (WatchEvent .submarine)}
    (hloop : s.watchers[i]? = some (.children k l cache)) (hpending : l.pending = n :: pending)
    (hroots : s.world.roots = (Cache.empty.applyAll es).1)
    (hnames : ∀ root, s.world.roots.Holds root → ∃ p : Place, p.IsKeyed ∧ root.place = .ok p) :
    ∃ key? : Option String,
      (s.step? i).map Watchers.work = some (key?.elim s.work s.work.add) ∧
      (∀ key, key? = some key → ∃ root, s.world.roots.Holds root ∧ Router.rootKey root = key) ∧
      ∀ root, s.world.roots.Holds root →
        (key? = some (Router.rootKey root) ↔ ∃ o, n.Tells o ∧ o.IsChildOf root) := by
  have hkeyed : s.world.roots.IsKeyed := by
    rw [hroots] at hnames ⊢
    exact Cache.isKeyed_applyAll hnames
  have hkey? {key : String} : Router.keyOfChild? s.world.roots n = some key ↔
      ∃ o, n.Tells o ∧
        ∃ root, s.world.roots.Holds root ∧ o.IsChildOf root ∧ Router.rootKey root = key := by
    simp only [Router.keyOfChild?, Option.bind_eq_some_iff, Notification.tells_iff,
      Router.ownerKey?_eq_some_iff hkeyed]
  refine ⟨Router.keyOfChild? s.world.roots n, ?_, fun key hkey ↦ ?_, fun root hroot ↦ ?_⟩
  · rw [Watchers.step?, hloop]
    simp only [Option.bind_eq_bind, Option.bind_some, Watcher.step?, hpending]
    cases Router.keyOfChild? s.world.roots n <;> rfl
  · obtain ⟨o, -, root, hroot, -, hkey⟩ := hkey?.1 hkey
    exact ⟨root, hroot, hkey⟩
  · refine hkey?.trans ⟨?_, ?_⟩
    · rintro ⟨o, ho, root', hroot', hchild, hsame⟩
      obtain rfl := hkeyed.eq_of_rootKey hroot' hroot hsame
      exact ⟨o, ho, hchild⟩
    · rintro ⟨o, ho, hchild⟩
      exact ⟨o, ho, root, hroot, hchild, rfl⟩

def sampleAccount : Object .serviceAccount where
  metadata :=
    { name := some "visitor", ns := some "default"
      ownerReferences := some
        [⟨"v1", "ConfigMap", "demo", "u-2", none, none⟩,
          ⟨"submarine.apache.org/v1alpha1", "Submarine", "demo", "u-1", some true, none⟩] }
  content := (default : ServiceAccountContent)

def sampleWatchers : Watchers where
  world := { World.new .empty ⟨0, 0⟩ with roots := (Cache.empty.applyAll [.applied Root.sample]).1 }
  watchers := [.children .serviceAccount
    ⟨⟨[], .silent⟩, [.deleted (.vanished "default/visitor" sampleAccount)], none⟩ .empty]
  work := .new ⟨1, 1⟩ true

theorem Watchers.routes_to_controller_of_vanished :
    (∀ root, sampleWatchers.world.roots.Holds root → ∃ p : Place, p.IsKeyed ∧ root.place = .ok p) ∧
      (sampleWatchers.step? 0).map Watchers.work =
        some (sampleWatchers.work.add "default/demo") := by
  have hnames : ∀ root, sampleWatchers.world.roots.Holds root →
      ∃ p : Place, p.IsKeyed ∧ root.place = .ok p := by
    rintro root ⟨key, hget⟩
    rcases Cache.applyAll_source hget with hold | ⟨e, he, hnews, -⟩
    · contradiction
    · obtain rfl := List.mem_singleton.1 he
      obtain rfl := Option.some.inj hnews
      exact ⟨⟨"default", "demo"⟩, ⟨by decide, by decide, by decide, by decide⟩, rfl⟩
  obtain ⟨key?, hstep, -, hkey?⟩ :=
    routes_to_controller (s := sampleWatchers) (i := 0) (l := _) rfl rfl rfl hnames
  have hkey : key? = some "default/demo" := (hkey? Root.sample ⟨"default/demo", rfl⟩).2
    ⟨sampleAccount, .vanished _ _, by decide, rfl⟩
  exact ⟨hnames, by rw [hstep, hkey]; rfl⟩

end Submarine
