import Submarine.Proofs.Controller.Owners
import Submarine.Proofs.Passes.Stepping

namespace Submarine

variable {k : Kind}

theorem splitKey?_eq_none_iff {key : String} :
    splitKey? key = none ↔ ∀ p : Place, p.IsKeyed → key ≠ p.key := by
  constructor
  · rintro hnone p hp rfl
    rw [hp.splitKey?] at hnone
    contradiction
  · intro hall
    refine Option.eq_none_iff_forall_ne_some.2 fun ⟨ns, name⟩ hsplit ↦ ?_
    obtain ⟨hns, hname, hslash, hslash', hkey⟩ := splitKey?_eq_some_iff.1 hsplit
    exact hall ⟨ns, name⟩ ⟨hns, hname, hslash, hslash'⟩ hkey

/-- What is cached under a key that can be split goes by its two parts. -/
theorem Place.IsKeyed.of_cacheKey {o : Object k} {p : Place} (hp : p.IsKeyed)
    (h : o.cacheKey = p.key) :
    o.metadata.ns = some p.ns ∧ o.metadata.name.or o.metadata.generateName = some p.name := by
  have hsome {text? : Option String} {text : String} (he : text?.getD "" = text)
      (hne : text ≠ "") : text? = some text := by
    cases text? with
    | none => exact absurd he.symm hne
    | some => exact congrArg some he
  obtain ⟨hns, hname⟩ := hp.eq_of_objectKey h
  exact ⟨hsome hns hp.ns_ne, hsome hname hp.name_ne⟩

namespace Cache

variable {c : Cache k} {o : Object k} {p : Place}

theorem get?_apply_of_news? {e : WatchEvent k} (h : e.news? = some o) :
    (c.apply e).1.objects.get? o.cacheKey = some o := by
  cases e with
  | applied new =>
    obtain rfl := Option.some.inj h
    exact Table.get?_insert_self ..
  | listed new =>
    obtain rfl := Option.some.inj h
    exact Table.get?_insert_self ..
  | deleted | relistStarted | relistDone => contradiction

/-- The cache finds the object by this namespace and name, if it has it, and by no other. -/
structure Addresses (c : Cache k) (o : Object k) (p : Place) : Prop where
  apply : ∀ e : WatchEvent k, e.news? = some o → (c.apply e).1.get? p.ns p.name = some o
  holds_iff : c.Holds o ↔ c.get? p.ns p.name = some o
  only_by : ∀ ns name, c.get? ns name = some o → ns = p.ns ∧ name = p.name
  only : ∀ other, c.get? p.ns p.name = some other →
    other.metadata.ns = some p.ns ∧ other.metadata.name.or other.metadata.generateName = some p.name

theorem addresses_applyAll (es : List (WatchEvent k)) (hp : p.IsKeyed) (hplace : o.place = .ok p) :
    (empty.applyAll es).1.Addresses o p := by
  have hkey : o.cacheKey = p.key := Object.cacheKey_of_place hplace
  have hsource {key : String} {other : Object k}
      (hget : (empty.applyAll es).1.objects.get? key = some other) : other.cacheKey = key := by
    rcases applyAll_source hget with hold | ⟨_, -, -, hother⟩
    · contradiction
    · exact hother
  refine ⟨fun e he ↦ ?_, ⟨fun ⟨key, hget⟩ ↦ ?_, fun hget ↦ ⟨_, hget⟩⟩, fun ns name hget ↦ ?_,
    fun other hget ↦ hp.of_cacheKey (hsource hget)⟩
  · have hnew := get?_apply_of_news? (c := (empty.applyAll es).1) he
    rwa [hkey] at hnew
  · obtain rfl := hsource hget
    rwa [hkey] at hget
  · exact hp.eq_of_objectKey ((hsource hget).symm.trans hkey)

end Cache

namespace Router

/-- A key splits into two texts just if it is joined from them, neither of them is empty and neither
has a slash; so it is joined from no other such texts, and no other key splits. The key that a
change of an installation with such a namespace and name puts to work is that of the cache, in which
these two find the installation and nothing else, whatever the cache was told of; and the pass over
that key asks for these two, and goes on with the installation if it is cached. -/
theorem keys_single_out_roots :
    (∀ key ns name, splitKey? key = some (ns, name) ↔
      ns ≠ "" ∧ name ≠ "" ∧ '/' ∉ ns.toList ∧ '/' ∉ name.toList ∧ key = objectKey ns name) ∧
    (∀ key, splitKey? key = none ↔ ∀ p : Place, p.IsKeyed → key ≠ objectKey p.ns p.name) ∧
    (∀ p q : Place, p.IsKeyed → q.IsKeyed → objectKey p.ns p.name = objectKey q.ns q.name → p = q) ∧
    ∀ (root : Root) (p : Place), root.metadata.ns = some p.ns → root.metadata.name = some p.name →
      p.IsKeyed →
      keyOfRoot? (.added root) = some root.cacheKey ∧
      (∀ old, keyOfRoot? (.updated old root) =
        if versionMoved old root then some root.cacheKey else none) ∧
      splitKey? root.cacheKey = some (p.ns, p.name) ∧
      reconcile root.cacheKey = .ask (.cachedRoot p.ns p.name) afterLookup ∧
      ∀ es : List (WatchEvent .submarine), (Cache.empty.applyAll es).1.Addresses root p ∧
        ∀ w : World, w.roots = (Cache.empty.applyAll es).1 → w.roots.Holds root →
          w.run (reconcile root.cacheKey) = w.run (afterLookup (some root)) := by
  refine ⟨fun _ _ _ ↦ splitKey?_eq_some_iff, fun _ ↦ splitKey?_eq_none_iff,
    fun _ _ hp hq ↦ hp.key_injective hq, fun root p hns hname hp ↦ ?_⟩
  have hplace : root.place = .ok p := Object.place_eq_ok_iff.2 ⟨hname, hns⟩
  have hkey : rootKey root = root.cacheKey :=
    (Object.rootKey_of_place hplace).trans (Object.cacheKey_of_place hplace).symm
  have hsplit : splitKey? root.cacheKey = some (p.ns, p.name) := by
    rw [Object.cacheKey_of_place hplace]
    exact hp.splitKey?
  have hasks := reconcile_of_splitKey? hsplit
  refine ⟨congrArg some hkey, fun old ↦ ?_, hsplit, hasks, fun es ↦ ?_⟩
  · rw [← hkey]
    rfl
  · have haddresses := Cache.addresses_applyAll es hp hplace
    refine ⟨haddresses, fun w hroots hholds ↦ ?_⟩
    have hfound : w.roots.get? p.ns p.name = some root := by
      rw [hroots] at hholds ⊢
      exact haddresses.holds_iff.1 hholds
    have hserve : w.serve (.cachedRoot p.ns p.name) = (some (some root), w) := by
      rw [← hfound]
      rfl
    rw [hasks]
    exact World.run_ask_of_serve hserve

/-- An installation that was listed twice, beside one of the same name elsewhere. -/
theorem keys_single_out_roots_of_relisted :
    let elsewhere : Root := { Root.sample with
      metadata := { Root.sample.metadata with ns := some "other" } }
    let roots := (Cache.empty.applyAll [.applied elsewhere, .applied Root.sample, .relistStarted,
      .listed Root.sample, .relistDone]).1
    let w : World := { World.new .empty ⟨0, 0⟩ with roots }
    keyOfRoot? (.added Root.sample) = some "default/demo" ∧
      splitKey? "default/demo" = some ("default", "demo") ∧
      roots.get? "other" "demo" = none ∧ roots.Addresses Root.sample ⟨"default", "demo"⟩ ∧
      w.run (reconcile "default/demo") = w.run (afterLookup (some Root.sample)) := by
  intro elsewhere roots w
  obtain ⟨hadded, -, hsplit, -, hcached⟩ := keys_single_out_roots.2.2.2 Root.sample
    ⟨"default", "demo"⟩ rfl rfl ⟨by decide, by decide, by decide, by decide⟩
  obtain ⟨haddresses, hrun⟩ := hcached [.applied elsewhere, .applied Root.sample, .relistStarted,
    .listed Root.sample, .relistDone]
  have hheld : roots.Holds Root.sample := ⟨"default/demo", by decide +kernel⟩
  have hgone : roots.get? "other" "demo" = none := by decide +kernel
  exact ⟨hadded, hsplit, hgone, haddresses, hrun w rfl hheld⟩

end Router

end Submarine
