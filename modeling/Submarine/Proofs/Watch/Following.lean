import Submarine.Proofs.Cluster.Changes
import Submarine.Proofs.Watch.Mirroring

namespace Submarine

open Cluster (Makes Orderly Placed Stores Tidy)

variable {k : Kind} {c c' : Cluster}

theorem Cache.synced_applyAll {cache : Cache k} {es : List (WatchEvent k)}
    (h : cache.synced ∨ .relistDone ∈ es) : (cache.applyAll es).1.synced := by
  induction es generalizing cache with
  | nil => exact h.resolve_right (by simp)
  | cons e rest ih =>
    have hrest : (cache.apply e).1.synced ∨ .relistDone ∈ rest := by
      rw [synced_apply, Bool.or_eq_true, beq_iff_eq]
      rcases h with h | h
      · exact .inl (.inl h)
      · rcases List.mem_cons.1 h with h | h
        · exact .inl (.inr h.symm)
        · exact .inr h
    exact ih hrest

namespace Watch

variable {w w' : Watch k} {cache : Cache k}

theorem keepsUp_of_read?_eq_none (h : w.read? c = none) : w.KeepsUp c := by
  unfold read? at h
  split at h
  · contradiction
  · unfold readLog? at h
    dsimp only at h
    split at h
    · exact absurd h (Option.some_ne_none _)
    · next hnear =>
      rw [KeepsUp]
      omega

def distance (w : Watch k) (c : Cluster) : Nat := w.listing.length + (c.log.length - w.position)

theorem distance_lt_of_read? {event? : Option (WatchEvent k)} (hup : w.KeepsUp c)
    (h : w.read? c = some (event?, w')) : w'.KeepsUp c ∧ w'.distance c < w.distance c := by
  unfold read? at h
  split at h
  · next e listing hlisting =>
    obtain ⟨rfl, rfl⟩ := Prod.mk.inj (Option.some.inj h)
    exact ⟨hup, by simp [distance, hlisting]⟩
  · unfold readLog? at h
    rw [KeepsUp] at hup
    rw [if_neg (by omega)] at h
    obtain ⟨change, hchange, h⟩ := Option.map_eq_some_iff.1 h
    obtain ⟨-, rfl⟩ := Prod.mk.inj h
    obtain ⟨hlt, -⟩ := List.getElem?_eq_some_iff.1 hchange
    simp only [KeepsUp, distance]
    omega

/-- Once the cache has seen what the watch has still to read, it holds what is stored and nothing
else, and is filled. -/
structure Follows (w : Watch k) (cache : Cache k) (c : Cluster) : Prop where
  mirrors : w.Mirrors cache c
  arrives : ∀ {p : Place} {o : Object k}, c.find? k p = some o →
    (cache.applyAll (w.ahead c)).1.objects.get? p.key = some o
  synced : (cache.applyAll (w.ahead c)).1.synced

namespace Follows

/-- A listing tells each stored object under a key of its own. -/
theorem start (hc : Orderly c) : (start k c).Follows .empty c where
  mirrors := .start hc.placed fun _ ↦ rfl
  arrives {p o} hfind := by
    have hcacheKey {q : Place} {v : Object k} (hv : c.find? k q = some v) : v.cacheKey = q.key :=
      Object.cacheKey_of_place (hc.placed.place hv)
    have honly : ∀ v ∈ (c.objects k).values, v.cacheKey = p.key → v = o := by
      intro v hv hkey
      obtain ⟨q, hq⟩ := Cluster.mem_values_iff.1 hv
      obtain rfl := Place.eq_of_key_eq (hc.isSlashFree.ns hq) (hc.isSlashFree.ns hfind)
        ((hcacheKey hq).symm.trans hkey)
      exact Option.some.inj (hq.symm.trans hfind)
    let listing : Cache k := (Cache.empty.applyAll [.relistStarted]).1
    obtain ⟨hget, hlisted⟩ := Cache.listed_of_mem (c := listing) rfl honly (hcacheKey hfind)
      (.inl (Cluster.mem_values_iff.2 ⟨p, hfind⟩))
    rw [ahead_start, Watch.start, Cache.applyAll_append, Cache.applyAll_append]
    refine (Cache.get?_relistDone _ _).trans ?_
    rw [hlisted, hget]
    rfl
  synced := by
    rw [ahead_start]
    exact Cache.synced_applyAll (.inr (by simp [Watch.start]))

theorem extend {change : Change} {e : WatchEvent k} {q : Place} (h : w.Follows cache c)
    (hmirrors : w.Mirrors cache c') (hlog : c'.log = c.log ++ [change])
    (hevent : eventOf? k change = some e)
    (hcached : ∀ {cache : Cache k} {p : Place} {o : Object k}, c'.find? k p = some o →
      (p ≠ q → cache.objects.get? p.key = some o) →
        (cache.apply e).1.objects.get? p.key = some o)
    (hfind : ∀ p, p ≠ q → c'.find? k p = c.find? k p) : w.Follows cache c' := by
  have hahead : w.ahead c' = w.ahead c ++ [e] := by
    rw [ahead_append h.mirrors.position_le hlog, hevent, Option.toList_some]
  refine ⟨hmirrors, fun {p o} hstored ↦ ?_, ?_⟩
  · rw [hahead, Cache.applyAll_append]
    exact hcached hstored fun hp ↦ h.arrives (hfind p hp ▸ hstored)
  · rw [hahead, Cache.applyAll_append]
    exact Cache.synced_applyAll (.inl h.synced)

theorem congr (h : w.Follows cache c) (hmirrors : w.Mirrors cache c')
    (hahead : w.ahead c' = w.ahead c) (hfind : ∀ p, c'.find? k p = c.find? k p) :
    w.Follows cache c' := by
  refine ⟨hmirrors, fun hstored ↦ ?_, hahead ▸ h.synced⟩
  rw [hahead]
  exact h.arrives (hfind _ ▸ hstored)

/-- A change elsewhere is no event, one of this kind is the next event. In the cache it displaces
nothing that is stored in another place, as that one has another key. -/
theorem tidy (hc : Placed c) (hfree : c.IsSlashFree) (hfree' : c'.IsSlashFree)
    (h : w.Follows cache c) (ht : Tidy c c') : w.Follows cache c' := by
  have hmirrors : w.Mirrors cache c' := h.mirrors.tidy hc ht
  have helsewhere {change : Change} (hlog : c'.log = c.log ++ [change])
      (hnone : eventOf? k change = none) : w.ahead c' = w.ahead c := by
    rw [ahead_append h.mirrors.position_le hlog, hnone, Option.toList_none, List.append_nil]
  cases ht with
  | unchanged same => exact h.congr hmirrors (by rw [ahead, same.log, ahead]) (same.find? k)
  | @stores j q new place stores =>
    by_cases hj : j = k
    · subst hj
      refine h.extend hmirrors stores.log (eventOf?_self _ false)
        (fun {cache p o} hstored hold ↦ ?_) fun p hp ↦ stores.find?_of_ne _ p fun he ↦ hp he.2
      have hkey : (new.withVersion (c.version + 1)).cacheKey = q.key :=
        Object.cacheKey_of_place ((Object.place_congr rfl rfl).trans place)
      refine (Cache.get?_put ..).trans ?_
      rw [hkey]
      by_cases hp : p = q
      · subst hp
        rw [if_pos rfl, ← stores.find?_self, hstored]
      · rw [if_neg fun he ↦ hp (Place.eq_of_key_eq (hfree'.ns hstored)
          (hfree'.ns stores.find?_self) he), hold hp]
    · refine h.congr hmirrors (helsewhere stores.log (eventOf?_of_ne hj _ false)) fun p ↦ ?_
      exact stores.find?_of_ne k p fun he ↦ hj he.1.symm
  | @removes j q old removes =>
    by_cases hj : j = k
    · subst hj
      refine h.extend hmirrors removes.log (eventOf?_self _ true)
        (fun {cache p o} hstored hold ↦ ?_) fun p hp ↦ removes.find?_of_ne _ p fun he ↦ hp he.2
      have hp : p ≠ q := by
        rintro rfl
        rw [removes.find?_self] at hstored
        contradiction
      change (cache.objects.erase old.cacheKey).get? p.key = some o
      rw [Table.get?_erase, Object.cacheKey_of_place (hc.place removes.find?_old),
        if_neg fun he ↦ hp (Place.eq_of_key_eq (hfree'.ns hstored)
          (hfree.ns removes.find?_old) he), hold hp]
    · refine h.congr hmirrors (helsewhere removes.log (eventOf?_of_ne hj _ true)) fun p ↦ ?_
      exact removes.find?_of_ne k p fun he ↦ hj he.1.symm

theorem read {event? : Option (WatchEvent k)} (h : w.Follows cache c) (hup : w.KeepsUp c)
    (hread : w.read? c = some (event?, w')) :
    w'.Follows (cache.applyAll event?.toList).1 c := by
  obtain ⟨hahead, -⟩ := read?_spec hup hread
  refine ⟨h.mirrors.read hup hread, fun hfind ↦ ?_, ?_⟩
  · rw [← Cache.applyAll_append, ← hahead]
    exact h.arrives hfind
  · rw [← Cache.applyAll_append, ← hahead]
    exact h.synced

end Follows

/-- A watch is opened on the cluster and read into an empty cache, and operations are made in
between. Nothing is read while more changes wait than a reader may be behind. -/
inductive Runs (k : Kind) (c : Cluster) :
    List Cluster.Operation → Watch k → Cache k → List (WatchEvent k) → Prop where
  | opened : Runs k c [] (start k c) .empty []
  | operate {ops : List Cluster.Operation} {w : Watch k} {cache : Cache k}
      {delivered : List (WatchEvent k)} {op : Cluster.Operation}
      (run : Runs k c ops w cache delivered)
      (orderly : op.IsOrderly (c.performAll ops)) : Runs k c (ops ++ [op]) w cache delivered
  | read {ops : List Cluster.Operation} {w w' : Watch k} {cache : Cache k}
      {delivered : List (WatchEvent k)} {event? : Option (WatchEvent k)}
      (run : Runs k c ops w cache delivered) (keepsUp : w.KeepsUp (c.performAll ops))
      (read : w.read? (c.performAll ops) = some (event?, w')) :
      Runs k c ops w' (cache.applyAll event?.toList).1 (delivered ++ event?.toList)

namespace Runs

variable {ops : List Cluster.Operation} {delivered : List (WatchEvent k)}

theorem orderly (h : Runs k c ops w cache delivered) (hc : Orderly c) :
    Orderly (c.performAll ops) := by
  induction h with
  | opened => exact hc
  | operate _ hop ih => exact Cluster.performAll_concat .. ▸ ih.perform hop
  | read _ _ _ ih => exact ih

theorem follows (h : Runs k c ops w cache delivered) (hc : Orderly c) :
    w.Follows cache (c.performAll ops) := by
  induction h with
  | opened => exact .start hc
  | operate run hop ih =>
    have hbefore := run.orderly hc
    rw [Cluster.performAll_concat]
    exact ih.tidy hbefore.placed hbefore.isSlashFree (hbefore.perform hop).isSlashFree
      (.perform hbefore.placed hop.keepsNames)
  | read _ hup hread ih => exact ih.read hup hread

/-- What has been delivered and what is ahead are the listing and all that was logged since. -/
theorem delivered_append_ahead (h : Runs k c ops w cache delivered) (hc : Orderly c)
    {changes : List Change} (hlog : (c.performAll ops).log = c.log ++ changes) :
    delivered ++ w.ahead (c.performAll ops) =
      (start k c).listing ++ changes.filterMap (eventOf? k) := by
  induction h generalizing changes with
  | opened =>
    obtain rfl : changes = [] := by simpa [Cluster.performAll] using hlog
    exact (List.nil_append _).trans ((ahead_start k c).trans (List.append_nil _).symm)
  | @operate ops w cache delivered op run hop ih =>
    have hbefore := run.orderly hc
    obtain ⟨earlier, -, hearlier⟩ := Cluster.exists_makes hc.placed.stamped ops
    obtain ⟨made, -, hmade⟩ :=
      (Cluster.Effect.perform (c.performAll ops) op).exists_differs hbefore.placed.stamped
    rw [Cluster.performAll_concat] at hlog ⊢
    obtain rfl : changes = earlier ++ made := by
      refine List.append_cancel_left (hlog.symm.trans ?_)
      rw [hmade, hearlier, List.append_assoc]
    rw [ahead_append_all (run.follows hc).mirrors.position_le hmade, ← List.append_assoc,
      ih hearlier, List.filterMap_append, List.append_assoc]
  | read run hup hread ih =>
    rw [List.append_assoc, ← (read?_spec hup hread).1]
    exact ih hlog

/-- A reader that is not too far behind comes to the end of what there is to read. -/
theorem exists_drained (h : Runs k c ops w cache delivered)
    (hup : w.KeepsUp (c.performAll ops)) :
    ∃ w cache delivered, Runs k c ops w cache delivered ∧ w.read? (c.performAll ops) = none := by
  induction hn : w.distance (c.performAll ops) using Nat.strongRecOn
    generalizing w cache delivered with
  | ind n ih =>
    rcases hread : w.read? (c.performAll ops) with _ | ⟨event?, w'⟩
    · exact ⟨w, cache, delivered, h, hread⟩
    · obtain ⟨hup', hlt⟩ := distance_lt_of_read? hup hread
      exact ih _ (hn ▸ hlt) (h.read hup hread) hup' rfl

/-- Whenever all has been read, the cache holds what is stored, object by object, and is filled; and
what was delivered is the listing and then what each operation changed, in order. -/
theorem holds_stored (hc : Orderly c) (h : Runs k c ops w cache delivered)
    (hdrained : w.read? (c.performAll ops) = none) :
    (∀ key o, cache.objects.get? key = some o ↔
        ∃ p : Place, p.key = key ∧ (c.performAll ops).find? k p = some o) ∧
      cache.synced ∧
      ∃ changes, Makes c ops changes ∧
        delivered = (start k c).listing ++ changes.filterMap (eventOf? k) := by
  have hahead : w.ahead (c.performAll ops) = [] :=
    ahead_of_read?_eq_none (keepsUp_of_read?_eq_none hdrained) hdrained
  have hfollows := h.follows hc
  obtain ⟨changes, hmakes, hlog⟩ := Cluster.exists_makes hc.placed.stamped ops
  refine ⟨fun key o ↦ ⟨fun hcached ↦ hfollows.mirrors.stored ?_, ?_⟩, ?_, changes, hmakes, ?_⟩
  · rwa [hahead]
  · rintro ⟨p, rfl, hstored⟩
    have harrives := hfollows.arrives hstored
    rwa [hahead] at harrives
  · have hsynced := hfollows.synced
    rwa [hahead] at hsynced
  · rw [← h.delivered_append_ahead hc hlog, hahead, List.append_nil]

def sampleCluster : Cluster := Cluster.empty.perform (.insert .configMap (Object.sampleMap "a" ""))

def sampleOps : List Cluster.Operation :=
  [.insert .configMap (Object.sampleMap "b" ""), .remove .configMap ⟨"ns", "a"⟩]

theorem holds_stored_of_removed :
    ∃ w cache delivered, Runs .configMap sampleCluster sampleOps w cache delivered ∧
      w.read? (sampleCluster.performAll sampleOps) = none ∧
      ∀ key o, cache.objects.get? key = some o ↔
        ∃ p : Place, p.key = key ∧
          (sampleCluster.performAll sampleOps).find? .configMap p = some o := by
  have hinsert (c : Cluster) (name : String) :
      Cluster.Operation.IsOrderly c (.insert .configMap (Object.sampleMap name "")) :=
    ⟨trivial, by rintro ns ⟨⟩; decide⟩
  have hc : Orderly sampleCluster := .perform .empty (hinsert _ "a")
  have hup (ops : List Cluster.Operation) (w : Watch .configMap)
      (h : (sampleCluster.performAll ops).log.length ≤ Cluster.backlog) :
      w.KeepsUp (sampleCluster.performAll ops) := Nat.le_add_left_of_le h
  have hinserted := (opened (k := .configMap)).operate (hinsert sampleCluster "b")
  have hstarted := hinserted.read (hup _ _ (by decide +kernel)) rfl
  have hremove (c : Cluster) :
      Cluster.Operation.IsOrderly c (.remove .configMap ⟨"ns", "a"⟩) := ⟨trivial, trivial⟩
  have hremoved := hstarted.operate (hremove _)
  obtain ⟨w, cache, delivered, hrun, hdrained⟩ :=
    hremoved.exists_drained (hup _ _ (by decide +kernel))
  exact ⟨w, cache, delivered, hrun, hdrained, (holds_stored hc hrun hdrained).1⟩

end Runs

end Watch

end Submarine
