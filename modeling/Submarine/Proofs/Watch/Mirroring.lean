import Submarine.Proofs.Cluster.Naming
import Submarine.Proofs.Watch.Tracking

namespace Submarine

open Cluster (Placed Tidy)

variable {k : Kind} {c c' : Cluster}

namespace Watch

variable {w w' : Watch k} {cache : Cache k}

structure Mirrors (w : Watch k) (cache : Cache k) (c : Cluster) : Prop where
  position_le : w.position ≤ c.log.length
  stored : ∀ {key : String} {o : Object k},
    (cache.applyAll (w.ahead c)).1.objects.get? key = some o →
      ∃ p, p.key = key ∧ c.find? k p = some o

namespace Mirrors

theorem congr (h : w.Mirrors cache c) (hposition : w.position ≤ c'.log.length)
    (hahead : w.ahead c' = w.ahead c) (hfind : ∀ p, c'.find? k p = c.find? k p) :
    w.Mirrors cache c' where
  position_le := hposition
  stored hcached := by
    rw [hahead] at hcached
    obtain ⟨p, hkey, hstored⟩ := h.stored hcached
    exact ⟨p, hkey, (hfind p).trans hstored⟩

theorem elsewhere {change : Change} (h : w.Mirrors cache c) (hlog : c'.log = c.log ++ [change])
    (hnone : eventOf? k change = none) (hfind : ∀ p, c'.find? k p = c.find? k p) :
    w.Mirrors cache c' := by
  refine h.congr (position_le_append h.position_le hlog) ?_ hfind
  rw [ahead_append h.position_le hlog, hnone, Option.toList_none, List.append_nil]

/-- What the new event leaves in the cache but for its own key is stored in other places. -/
theorem extend {change : Change} {e : WatchEvent k} {q : Place} (h : w.Mirrors cache c)
    (hlog : c'.log = c.log ++ [change]) (hevent : eventOf? k change = some e)
    (hfind : ∀ p, p ≠ q → c'.find? k p = c.find? k p)
    (hcached : ∀ {cache : Cache k} {key : String} {o : Object k},
      (cache.apply e).1.objects.get? key = some o →
        q.key = key ∧ c'.find? k q = some o ∨ q.key ≠ key ∧ cache.objects.get? key = some o) :
    w.Mirrors cache c' where
  position_le := position_le_append h.position_le hlog
  stored {key o} hlast := by
    rw [ahead_append h.position_le hlog, hevent, Option.toList_some, Cache.applyAll_append] at hlast
    rcases hcached hlast with ⟨hkey, hstored⟩ | ⟨hne, hold⟩
    · exact ⟨q, hkey, hstored⟩
    · obtain ⟨p, rfl, hstored⟩ := h.stored hold
      refine ⟨p, rfl, (hfind p ?_).trans hstored⟩
      rintro rfl
      exact hne rfl

theorem tidy (hc : Placed c) (h : w.Mirrors cache c) (ht : Tidy c c') : w.Mirrors cache c' := by
  cases ht with
  | unchanged same =>
    refine h.congr (same.log ▸ h.position_le) ?_ (same.find? k)
    rw [ahead, same.log, ahead]
  | @stores j q o place stores =>
    by_cases hj : j = k
    · subst hj
      refine h.extend stores.log (eventOf?_self _ false)
        (fun p hp ↦ stores.find?_of_ne _ p fun he ↦ hp he.2) fun {cache key o'} hcached ↦ ?_
      have hnew : (o.withVersion (c.version + 1)).cacheKey = q.key :=
        Object.cacheKey_of_place ((Object.place_congr rfl rfl).trans place)
      have hput := (Cache.get?_put cache (o.withVersion (c.version + 1)) key).symm.trans hcached
      rw [hnew] at hput
      split at hput
      · next hkey => exact .inl ⟨hkey.symm, stores.find?_self.trans hput⟩
      · next hkey => exact .inr ⟨fun he ↦ hkey he.symm, hput⟩
    · refine h.elsewhere stores.log (eventOf?_of_ne hj _ false) fun p ↦ ?_
      exact stores.find?_of_ne k p fun he ↦ hj he.1.symm
  | @removes j q o removes =>
    by_cases hj : j = k
    · subst hj
      refine h.extend removes.log (eventOf?_self _ true)
        (fun p hp ↦ removes.find?_of_ne _ p fun he ↦ hp he.2) fun {cache key o'} hcached ↦ ?_
      change (cache.objects.erase o.cacheKey).get? key = some o' at hcached
      rw [Table.get?_erase, Object.cacheKey_of_place (hc.place removes.find?_old)] at hcached
      split at hcached
      · contradiction
      · next hkey => exact .inr ⟨fun he ↦ hkey he.symm, hcached⟩
    · refine h.elsewhere removes.log (eventOf?_of_ne hj _ true) fun p ↦ ?_
      exact removes.find?_of_ne k p fun he ↦ hj he.1.symm

theorem read {event? : Option (WatchEvent k)} (h : w.Mirrors cache c) (hup : w.KeepsUp c)
    (hread : w.read? c = some (event?, w')) :
    w'.Mirrors (cache.applyAll event?.toList).1 c := by
  obtain ⟨hahead, hposition⟩ := read?_spec hup hread
  refine ⟨hposition h.position_le, fun hcached ↦ h.stored ?_⟩
  rwa [hahead, Cache.applyAll_append]

theorem start (hc : Placed c) (hempty : ∀ key, cache.objects.get? key = none) :
    (start k c).Mirrors cache c where
  position_le := Nat.le_refl _
  stored {key o} hcached := by
    rcases Cache.applyAll_source hcached with hold | ⟨e, he, hnews, rfl⟩
    · rw [hempty] at hold
      contradiction
    · rw [ahead_start] at he
      simp only [Watch.start, List.mem_append, List.mem_singleton, List.mem_map] at he
      rcases he with (rfl | ⟨v, hv, rfl⟩) | rfl
      · contradiction
      · obtain rfl := Option.some.inj hnews
        obtain ⟨p, hfind⟩ := Cluster.mem_values_iff.1 hv
        exact ⟨p, (Object.cacheKey_of_place (hc.place hfind)).symm, hfind⟩
      · contradiction

end Mirrors

end Watch

end Submarine
