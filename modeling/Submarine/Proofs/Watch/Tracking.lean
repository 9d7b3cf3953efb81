import Submarine.Proofs.Watch.Ahead

namespace Submarine

open Cluster (Proper Gentle)

variable {k : Kind} {c c' : Cluster}

/-- An object that was stored at some time, under a version that has been given. -/
def Cluster.Knows (c : Cluster) (o : Object k) : Prop :=
  ∃ p n, o.Named p ∧ n ≤ c.version ∧ o.HasVersion n

theorem Cluster.Knows.mono {o : Object k} (h : c.Knows o) (hle : c.version ≤ c'.version) :
    c'.Knows o := by
  obtain ⟨p, n, hnamed, hn, hversion⟩ := h
  exact ⟨p, n, hnamed, Nat.le_trans hn hle, hversion⟩

theorem Cluster.Proper.knows (hc : c.Proper) {p : Place} {o : Object k}
    (h : c.find? k p = some o) : c.Knows o := by
  obtain ⟨n, hn, hversion⟩ := hc.stamped.bears h
  exact ⟨p, n, hc.named h, hn, hversion⟩

theorem Cluster.mem_values_iff {o : Object k} :
    o ∈ (c.objects k).values ↔ ∃ p, c.find? k p = some o := by
  constructor
  · intro ho
    obtain ⟨⟨p, o'⟩, he, rfl⟩ := List.mem_map.1 ho
    exact ⟨p, Table.mem_entries_iff.1 he⟩
  · rintro ⟨p, hfind⟩
    exact List.mem_map.2 ⟨(p, o), Table.mem_entries_iff.2 hfind, rfl⟩

/-- Under the key of a place only what is stored there can be listed. -/
theorem Cluster.Proper.find?_of_mem_values (hc : c.Proper) {p : Place} {o : Object k}
    (ho : o ∈ (c.objects k).values) (hp : p.IsKeyed) (hkey : o.cacheKey = p.key) :
    c.find? k p = some o := by
  obtain ⟨q, hq⟩ := Cluster.mem_values_iff.1 ho
  rw [(hc.named hq).cacheKey] at hkey
  obtain rfl := (hc.named hq).isKeyed.key_injective hp hkey
  exact hq

theorem Cluster.Proper.pairwise_values (hc : c.Proper) :
    (c.objects k).values.Pairwise fun o o' ↦ o.cacheKey ≠ o'.cacheKey := by
  refine List.pairwise_map.2 ((c.objects k).sorted.imp_of_mem fun {e e'} he he' hlt hkey ↦ ?_)
  have hnamed := hc.named (Table.mem_entries_iff.1 he)
  have hnamed' := hc.named (Table.mem_entries_iff.1 he')
  rw [hnamed.cacheKey, hnamed'.cacheKey] at hkey
  rw [Table.Precedes, hnamed.isKeyed.key_injective hnamed'.isKeyed hkey] at hlt
  exact List.lt_irrefl _ hlt

theorem versionMoved_of_lt {old new : Object k} {m n : Nat} (hold : old.HasVersion m)
    (hnew : new.HasVersion n) (h : m < n) : Router.versionMoved old new := by
  have hne : old.metadata.resourceVersion ≠ new.metadata.resourceVersion := by
    intro he
    have hm : new.HasVersion m := he.symm.trans hold
    have := hm.unique hnew
    omega
  simpa [Router.versionMoved] using hne

namespace Watch

variable {w w' : Watch k}

def ahead (w : Watch k) (c : Cluster) : List (WatchEvent k) :=
  w.listing ++ (c.log.drop w.position).filterMap (eventOf? k)

def KeepsUp (w : Watch k) (c : Cluster) : Prop := c.log.length ≤ w.position + Cluster.backlog

theorem ahead_start (k : Kind) (c : Cluster) : (start k c).ahead c = (start k c).listing := by
  simp [ahead, start]

theorem eventOf?_self (o : Object k) (isRemoval : Bool) :
    eventOf? k ⟨⟨k, o⟩, isRemoval⟩ = some (if isRemoval then .deleted o else .applied o) := by
  simp [eventOf?]

theorem eventOf?_of_ne {j : Kind} (hj : j ≠ k) (o : Object j) (isRemoval : Bool) :
    eventOf? k ⟨⟨j, o⟩, isRemoval⟩ = none := by
  simp [eventOf?, AnyObject.as?, hj]

/-- What is logged later comes after what is ahead already. -/
theorem ahead_append_all {changes : List Change} (hposition : w.position ≤ c.log.length)
    (hlog : c'.log = c.log ++ changes) :
    w.ahead c' = w.ahead c ++ changes.filterMap (eventOf? k) := by
  rw [ahead, ahead, hlog, List.drop_append_of_le_length hposition, List.filterMap_append,
    List.append_assoc]

theorem ahead_append {change : Change} (hposition : w.position ≤ c.log.length)
    (hlog : c'.log = c.log ++ [change]) :
    w.ahead c' = w.ahead c ++ (eventOf? k change).toList := by
  rw [ahead_append_all hposition hlog]
  cases h : eventOf? k change with
  | none => simp [h]
  | some e => simp [h]

theorem position_le_append {change : Change} (hposition : w.position ≤ c.log.length)
    (hlog : c'.log = c.log ++ [change]) : w.position ≤ c'.log.length := by
  rw [hlog, List.length_append]
  exact Nat.le_add_right_of_le hposition

theorem read?_spec {event? : Option (WatchEvent k)} (hup : w.KeepsUp c)
    (h : w.read? c = some (event?, w')) :
    w.ahead c = event?.toList ++ w'.ahead c ∧
      (w.position ≤ c.log.length → w'.position ≤ c.log.length) := by
  unfold read? at h
  split at h
  · next e listing hlisting =>
    obtain ⟨rfl, rfl⟩ := Prod.mk.inj (Option.some.inj h)
    exact ⟨by simp [ahead, hlisting], id⟩
  · next hlisting =>
    unfold readLog? at h
    rw [if_neg (by simp only [KeepsUp] at hup; omega)] at h
    obtain ⟨change, hchange, h⟩ := Option.map_eq_some_iff.1 h
    obtain ⟨rfl, rfl⟩ := Prod.mk.inj h
    obtain ⟨hlt, rfl⟩ := List.getElem?_eq_some_iff.1 hchange
    refine ⟨?_, fun _ ↦ hlt⟩
    simp only [ahead, hlisting, List.nil_append]
    rw [List.drop_eq_getElem_cons hlt, List.filterMap_cons]
    cases eventOf? k c.log[w.position] with
    | none => rfl
    | some e => rfl

theorem ahead_of_read?_eq_none (hup : w.KeepsUp c) (h : w.read? c = none) : w.ahead c = [] := by
  unfold read? at h
  split at h
  · contradiction
  · next hlisting =>
    unfold readLog? at h
    rw [if_neg (by simp only [KeepsUp] at hup; omega)] at h
    have hend : c.log.length ≤ w.position := by simpa using h
    simp [ahead, hlisting, List.drop_eq_nil_of_le hend]

/-- The cache comes to hold what is stored, and hears of every object in a version it has not had
before. -/
structure Tracks (w : Watch k) (cache : Cache k) (c : Cluster) : Prop where
  position_le : w.position ≤ c.log.length
  moves : cache.Moves (w.ahead c)
  cached : ∀ {key : String} {o : Object k}, cache.objects.get? key = some o → c.Knows o
  coming : ∀ {e : WatchEvent k} {o : Object k}, e ∈ w.ahead c → e.object? = some o → c.Knows o
  arrives : ∀ {p : Place}, p.IsKeyed →
    (cache.applyAll (w.ahead c)).1.objects.get? p.key = c.find? k p

namespace Tracks

variable {cache : Cache k}

theorem unchanged (h : w.Tracks cache c) (hsame : Cluster.Unchanged c c') :
    w.Tracks cache c' := by
  have hahead : w.ahead c' = w.ahead c := by rw [ahead, hsame.log, ahead]
  have hversion : c.version ≤ c'.version := Nat.le_of_eq hsame.version.symm
  refine ⟨hsame.log ▸ h.position_le, ?_, fun hcached ↦ (h.cached hcached).mono hversion,
    fun he ho ↦ ?_, fun hp ↦ ?_⟩
  · rw [hahead]
    exact h.moves
  · rw [hahead] at he
    exact (h.coming he ho).mono hversion
  · rw [hahead, hsame.find?]
    exact h.arrives hp

theorem elsewhere {change : Change} (h : w.Tracks cache c) (hlog : c'.log = c.log ++ [change])
    (hnone : eventOf? k change = none) (hversion : c.version ≤ c'.version)
    (hfind : ∀ p, c'.find? k p = c.find? k p) : w.Tracks cache c' := by
  have hahead : w.ahead c' = w.ahead c := by
    rw [ahead_append h.position_le hlog, hnone, Option.toList_none, List.append_nil]
  refine ⟨position_le_append h.position_le hlog, ?_, fun hcached ↦ (h.cached hcached).mono hversion,
    fun he ho ↦ ?_, fun hp ↦ ?_⟩
  · rw [hahead]
    exact h.moves
  · rw [hahead] at he
    exact (h.coming he ho).mono hversion
  · rw [hahead, hfind]
    exact h.arrives hp

theorem extend {change : Change} {e : WatchEvent k} (h : w.Tracks cache c)
    (hlog : c'.log = c.log ++ [change]) (hevent : eventOf? k change = some e)
    (hversion : c.version ≤ c'.version)
    (hmoves : (cache.applyAll (w.ahead c)).1.Moves [e])
    (hknows : ∀ o, e.object? = some o → c'.Knows o)
    (hfind : ∀ {p : Place}, p.IsKeyed →
      ((cache.applyAll (w.ahead c)).1.apply e).1.objects.get? p.key = c'.find? k p) :
    w.Tracks cache c' := by
  have hahead : w.ahead c' = w.ahead c ++ [e] := by
    rw [ahead_append h.position_le hlog, hevent, Option.toList_some]
  refine ⟨position_le_append h.position_le hlog, ?_, fun hcached ↦ (h.cached hcached).mono hversion,
    fun he ho ↦ ?_, fun hp ↦ ?_⟩
  · rw [hahead, Cache.moves_append]
    exact ⟨h.moves, hmoves⟩
  · rw [hahead] at he
    rcases List.mem_append.1 he with hold | hnew
    · exact (h.coming hold ho).mono hversion
    · obtain rfl := List.mem_singleton.1 hnew
      exact hknows _ ho
  · rw [hahead, Cache.applyAll_append]
    exact hfind hp

theorem stores {j : Kind} {q : Place} {o : Object j} (hc : c.Proper) (h : w.Tracks cache c)
    (hnamed : o.Named q) (hstores : Cluster.Stores c q o c') : w.Tracks cache c' := by
  have hversion : c.version ≤ c'.version := by
    rw [hstores.version]
    omega
  by_cases hj : j = k
  · subst hj
    have hnew : (o.withVersion (c.version + 1)).Named q := hnamed.congr rfl rfl hnamed.uid
    refine h.extend hstores.log (eventOf?_self _ false) hversion
      ⟨fun new hnews old hold ↦ ?_, trivial⟩ (fun new hobject ↦ ?_) fun {p} hp ↦ ?_
    · obtain rfl := Option.some.inj hnews
      rw [hnew.cacheKey, h.arrives hnamed.isKeyed] at hold
      obtain ⟨n, hn, hbears⟩ := hc.stamped.bears hold
      exact versionMoved_of_lt hbears (.withVersion o _) (Nat.lt_succ_of_le hn)
    · obtain rfl := Option.some.inj hobject
      exact ⟨q, c.version + 1, hnew, Nat.le_of_eq hstores.version.symm, .withVersion o _⟩
    · refine (Cache.get?_put ..).trans ?_
      rw [hnew.cacheKey]
      by_cases hpq : p = q
      · subst hpq
        rw [if_pos rfl, hstores.find?_self]
      · rw [if_neg fun hk ↦ hpq (hp.key_injective hnamed.isKeyed hk), h.arrives hp,
          hstores.find?_of_ne _ _ fun he ↦ hpq he.2]
  · refine h.elsewhere hstores.log (eventOf?_of_ne hj _ false) hversion fun p ↦ ?_
    exact hstores.find?_of_ne k p fun he ↦ hj he.1.symm

theorem removes {j : Kind} {q : Place} {o : Object j} (hc : c.Proper) (h : w.Tracks cache c)
    (hremoves : Cluster.Removes c q o c') : w.Tracks cache c' := by
  have hversion : c.version ≤ c'.version := Nat.le_of_eq hremoves.version.symm
  by_cases hj : j = k
  · subst hj
    have hnamed := hc.named hremoves.find?_old
    refine h.extend hremoves.log (eventOf?_self _ true) hversion ⟨fun new hnews ↦ ?_, trivial⟩
      (fun old hobject ↦ ?_) fun {p} hp ↦ ?_
    · exact absurd hnews (by simp [WatchEvent.news?])
    · obtain rfl := Option.some.inj hobject
      exact (hc.knows hremoves.find?_old).mono hversion
    · change (((cache.applyAll (w.ahead c)).1.objects.erase o.cacheKey).get? p.key) = _
      rw [Table.get?_erase, hnamed.cacheKey]
      by_cases hpq : p = q
      · subst hpq
        rw [if_pos rfl, hremoves.find?_self]
      · rw [if_neg fun hk ↦ hpq (hp.key_injective hnamed.isKeyed hk), h.arrives hp,
          hremoves.find?_of_ne _ _ fun he ↦ hpq he.2]
  · refine h.elsewhere hremoves.log (eventOf?_of_ne hj _ true) hversion fun p ↦ ?_
    exact hremoves.find?_of_ne k p fun he ↦ hj he.1.symm

theorem gentle (hc : c.Proper) (h : w.Tracks cache c) (hg : Gentle c c') : w.Tracks cache c' := by
  cases hg with
  | unchanged same => exact h.unchanged same
  | stores p o named _ stores => exact h.stores hc named stores
  | removes p o removes => exact h.removes hc removes

theorem read {event? : Option (WatchEvent k)} (h : w.Tracks cache c) (hup : w.KeepsUp c)
    (hread : w.read? c = some (event?, w')) :
    w'.Tracks (cache.applyAll event?.toList).1 c := by
  obtain ⟨hahead, hposition⟩ := read?_spec hup hread
  have hmoves := h.moves
  rw [hahead, Cache.moves_append] at hmoves
  refine ⟨hposition h.position_le, hmoves.2, fun {key o} hcached ↦ ?_, fun {e o} he ho ↦ ?_,
    fun {p} hp ↦ ?_⟩
  · rcases Cache.applyAll_source hcached with hold | ⟨e, he, hnews, -⟩
    · exact h.cached hold
    · refine h.coming (e := e) ?_ (WatchEvent.object?_of_news? hnews)
      rw [hahead]
      exact List.mem_append_left _ he
  · refine h.coming ?_ ho
    rw [hahead]
    exact List.mem_append_right _ he
  · rw [← Cache.applyAll_append, ← hahead]
    exact h.arrives hp

theorem get?_start (hc : c.Proper) (cache : Cache k) {p : Place} (hp : p.IsKeyed) :
    (cache.applyAll ((start k c).ahead c)).1.objects.get? p.key = c.find? k p := by
  rw [ahead_start, Watch.start, Cache.applyAll_append, Cache.applyAll_append]
  refine (Cache.get?_relistDone _ _).trans ?_
  let listing : Cache k := (cache.applyAll [.relistStarted]).1
  cases hfind : c.find? k p with
  | none =>
    have hfree : ∀ v ∈ (c.objects k).values, v.cacheKey ≠ p.key := by
      intro v hv hkey
      rw [hc.find?_of_mem_values hv hp hkey] at hfind
      contradiction
    have hlisted : (listing.applyAll ((c.objects k).values.map .listed)).1.isListed p.key =
        false := (Cache.listed_of_not_mem hfree).2
    rw [hlisted]
    rfl
  | some o =>
    have honly : ∀ v ∈ (c.objects k).values, v.cacheKey = p.key → v = o := by
      intro v hv hkey
      exact Option.some.inj ((hc.find?_of_mem_values hv hp hkey).symm.trans hfind)
    have hrelisting : listing.relisting.isSome := rfl
    obtain ⟨hget, hlisted⟩ := Cache.listed_of_mem hrelisting honly (hc.named hfind).cacheKey
      (.inl (Cluster.mem_values_iff.2 ⟨p, hfind⟩))
    rw [hlisted, hget]
    rfl

theorem start (hc : c.Proper) (hempty : ∀ key, cache.objects.get? key = none) :
    (start k c).Tracks cache c := by
  refine ⟨Nat.le_refl _, ?_, fun hcached ↦ ?_, fun {e o} he ho ↦ ?_, get?_start hc cache⟩
  · rw [ahead_start, Watch.start, Cache.moves_append, Cache.moves_append]
    refine ⟨⟨⟨by simp [WatchEvent.news?], trivial⟩, ?_⟩, by simp [WatchEvent.news?], trivial⟩
    exact Cache.moves_listed hc.pairwise_values fun v _ ↦ hempty v.cacheKey
  · rw [hempty] at hcached
    contradiction
  · rw [ahead_start] at he
    simp only [Watch.start, List.mem_append, List.mem_singleton, List.mem_map] at he
    rcases he with (rfl | ⟨v, hv, rfl⟩) | rfl
    · contradiction
    · obtain ⟨p, hfind⟩ := Cluster.mem_values_iff.1 hv
      obtain rfl := Option.some.inj ho
      exact hc.knows hfind
    · contradiction

end Tracks

end Watch

end Submarine
