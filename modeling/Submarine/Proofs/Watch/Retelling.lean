import Submarine.Proofs.Watch.Ahead
import Mathlib.Data.List.Nodup

namespace Submarine

variable {k : Kind}

namespace Notification

/-- What a copy of the cached objects becomes when the notification is heard. -/
def replay (t : Table String (Object k)) : Notification k → Table String (Object k)
  | .added new => t.insert new.cacheKey new
  | .updated _ new => t.insert new.cacheKey new
  | .deleted (.known old) => t.erase old.cacheKey
  | .deleted (.vanished key _) => t.erase key

def replayAll (t : Table String (Object k)) (heard : List (Notification k)) :
    Table String (Object k) :=
  heard.foldl replay t

/-- Tombstones that name their keys take those keys away, whatever their order. -/
theorem get?_replayAll_vanished {heard : List (Notification k)}
    (h : ∀ n ∈ heard, ∃ key last, n = .deleted (.vanished key last))
    {t : Table String (Object k)} {key : String} {o : Object k} :
    (replayAll t heard).get? key = some o ↔
      t.get? key = some o ∧ ∀ last, .deleted (.vanished key last) ∉ heard := by
  induction heard generalizing t with
  | nil => simp [replayAll]
  | cons n rest ih =>
    obtain ⟨key', last', rfl⟩ := h n (List.mem_cons_self ..)
    refine (ih fun n hn ↦ h n (List.mem_cons_of_mem _ hn)).trans ?_
    by_cases hkey : key = key'
    · subst hkey
      constructor
      · rintro ⟨hget, -⟩
        exact absurd hget (by simp [replay])
      · rintro ⟨-, hnot⟩
        exact absurd (List.mem_cons_self ..) (hnot last')
    · simp [replay, Table.get?_erase, hkey]

end Notification

namespace Cache

open Notification (replayAll)
open Object (sampleMap)

variable {c c' : Cache k} {e : WatchEvent k} {es : List (WatchEvent k)}
  {heard told : List (Notification k)} {key : String} {last : Object k}

/-- The notifications of a run of events, and the cache that it leads to. What a single event
changed may be told in any order. -/
inductive Hears : Cache k → List (WatchEvent k) → List (Notification k) → Cache k → Prop where
  | nil (c : Cache k) : Hears c [] [] c
  | cons {c c' : Cache k} {e : WatchEvent k} {es : List (WatchEvent k)}
      {heard told : List (Notification k)} (order : heard.Perm (c.apply e).2)
      (rest : Hears (c.apply e).1 es told c') : Hears c (e :: es) (heard ++ told) c'

theorem exists_vanished_of_mem {n : Notification k} (h : n ∈ (c.apply .relistDone).2) :
    ∃ key last, n = .deleted (.vanished key last) := by
  obtain ⟨⟨key, last⟩, -, rfl⟩ := List.mem_map.1 h
  exact ⟨key, last, rfl⟩

theorem vanished_mem_iff :
    .deleted (.vanished key last) ∈ (c.apply .relistDone).2 ↔
      c.objects.get? key = some last ∧ c.isListed key = false := by
  have hgone : (key, last) ∈ (c.objects.filterKeys fun key ↦ !c.isListed key).entries ↔
      c.objects.get? key = some last ∧ c.isListed key = false := by
    rw [Table.mem_entries_iff, Table.get?_filterKeys]
    cases c.isListed key <;> simp
  rw [← hgone]
  constructor
  · intro h
    obtain ⟨⟨key', last'⟩, hmem, he⟩ := List.mem_map.1 h
    injection he with he
    injection he with hkey hlast
    subst hkey hlast
    exact hmem
  · exact fun h ↦ List.mem_map.2 ⟨(key, last), h, rfl⟩

theorem nodup_relistDone (c : Cache k) : (c.apply .relistDone).2.Nodup := by
  refine List.Pairwise.map _ (fun e e' hlt he ↦ ?_) (Table.sorted _)
  injection he with he
  injection he with hkey
  rw [Table.Precedes, hkey] at hlt
  exact List.lt_irrefl _ hlt

/-- What one event changed can be replayed on what was cached before. -/
theorem replay_apply (horder : heard.Perm (c.apply e).2) :
    replayAll c.objects heard = (c.apply e).1.objects := by
  have hput (o : Object k) (hheard : heard = [c.putNotification o]) :
      replayAll c.objects heard = (c.put o).objects := by
    subst hheard
    unfold putNotification
    cases c.objects.get? o.cacheKey <;> rfl
  cases e with
  | applied o => exact hput o (List.perm_singleton.1 horder)
  | listed o => exact hput o (List.perm_singleton.1 horder)
  | deleted o =>
    obtain rfl := List.perm_singleton.1 horder
    rfl
  | relistStarted =>
    obtain rfl := List.perm_nil.1 horder
    rfl
  | relistDone =>
    have hall : ∀ n ∈ heard, ∃ key last, n = .deleted (.vanished key last) :=
      fun n hn ↦ exists_vanished_of_mem (horder.mem_iff.1 hn)
    refine Table.ext_get? fun key ↦ Option.ext fun o ↦ ?_
    rw [Notification.get?_replayAll_vanished hall, get?_relistDone]
    simp only [horder.mem_iff, vanished_mem_iff]
    cases c.isListed key with
    | true => simp
    | false => simpa using fun h ↦ ⟨o, h⟩

theorem replay_hears (h : Hears c es told c') : replayAll c.objects told = c'.objects := by
  induction h with
  | nil => rfl
  | cons order rest ih =>
    refine (List.foldl_append ..).trans ?_
    exact (congrArg (replayAll · _) (replay_apply order)).trans ih

theorem hears_applyAll (c : Cache k) (es : List (WatchEvent k)) :
    Hears c es (c.applyAll es).2 (c.applyAll es).1 := by
  induction es generalizing c with
  | nil => exact .nil c
  | cons e rest ih => exact .cons (.refl _) (ih (c.apply e).1)

theorem eq_of_hears (h : Hears c es told c') : c' = (c.applyAll es).1 := by
  induction h with
  | nil => rfl
  | cons _ _ ih => exact ih

/-- What the notifications of one event tell of the cache before and after it. -/
structure Reports (c : Cache k) (e : WatchEvent k) (heard : List (Notification k)) : Prop where
  added : ∀ new, .added new ∈ heard →
    c.objects.get? new.cacheKey = none ∧ (c.apply e).1.objects.get? new.cacheKey = some new
  updated : ∀ old new, .updated old new ∈ heard →
    c.objects.get? new.cacheKey = some old ∧ (c.apply e).1.objects.get? new.cacheKey = some new
  -- The end of a listing tells once of each key that it takes away, and only that does.
  vanished : ∀ key last, heard.count (.deleted (.vanished key last)) =
    if e = .relistDone ∧ c.objects.get? key = some last ∧
      (c.apply e).1.objects.get? key = none then 1 else 0
  only_vanished : e = .relistDone → ∀ n ∈ heard, ∃ key last, n = .deleted (.vanished key last)

theorem reports_put {o : Object k} (hkept : (c.apply e).1.objects.get? o.cacheKey = some o)
    (he : e ≠ .relistDone) : c.Reports e [c.putNotification o] := by
  unfold putNotification
  cases hold : c.objects.get? o.cacheKey with
  | none =>
    refine ⟨fun new hnew ↦ ?_, by simp, by simp [he], fun h ↦ absurd h he⟩
    obtain rfl : new = o := by simpa using hnew
    exact ⟨hold, hkept⟩
  | some old =>
    refine ⟨by simp, fun old' new hnew ↦ ?_, by simp [he], fun h ↦ absurd h he⟩
    obtain ⟨rfl, rfl⟩ : old' = old ∧ new = o := by simpa using hnew
    exact ⟨hold, hkept⟩

theorem reports_apply (horder : heard.Perm (c.apply e).2) : c.Reports e heard := by
  cases e with
  | applied o =>
    obtain rfl := List.perm_singleton.1 horder
    exact reports_put (Table.get?_insert_self ..) (by simp)
  | listed o =>
    obtain rfl := List.perm_singleton.1 horder
    exact reports_put (Table.get?_insert_self ..) (by simp)
  | deleted o =>
    obtain rfl := List.perm_singleton.1 horder
    exact ⟨by simp, by simp, by simp, by simp⟩
  | relistStarted =>
    obtain rfl := List.perm_nil.1 horder
    exact ⟨by simp, by simp, by simp, by simp⟩
  | relistDone =>
    have hall : ∀ n ∈ heard, ∃ key last, n = .deleted (.vanished key last) :=
      fun n hn ↦ exists_vanished_of_mem (horder.mem_iff.1 hn)
    refine ⟨fun new hnew ↦ ?_, fun old new hnew ↦ ?_, fun key last ↦ ?_, fun _ ↦ hall⟩
    · obtain ⟨key, last, he⟩ := hall _ hnew
      contradiction
    · obtain ⟨key, last, he⟩ := hall _ hnew
      contradiction
    · rw [horder.count_eq, (nodup_relistDone c).count]
      refine if_congr ?_ rfl rfl
      rw [vanished_mem_iff, get?_relistDone]
      cases c.isListed key with
      | true => simpa using fun h hnone ↦ Option.some_ne_none _ (h.symm.trans hnone)
      | false => simp

/-- Over any run of events, with listings begun, nested, left or closed in any order: a copy that
follows the notifications alone holds what is cached, and the notifications of the next event say
exactly what that event changes. A tombstone names the key of the object that it carries. -/
theorem notifications_retell (hrun : Hears empty es told c) (horder : heard.Perm (c.apply e).2) :
    replayAll ∅ told = c.objects ∧ c.Reports e heard ∧
      ∀ key last, .deleted (.vanished key last) ∈ heard → last.cacheKey = key := by
  have hreports : c.Reports e heard := reports_apply horder
  refine ⟨replay_hears hrun, hreports, fun key last hmem ↦ ?_⟩
  have htold := List.count_pos_iff.2 hmem
  rw [hreports.vanished key last] at htold
  split at htold
  · next hgone =>
    have hcached := hgone.2.1
    rw [eq_of_hears hrun] at hcached
    rcases applyAll_source hcached with hnone | ⟨_, _, _, hkey⟩
    · contradiction
    · exact hkey
  · contradiction

def sampleListings : List (WatchEvent .configMap) :=
  [.applied (sampleMap "a" "1"), .relistStarted, .listed (sampleMap "b" "2"),
    .listed (sampleMap "c" "3"), .relistStarted, .listed (sampleMap "a" "4")]

/-- When it ends, the two tombstones are heard in the reverse order. -/
theorem notifications_retell_of_reversed :
    let c := (empty.applyAll sampleListings).1
    let heard : List (Notification .configMap) :=
      [.deleted (.vanished "ns/c" (sampleMap "c" "3")),
        .deleted (.vanished "ns/b" (sampleMap "b" "2"))]
    heard.Perm (c.apply .relistDone).2 ∧
      replayAll ∅ (empty.applyAll sampleListings).2 = c.objects ∧ c.Reports .relistDone heard := by
  intro c heard
  have horder : heard.Perm (c.apply .relistDone).2 := .swap ..
  have hretold := notifications_retell (hears_applyAll empty sampleListings) horder
  exact ⟨horder, hretold.1, hretold.2.1⟩

end Cache

end Submarine
