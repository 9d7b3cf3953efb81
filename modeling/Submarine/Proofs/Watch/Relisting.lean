import Submarine.Proofs.Watch.Retelling
import Mathlib.Data.List.Induction

namespace Submarine

variable {k : Kind}

namespace WatchEvent

variable {past during during' : List (WatchEvent k)} {e : WatchEvent k} {key : String}

/-- The last listing of the past is still under way, and `during` has come since it began. -/
def Underway (past during : List (WatchEvent k)) : Prop :=
  ∃ before, past = before ++ .relistStarted :: during ∧
    .relistStarted ∉ during ∧ .relistDone ∉ during

def ListedSince (past : List (WatchEvent k)) (key : String) : Prop :=
  ∃ during, Underway past during ∧ ∃ o, .listed o ∈ during ∧ o.cacheKey = key

def listing (objects : List (Object k)) : List (WatchEvent k) :=
  .relistStarted :: (objects.map .listed ++ [.relistDone])

theorem not_underway_nil : ¬ Underway [] during := by
  rintro ⟨before, h, -⟩
  simp at h

theorem underway_concat : Underway (past ++ [e]) during ↔
    e = .relistStarted ∧ during = [] ∨
      e ≠ .relistStarted ∧ e ≠ .relistDone ∧ ∃ d, during = d ++ [e] ∧ Underway past d := by
  constructor
  · rintro ⟨before, h, hstarted, hdone⟩
    rcases List.eq_nil_or_concat during with rfl | ⟨d, e', rfl⟩
    · obtain ⟨-, he⟩ := List.append_inj' h rfl
      exact .inl ⟨List.head_eq_of_cons_eq he, rfl⟩
    · rw [List.concat_eq_append] at h hstarted hdone ⊢
      rw [← List.cons_append, ← List.append_assoc] at h
      obtain ⟨hpast, he⟩ := List.append_inj' h rfl
      obtain rfl := List.head_eq_of_cons_eq he
      simp only [List.mem_append, List.mem_singleton, not_or] at hstarted hdone
      exact .inr ⟨Ne.symm hstarted.2, Ne.symm hdone.2, d, rfl, before, hpast, hstarted.1, hdone.1⟩
  · rintro (⟨rfl, rfl⟩ | ⟨hstarted, hdone, d, rfl, before, rfl, hstarted', hdone'⟩)
    · exact ⟨past, rfl, List.not_mem_nil, List.not_mem_nil⟩
    · refine ⟨before, by simp, ?_, ?_⟩
      · simpa [hstarted'] using Ne.symm hstarted
      · simpa [hdone'] using Ne.symm hdone

theorem Underway.unique (h : Underway past during) (h' : Underway past during') :
    during = during' := by
  induction past using List.reverseRecOn generalizing during during' with
  | nil => exact absurd h not_underway_nil
  | append_singleton past e ih =>
    rcases underway_concat.1 h with ⟨he, rfl⟩ | ⟨hne, -, d, rfl, hd⟩
    · rcases underway_concat.1 h' with ⟨-, rfl⟩ | ⟨hne, -⟩
      · rfl
      · contradiction
    · rcases underway_concat.1 h' with ⟨he, -⟩ | ⟨-, -, d', rfl, hd'⟩
      · contradiction
      · rw [ih hd hd']

/-- What a listing has told when nothing else has happened since it began. -/
theorem listedSince_listing {objects : List (Object k)} :
    ListedSince (past ++ .relistStarted :: objects.map .listed) key ↔
      ∃ o ∈ objects, o.cacheKey = key := by
  have hopen : Underway (past ++ .relistStarted :: objects.map .listed) (objects.map .listed) :=
    ⟨past, rfl, by simp, by simp⟩
  constructor
  · rintro ⟨during, hduring, o, ho, hkey⟩
    rw [hduring.unique hopen] at ho
    obtain ⟨o', ho', he⟩ := List.mem_map.1 ho
    injection he with he
    exact ⟨o, he ▸ ho', hkey⟩
  · rintro ⟨o, ho, hkey⟩
    exact ⟨_, hopen, o, List.mem_map_of_mem ho, hkey⟩

def listedKey? : WatchEvent k → Option String
  | listed o => some o.cacheKey
  | applied _ | deleted _ | relistStarted | relistDone => none

theorem mem_filterMap_listedKey? {events : List (WatchEvent k)} :
    key ∈ events.filterMap listedKey? ↔ ∃ o, .listed o ∈ events ∧ o.cacheKey = key := by
  rw [List.mem_filterMap]
  constructor
  · rintro ⟨e, he, hkey⟩
    cases e with
    | listed o => exact ⟨o, he, Option.some.inj hkey⟩
    | applied | deleted | relistStarted | relistDone => contradiction
  · rintro ⟨o, ho, rfl⟩
    exact ⟨.listed o, ho, rfl⟩

end WatchEvent

namespace Cache

open WatchEvent

variable {c : Cache k} {past : List (WatchEvent k)} {e : WatchEvent k} {key : String} {o : Object k}

/-- The cache remembers a listing exactly while it is under way, and of it the keys told. -/
def Remembers (c : Cache k) (past : List (WatchEvent k)) : Prop :=
  ∀ keys, c.relisting = some keys ↔
    ∃ during, Underway past during ∧ keys = (during.filterMap listedKey?).reverse

theorem relisting_apply (hstarted : e ≠ .relistStarted) (hdone : e ≠ .relistDone) :
    (c.apply e).1.relisting = c.relisting.map (e.listedKey?.toList ++ ·) := by
  cases e with
  | listed o => rfl
  | applied | deleted => exact Option.map_id'.symm
  | relistStarted | relistDone => contradiction

theorem Remembers.apply (h : c.Remembers past) : (c.apply e).1.Remembers (past ++ [e]) := by
  intro keys
  by_cases hstarted : e = .relistStarted
  · subst hstarted
    have hkeys : (c.apply .relistStarted).1.relisting = some [] := rfl
    simp [hkeys, underway_concat, eq_comm]
  by_cases hdone : e = .relistDone
  · subst hdone
    have hkeys : (c.apply .relistDone).1.relisting = none := rfl
    simp [hkeys, underway_concat]
  rw [relisting_apply hstarted hdone, Option.map_eq_some_iff]
  have htold (d : List (WatchEvent k)) : ((d ++ [e]).filterMap listedKey?).reverse =
      e.listedKey?.toList ++ (d.filterMap listedKey?).reverse := by
    cases he : e.listedKey? <;> simp [he]
  constructor
  · rintro ⟨told, hc, rfl⟩
    obtain ⟨d, hd, rfl⟩ := (h told).1 hc
    exact ⟨d ++ [e], underway_concat.2 (.inr ⟨hstarted, hdone, d, rfl, hd⟩), (htold d).symm⟩
  · rintro ⟨during, hduring, rfl⟩
    rcases underway_concat.1 hduring with ⟨he, -⟩ | ⟨-, -, d, rfl, hd⟩
    · contradiction
    · exact ⟨_, (h _).2 ⟨d, hd, rfl⟩, (htold d).symm⟩

theorem remembers_applyAll (past : List (WatchEvent k)) :
    (empty.applyAll past).1.Remembers past := by
  induction past using List.reverseRecOn with
  | nil =>
    intro keys
    constructor
    · intro h
      contradiction
    · rintro ⟨during, hduring, -⟩
      exact absurd hduring not_underway_nil
  | append_singleton past e ih =>
    rw [applyAll_append]
    exact ih.apply

/-- What the cache takes for listed is what the listing under way has told. -/
theorem isListed_iff : (empty.applyAll past).1.isListed key ↔ ListedSince past key := by
  have hremembers := remembers_applyAll past
  rw [isListed, List.contains_iff_mem]
  constructor
  · intro hmem
    cases hkeys : (empty.applyAll past).1.relisting with
    | none => simp [hkeys] at hmem
    | some keys =>
      obtain ⟨during, hduring, rfl⟩ := (hremembers keys).1 hkeys
      rw [hkeys, Option.getD_some, List.mem_reverse, mem_filterMap_listedKey?] at hmem
      exact ⟨during, hduring, hmem⟩
  · rintro ⟨during, hduring, hmem⟩
    rw [(hremembers _).2 ⟨during, hduring, rfl⟩, Option.getD_some, List.mem_reverse]
    exact mem_filterMap_listedKey?.2 hmem

/-- Of the objects listed under one key the last one stays. -/
theorem get?_listed (c : Cache k) (objects : List (Object k)) (key : String) :
    (c.applyAll (objects.map .listed)).1.objects.get? key =
      ((objects.filter fun o ↦ o.cacheKey = key).getLast?).or (c.objects.get? key) := by
  induction objects using List.reverseRecOn with
  | nil => rfl
  | append_singleton objects o ih =>
    rw [List.map_append, applyAll_append]
    refine (get?_put _ o key).trans ?_
    by_cases hkey : key = o.cacheKey
    · have hlast : [o].filter (fun o ↦ o.cacheKey = key) = [o] := by simp [hkey]
      rw [if_pos hkey, List.filter_append, hlast, List.getLast?_concat, Option.some_or]
    · have hnone : [o].filter (fun o ↦ o.cacheKey = key) = [] := by simp [Ne.symm hkey]
      rw [if_neg hkey, List.filter_append, hnone, List.append_nil]
      exact ih

/-- The cache after a complete listing, said without the past. -/
theorem applyAll_listing (past : List (WatchEvent k)) (objects : List (Object k)) :
    let c := (empty.applyAll (past ++ listing objects)).1
    c.relisting = none ∧ c.synced ∧
      ∀ key, c.objects.get? key = (objects.filter fun o ↦ o.cacheKey = key).getLast? := by
  have hsplit : past ++ listing objects =
      (past ++ .relistStarted :: objects.map .listed) ++ [.relistDone] := by
    simp [listing]
  rw [hsplit, applyAll_append]
  refine ⟨rfl, rfl, fun key ↦ ?_⟩
  refine (get?_relistDone _ key).trans ?_
  have hget : (empty.applyAll (past ++ .relistStarted :: objects.map .listed)).1.objects.get? key =
      ((objects.filter fun o ↦ o.cacheKey = key).getLast?).or
        ((empty.applyAll past).1.objects.get? key) := by
    rw [applyAll_append]
    exact get?_listed _ objects key
  by_cases hmem : ∃ o ∈ objects, o.cacheKey = key
  · rw [if_pos (isListed_iff.2 (listedSince_listing.2 hmem)), hget]
    obtain ⟨o, ho, hkey⟩ := hmem
    have hne : (objects.filter fun o ↦ o.cacheKey = key) ≠ [] :=
      List.ne_nil_of_mem (List.mem_filter.2 ⟨ho, decide_eq_true hkey⟩)
    rw [List.getLast?_eq_some_getLast hne, Option.some_or]
  · rw [if_neg fun h ↦ hmem (listedSince_listing.1 (isListed_iff.1 h))]
    have hnone : (objects.filter fun o ↦ o.cacheKey = key) = [] := by
      rw [List.filter_eq_nil_iff]
      intro o ho hkey
      exact hmem ⟨o, ho, of_decide_eq_true hkey⟩
    rw [hnone, List.getLast?_nil]

/-- A complete listing leaves the same cache behind after any two pasts, with the last object that
it told under each key and no other, and so does everything that comes later. At any time, the end
of a listing leaves the keys alone that have been told since the last listing began, if it is still
under way, and takes away all others, each with a tombstone. -/
theorem forgets_the_past (past past' : List (WatchEvent k)) (objects : List (Object k)) :
    (let c := (empty.applyAll (past ++ listing objects)).1
     let c' := (empty.applyAll (past' ++ listing objects)).1
     c = c' ∧ c.synced ∧
      (∀ key, c.objects.get? key = (objects.filter fun o ↦ o.cacheKey = key).getLast?) ∧
      ∀ later, c.applyAll later = c'.applyAll later) ∧
    let c := (empty.applyAll past).1
    ∀ key o,
      ((c.apply .relistDone).1.objects.get? key = some o ↔
        c.objects.get? key = some o ∧ ListedSince past key) ∧
      (.deleted (.vanished key o) ∈ (c.apply .relistDone).2 ↔
        c.objects.get? key = some o ∧ ¬ ListedSince past key) := by
  constructor
  · obtain ⟨hrelisting, hsynced, hget⟩ := applyAll_listing past objects
    obtain ⟨hrelisting', hsynced', hget'⟩ := applyAll_listing past' objects
    have hsame : (empty.applyAll (past ++ listing objects)).1 =
        (empty.applyAll (past' ++ listing objects)).1 := by
      have hobjects := Table.ext_get? fun key ↦ (hget key).trans (hget' key).symm
      calc (empty.applyAll (past ++ listing objects)).1
        _ = ⟨(empty.applyAll (past' ++ listing objects)).1.objects, none, true⟩ := by
          rw [← hobjects, ← hrelisting, ← hsynced]
        _ = _ := by rw [← hrelisting', ← hsynced']
    exact ⟨hsame, hsynced, hget, fun later ↦ by rw [hsame]⟩
  · intro c key o
    constructor
    · rw [get?_relistDone, ← isListed_iff]
      split
      · next hlisted => exact (and_iff_left hlisted).symm
      · next hlisted => simp [c, hlisted]
    · rw [vanished_mem_iff, ← isListed_iff, Bool.not_eq_true]

/-- What only a listing has told that was begun anew is gone. -/
example : (empty.applyAll [.relistStarted, .listed (Object.sampleMap "a" "1"), .relistStarted,
    .listed (Object.sampleMap "b" "2"), .relistDone]).1.objects.keys = ["ns/b"] := by
  decide +kernel

end Cache

end Submarine
