import Submarine.Proofs.Cluster.Manners

namespace Submarine

open Cluster (Proper)

variable {k : Kind}

namespace WatchEvent

def object? : WatchEvent k → Option (Object k)
  | applied o | deleted o | listed o => some o
  | relistStarted | relistDone => none

def news? : WatchEvent k → Option (Object k)
  | applied o | listed o => some o
  | deleted _ | relistStarted | relistDone => none

theorem object?_of_news? {e : WatchEvent k} {o : Object k} (h : e.news? = some o) :
    e.object? = some o := by
  cases e with
  | applied | listed => exact h
  | deleted | relistStarted | relistDone => contradiction

end WatchEvent

namespace Cache

variable {c : Cache k} {key : String} {o : Object k}

/-- No event brings an object in the version in which it is cached by then. -/
def Moves (c : Cache k) : List (WatchEvent k) → Prop
  | [] => True
  | e :: rest => (∀ o, e.news? = some o → ∀ old, c.objects.get? o.cacheKey = some old →
      Router.versionMoved old o) ∧ (c.apply e).1.Moves rest

theorem applyAll_append (c : Cache k) (es later : List (WatchEvent k)) :
    (c.applyAll (es ++ later)).1 = ((c.applyAll es).1.applyAll later).1 := by
  induction es generalizing c with
  | nil => rfl
  | cons e rest ih => exact ih (c.apply e).1

theorem moves_append {es later : List (WatchEvent k)} :
    c.Moves (es ++ later) ↔ c.Moves es ∧ (c.applyAll es).1.Moves later := by
  induction es generalizing c with
  | nil => simp [Moves, applyAll]
  | cons e rest ih =>
    rw [List.cons_append, Moves, Moves, ih, and_assoc]
    rfl

theorem get?_put (c : Cache k) (o : Object k) (key : String) :
    (c.put o).objects.get? key = if key = o.cacheKey then some o else c.objects.get? key :=
  Table.get?_insert ..

/-- What is cached after an event was cached before, or the event brought it. -/
theorem apply_source {e : WatchEvent k} (h : (c.apply e).1.objects.get? key = some o) :
    c.objects.get? key = some o ∨ e.news? = some o ∧ o.cacheKey = key := by
  have hput : ∀ (c : Cache k) (new : Object k), (c.put new).objects.get? key = some o →
      c.objects.get? key = some o ∨ new = o ∧ o.cacheKey = key := by
    intro c new h
    rw [get?_put] at h
    split at h
    · next hkey =>
      obtain rfl := Option.some.inj h
      exact .inr ⟨rfl, hkey.symm⟩
    · exact .inl h
  cases e with
  | applied new =>
    rcases hput c new h with hold | ⟨rfl, hkey⟩
    · exact .inl hold
    · exact .inr ⟨rfl, hkey⟩
  | listed new =>
    rcases hput (c.markListed new.cacheKey) new h with hold | ⟨rfl, hkey⟩
    · exact .inl hold
    · exact .inr ⟨rfl, hkey⟩
  | deleted old =>
    change (c.objects.erase old.cacheKey).get? key = some o at h
    rw [Table.get?_erase] at h
    split at h
    · contradiction
    · exact .inl h
  | relistStarted => exact .inl h
  | relistDone =>
    rw [get?_relistDone] at h
    split at h
    · exact .inl h
    · contradiction

theorem applyAll_source {es : List (WatchEvent k)}
    (h : (c.applyAll es).1.objects.get? key = some o) :
    c.objects.get? key = some o ∨ ∃ e ∈ es, e.news? = some o ∧ o.cacheKey = key := by
  induction es generalizing c with
  | nil => exact .inl h
  | cons e rest ih =>
    rcases ih h with hcached | ⟨e', he', hnews⟩
    · rcases apply_source hcached with hold | hnews
      · exact .inl hold
      · exact .inr ⟨e, List.mem_cons_self .., hnews⟩
    · exact .inr ⟨e', List.mem_cons_of_mem _ he', hnews⟩

section Listing

theorem listed_of_not_mem {vs : List (Object k)} (h : ∀ v ∈ vs, v.cacheKey ≠ key) :
    (c.applyAll (vs.map .listed)).1.objects.get? key = c.objects.get? key ∧
      (c.applyAll (vs.map .listed)).1.isListed key = c.isListed key := by
  induction vs generalizing c with
  | nil => exact ⟨rfl, rfl⟩
  | cons v rest ih =>
    have hv : v.cacheKey ≠ key := h v (List.mem_cons_self ..)
    obtain ⟨hget, hlisted⟩ := ih (c := ((c.markListed v.cacheKey).put v))
      fun v' hv' ↦ h v' (List.mem_cons_of_mem _ hv')
    refine ⟨hget.trans ?_, hlisted.trans ?_⟩
    · rw [get?_put, if_neg fun he ↦ hv he.symm]
      rfl
    · cases hr : c.relisting with
      | none => simp [isListed, put, markListed, hr]
      | some keys => simp [isListed, put, markListed, hr, Ne.symm hv]

/-- A listing that is under way, and tells one object of the key, leaves that one. -/
theorem listed_of_mem {vs : List (Object k)} (hrelisting : c.relisting.isSome)
    (honly : ∀ v ∈ vs, v.cacheKey = key → v = o) (hkey : o.cacheKey = key)
    (h : o ∈ vs ∨ c.objects.get? key = some o ∧ c.isListed key) :
    (c.applyAll (vs.map .listed)).1.objects.get? key = some o ∧
      (c.applyAll (vs.map .listed)).1.isListed key := by
  induction vs generalizing c with
  | nil => exact h.resolve_left (by simp)
  | cons v rest ih =>
    obtain ⟨keys, hkeys⟩ := Option.isSome_iff_exists.1 hrelisting
    refine ih (c := ((c.markListed v.cacheKey).put v)) ?_
      (fun v' hv' ↦ honly v' (List.mem_cons_of_mem _ hv')) ?_
    · simp [put, markListed, hkeys]
    · by_cases hv : v.cacheKey = key
      · obtain rfl := honly v (List.mem_cons_self ..) hv
        refine .inr ⟨?_, ?_⟩
        · rw [get?_put, if_pos hkey.symm]
        · simp [isListed, put, markListed, hkeys, hkey]
      · have hne : o ≠ v := fun he ↦ hv (he ▸ hkey)
        rcases h with hmem | ⟨hget, hlisted⟩
        · exact .inl ((List.mem_cons.1 hmem).resolve_left hne)
        · refine .inr ⟨?_, ?_⟩
          · rw [get?_put, if_neg fun he ↦ hv he.symm]
            exact hget
          · have hmem : key ∈ keys := by simpa [isListed, hkeys] using hlisted
            simp [isListed, put, markListed, hkeys, hmem]

/-- Objects of different keys are no echoes of each other. -/
theorem moves_listed {vs : List (Object k)}
    (hkeys : vs.Pairwise fun v v' ↦ v.cacheKey ≠ v'.cacheKey)
    (hfree : ∀ v ∈ vs, c.objects.get? v.cacheKey = none) : c.Moves (vs.map .listed) := by
  induction vs generalizing c with
  | nil => trivial
  | cons v rest ih =>
    obtain ⟨hv, hrest⟩ := List.pairwise_cons.1 hkeys
    refine ⟨fun o ho old hold ↦ ?_, ih hrest fun v' hv' ↦ ?_⟩
    · obtain rfl := Option.some.inj ho
      rw [hfree v (List.mem_cons_self ..)] at hold
      contradiction
    · refine (get?_put _ v _).trans ?_
      rw [if_neg (hv v' hv').symm]
      exact hfree v' (List.mem_cons_of_mem _ hv')

end Listing

end Cache

def Object.sampleMap (name version : String) : Object .configMap where
  metadata := { name := some name, ns := some "ns", resourceVersion := some version }
  content := (default : ConfigMapContent)

end Submarine
