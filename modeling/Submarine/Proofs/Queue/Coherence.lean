import Submarine.Queue.Basic
import Mathlib.Data.List.Nodup

namespace Submarine.Queue

/-- No key waits twice or while it is held, and whatever waits is marked. As long as the queue is
open, whatever is marked waits or is held. -/
structure Coherent (q : Queue) : Prop where
  ready_nodup : q.ready.Nodup
  dirty_of_ready : ∀ key ∈ q.ready, key ∈ q.dirty
  not_held_of_ready : ∀ key ∈ q.ready, key ∉ q.held
  ready_or_held : q.isShutDown = false → ∀ key ∈ q.dirty, key ∈ q.ready ∨ key ∈ q.held

variable {q : Queue} {key : String}

theorem coherent_empty : empty.Coherent := by
  constructor <;> simp [empty]

@[simp] theorem isShutDown_add (q : Queue) (key : String) :
    (q.add key).isShutDown = q.isShutDown := by
  unfold add
  split
  · rfl
  · split <;> rfl

@[simp] theorem held_add (q : Queue) (key : String) : (q.add key).held = q.held := by
  unfold add
  split
  · rfl
  · split <;> rfl

theorem mem_dirty_add (hopen : q.isShutDown = false) {j : String} :
    j ∈ (q.add key).dirty ↔ j = key ∨ j ∈ q.dirty := by
  unfold add
  split
  · next h =>
    have hkey : key ∈ q.dirty := h.resolve_left (by simp [hopen])
    exact ⟨Or.inr, fun h ↦ h.elim (fun e ↦ e ▸ hkey) id⟩
  · split <;> simp [or_comm]

theorem Coherent.add (h : q.Coherent) (key : String) : (q.add key).Coherent := by
  unfold Queue.add
  split
  · exact h
  · next hnew =>
    obtain ⟨_, hdirty⟩ := not_or.1 hnew
    split
    · next hheld =>
      refine ⟨h.ready_nodup, fun j hj ↦ ?_, h.not_held_of_ready, fun hopen j hj ↦ ?_⟩
      · exact List.mem_append_left _ (h.dirty_of_ready j hj)
      · rcases List.mem_append.1 hj with hj | hj
        · exact h.ready_or_held hopen j hj
        · exact .inr (List.mem_singleton.1 hj ▸ hheld)
    · next hheld =>
      have hready : key ∉ q.ready := fun hr ↦ hdirty (h.dirty_of_ready key hr)
      refine ⟨?_, fun j hj ↦ ?_, fun j hj ↦ ?_, fun hopen j hj ↦ ?_⟩
      · exact h.ready_nodup.append (List.nodup_singleton key) (List.disjoint_singleton.2 hready)
      · rcases List.mem_append.1 hj with hj | hj
        · exact List.mem_append_left _ (h.dirty_of_ready j hj)
        · exact List.mem_append_right _ hj
      · rcases List.mem_append.1 hj with hj | hj
        · exact h.not_held_of_ready j hj
        · exact List.mem_singleton.1 hj ▸ hheld
      · rcases List.mem_append.1 hj with hj | hj
        · exact (h.ready_or_held hopen j hj).imp_left (List.mem_append_left _)
        · exact .inl (List.mem_append_right _ hj)

theorem take_eq_key {q' : Queue} (h : q.take = (.key key, q')) :
    q.isShutDown = false ∧ ∃ rest, q.ready = key :: rest ∧
      q' = { q with
        ready := rest, dirty := q.dirty.filter (· != key), held := q.held.insert key } := by
  unfold take at h
  split at h
  · simp at h
  · next hopen =>
    split at h
    · simp at h
    · next j rest hready =>
      simp only [Prod.mk.injEq, Handout.key.injEq] at h
      obtain ⟨rfl, rfl⟩ := h
      exact ⟨by simpa using hopen, rest, hready, rfl⟩

theorem Coherent.take {q' : Queue} (h : q.Coherent) (ht : q.take = (.key key, q')) :
    q'.Coherent := by
  obtain ⟨_, rest, hready, rfl⟩ := take_eq_key ht
  have hnodup := h.ready_nodup
  rw [hready, List.nodup_cons] at hnodup
  have hne {j : String} (hj : j ∈ rest) : j ≠ key := fun e ↦ hnodup.1 (e ▸ hj)
  have hmem {j : String} (hj : j ∈ rest) : j ∈ q.ready := hready ▸ List.mem_cons_of_mem _ hj
  refine ⟨hnodup.2, fun j hj ↦ ?_, fun j hj ↦ ?_, fun hopen j hj ↦ ?_⟩
  · simp [h.dirty_of_ready j (hmem hj), hne hj]
  · simp [h.not_held_of_ready j (hmem hj), hne hj]
  · obtain ⟨hj, hjkey⟩ := by simpa using hj
    rcases h.ready_or_held hopen j hj with hr | hh
    · rw [hready, List.mem_cons] at hr
      exact .inl (hr.resolve_left hjkey)
    · exact .inr (List.mem_insert_of_mem hh)

/-- A key that is handed out was held by nobody. -/
theorem Coherent.not_held_of_take {q' : Queue} (h : q.Coherent)
    (ht : q.take = (.key key, q')) : key ∉ q.held := by
  obtain ⟨_, rest, hready, _⟩ := take_eq_key ht
  exact h.not_held_of_ready key (by simp [hready])

theorem Coherent.done (h : q.Coherent) (hheld : key ∈ q.held) : (q.done key).Coherent := by
  have hready : key ∉ q.ready := fun hr ↦ h.not_held_of_ready key hr hheld
  unfold Queue.done
  split
  · next hre =>
    obtain ⟨_, hdirty⟩ : q.isShutDown = false ∧ key ∈ q.dirty := by simpa [readmits] using hre
    refine ⟨?_, fun j hj ↦ ?_, fun j hj ↦ ?_, fun hopen j hj ↦ ?_⟩
    · exact h.ready_nodup.append (List.nodup_singleton key) (List.disjoint_singleton.2 hready)
    · rcases List.mem_append.1 hj with hj | hj
      · exact h.dirty_of_ready j hj
      · exact List.mem_singleton.1 hj ▸ hdirty
    · rcases List.mem_append.1 hj with hj | hj
      · simp [h.not_held_of_ready j hj]
      · simp [List.mem_singleton.1 hj]
    · by_cases hjkey : j = key
      · simp [hjkey]
      · simpa [hjkey] using h.ready_or_held hopen j hj
  · next hre =>
    refine ⟨h.ready_nodup, h.dirty_of_ready, fun j hj ↦ ?_, fun hopen j hj ↦ ?_⟩
    · simp [h.not_held_of_ready j hj]
    · change q.isShutDown = false at hopen
      change j ∈ q.dirty at hj
      have hjkey : j ≠ key := by
        rintro rfl
        exact hre (by simp [readmits, hopen, hj])
      simpa [hjkey] using h.ready_or_held hopen j hj

theorem mem_held_done {j : String} : j ∈ (q.done key).held ↔ j ∈ q.held ∧ j ≠ key := by
  simp [Queue.done]

theorem Coherent.forget (h : q.Coherent) (key : String) : (q.forget key).Coherent :=
  ⟨h.ready_nodup, h.dirty_of_ready, h.not_held_of_ready, h.ready_or_held⟩

theorem Coherent.countFailure (h : q.Coherent) (key : String) : (q.countFailure key).Coherent :=
  ⟨h.ready_nodup, h.dirty_of_ready, h.not_held_of_ready, h.ready_or_held⟩

theorem Coherent.shutDown (h : q.Coherent) : q.shutDown.Coherent :=
  ⟨h.ready_nodup, h.dirty_of_ready, h.not_held_of_ready, fun hopen ↦ by simp [Queue.shutDown] at hopen⟩

end Submarine.Queue
