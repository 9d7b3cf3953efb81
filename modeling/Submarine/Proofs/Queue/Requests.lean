import Submarine.Proofs.Queue.Session

namespace Submarine

namespace Dispenser

variable {d d' : Dispenser} {id : Nat}

def ids (d : Dispenser) : List Nat := d.takers.map Taker.id

def handed? (d : Dispenser) (id : Nat) : Option String := (d.stage? id).bind Stage.key?

structure SameTakers (d d' : Dispenser) : Prop where
  ids : d'.ids = d.ids
  nextId : d'.nextId = d.nextId

namespace SameTakers

theorem setStage {queue : Queue} {gate : Gate} {owed depth : Nat} {closing : Bool} {stage : Stage} :
    SameTakers d ({ d with queue, gate, owed, closing, depth }.setStage id stage) :=
  ⟨ids_setStage { d with queue, gate, owed, closing, depth } id stage, rfl⟩

theorem step? (h : d.step? id = some d') : SameTakers d d' := by
  unfold Dispenser.step? at h
  split at h
  · obtain rfl := Option.some.inj h
    unfold look
    split
    · exact setStage
    · exact setStage
    · exact setStage
  · obtain rfl := Option.some.inj h
    exact setStage
  · obtain rfl := Option.some.inj h
    exact setStage
  all_goals contradiction

theorem signal? (h : d.signal? = some d') : SameTakers d d' := by
  unfold Dispenser.signal? at h
  split at h
  · contradiction
  · rcases hgate : d.gate.signal with ⟨gate, _ | id⟩ <;> rw [hgate] at h
    · obtain rfl := Option.some.inj h
      exact ⟨rfl, rfl⟩
    · obtain rfl := Option.some.inj h
      exact setStage

theorem wakeAll (d : Dispenser) (ids : List Nat) :
    SameTakers d (ids.foldl (fun d id ↦ d.setStage id (.woken false)) d) := by
  induction ids generalizing d with
  | nil => exact ⟨rfl, rfl⟩
  | cons id ids ih =>
    have hfirst : SameTakers d (d.setStage id (.woken false)) := setStage
    have hrest := ih (d.setStage id (.woken false))
    exact ⟨hrest.ids.trans hfirst.ids, hrest.nextId.trans hfirst.nextId⟩

theorem signalAll? (h : d.signalAll? = some d') : SameTakers d d' := by
  unfold Dispenser.signalAll? at h
  split at h
  · obtain rfl := Option.some.inj h
    have hwoken := wakeAll { d with gate := d.gate.signalAll.1, closing := false } d.gate.sleepers
    exact ⟨hwoken.ids, hwoken.nextId⟩
  · contradiction

end SameTakers

theorem mem_ids_of_stage? {stage : Stage} (h : d.stage? id = some stage) : id ∈ d.ids :=
  List.mem_map.2 ⟨⟨id, stage⟩, mem_takers_of_stage? h, rfl⟩

theorem stage?_of_step? (h : d.step? id = some d') : ∃ stage, d.stage? id = some stage := by
  unfold step? at h
  split at h
  · next hs => exact ⟨_, hs⟩
  · next hs => exact ⟨_, hs⟩
  · next hs => exact ⟨_, hs⟩
  all_goals contradiction

theorem ids_ask (d : Dispenser) : d.ask.2.ids = d.ids ++ [d.nextId] := by
  simp [ask, ids]

theorem ids_abandon_subset (d : Dispenser) (id : Nat) : (d.abandon id).ids ⊆ d.ids :=
  List.map_subset _ (List.filter_subset_self _)

theorem not_mem_ids_abandon (d : Dispenser) (id : Nat) : id ∉ (d.abandon id).ids := by
  intro hmem
  obtain ⟨t, ht, hid⟩ := List.mem_map.1 hmem
  have hne : t.id ≠ id := by simpa using (List.mem_filter.1 ht).2
  exact hne hid

/-- A step of a taker leaves the queue as it is, unless the taker is handed a key by it. -/
theorem queue_step? (h : d.step? id = some d') :
    d'.handed? id = none ∧ d'.queue = d.queue ∨
      ∃ key, d'.handed? id = some key ∧ d.queue.take = (.key key, d'.queue) := by
  have hset {e : Dispenser} {old : Stage} (hs : e.stage? id = some old) (stage : Stage) :
      (e.setStage id stage).handed? id = stage.key? := by
    rw [handed?, stage?_setStage_self hs]
    rfl
  have hparked (g : Gate × Bool) :
      (if g.2 then Stage.looking g.1.round else Stage.sleeping).key? = none := by
    split <;> rfl
  unfold step? at h
  split at h
  · next ticket hs =>
    obtain rfl := Option.some.inj h
    unfold look
    rcases htake : d.queue.take with ⟨key | _ | _, q⟩
    · exact .inr ⟨key, hset hs _, rfl⟩
    · exact .inl ⟨hset hs _, rfl⟩
    · exact .inl ⟨hset hs _, rfl⟩
  · next ticket hs =>
    obtain rfl := Option.some.inj h
    exact .inl ⟨(hset hs _).trans (hparked (d.gate.park id ticket)), rfl⟩
  · next hs =>
    obtain rfl := Option.some.inj h
    exact .inl ⟨hset hs _, rfl⟩
  all_goals contradiction

/-- A taker reports the depth if it is handed a key. -/
theorem depth_step? (h : d.step? id = some d') :
    d'.depth = if (d'.handed? id).isSome then d'.queue.size else d.depth := by
  have hset {e : Dispenser} {old : Stage} (hs : e.stage? id = some old) (stage : Stage) :
      (e.setStage id stage).handed? id = stage.key? := by
    rw [handed?, stage?_setStage_self hs]
    rfl
  have hunreported {e : Dispenser} {old stage : Stage} (hs : e.stage? id = some old)
      (hkey : stage.key? = none) : e.depth =
        if ((e.setStage id stage).handed? id).isSome then e.queue.size else e.depth := by
    rw [hset hs, hkey, if_neg (by simp)]
  unfold step? at h
  split at h
  · next ticket hs =>
    obtain rfl := Option.some.inj h
    unfold look
    rcases htake : d.queue.take with ⟨key | _ | _, q⟩
    · exact (if_pos (congrArg Option.isSome (hset hs (.finished (some key))))).symm
    · exact hunreported hs rfl
    · exact hunreported hs rfl
  · next ticket hs =>
    obtain rfl := Option.some.inj h
    have hparked : (if (d.gate.park id ticket).2 then Stage.looking (d.gate.park id ticket).1.round
        else .sleeping).key? = none := by
      split <;> rfl
    exact hunreported (e := { d with gate := (d.gate.park id ticket).1 }) hs hparked
  · next hs =>
    obtain rfl := Option.some.inj h
    exact hunreported hs rfl
  all_goals contradiction

end Dispenser

namespace Session

variable {s s' : Session} {a : Action} {id : Nat} {d : Dispenser}

theorem queue_answered (s : Session) (id : Nat) (d : Dispenser) :
    (s.answered id d).queue = d.queue := by
  unfold answered
  split <;> rfl

theorem holders_answered (s : Session) (id : Nat) (d : Dispenser) :
    (s.answered id d).holders = ((d.handed? id).map fun key ↦ (id, key)).toList ++ s.holders := by
  unfold answered Dispenser.handed?
  cases hs : d.stage? id with
  | none => rfl
  | some stage => cases stage <;> rfl

structure Distinct (s : Session) : Prop where
  nodup : (s.holders.map Prod.fst).Nodup
  lt : ∀ h ∈ s.holders, h.1 < s.work.dispenser.nextId
  gone : ∀ h ∈ s.holders, h.1 ∉ s.work.dispenser.ids

theorem distinct_start (backoff : Backoff) (isMeasured : Bool) :
    (start backoff isMeasured).Distinct :=
  ⟨List.nodup_nil, by simp [start], by simp [start]⟩

namespace Distinct

theorem follow {work : WorkQueue} (h : s.Distinct) (hids : work.dispenser.ids ⊆ s.work.dispenser.ids)
    (hnext : work.dispenser.nextId = s.work.dispenser.nextId) : Distinct { s with work } := by
  refine ⟨h.nodup, fun holder hmem ↦ ?_, fun holder hmem hid ↦ ?_⟩
  · change holder.1 < work.dispenser.nextId
    rw [hnext]
    exact h.lt holder hmem
  · exact h.gone holder hmem (hids hid)

theorem same {work : WorkQueue} (h : s.Distinct)
    (hsame : s.work.dispenser.SameTakers work.dispenser) : Distinct { s with work } :=
  h.follow (hsame.ids ▸ List.Subset.refl _) hsame.nextId

theorem ask (h : s.Distinct) : Distinct { s with work := s.work.takeLater.2 } := by
  refine ⟨h.nodup, fun holder hmem ↦ ?_, fun holder hmem hid ↦ ?_⟩
  · have hlt := h.lt holder hmem
    change holder.1 < s.work.dispenser.nextId + 1
    omega
  · have hlt := h.lt holder hmem
    change holder.1 ∈ s.work.dispenser.ask.2.ids at hid
    rw [Dispenser.ids_ask] at hid
    rcases List.mem_append.1 hid with hold | hnew
    · exact h.gone holder hmem hold
    · have := List.mem_singleton.1 hnew
      omega

theorem answered (h : s.Distinct) (ho : s.work.dispenser.Orderly)
    (hd : s.work.dispenser.step? id = some d) : (s.answered id d).Distinct := by
  have hsame := Dispenser.SameTakers.step? hd
  obtain ⟨old, hold⟩ := Dispenser.stage?_of_step? hd
  unfold Session.answered
  split
  · next key? hs =>
    have habandoned : Distinct { s with work := s.work.follow (d.abandon id) } := by
      refine h.follow ?_ hsame.nextId
      exact hsame.ids ▸ d.ids_abandon_subset id
    cases key? with
    | none => exact habandoned
    | some key =>
      have hnew : id ∉ s.holders.map Prod.fst := by
        intro hmem
        obtain ⟨holder, hholder, rfl⟩ := List.mem_map.1 hmem
        exact h.gone holder hholder (Dispenser.mem_ids_of_stage? hold)
      refine ⟨List.nodup_cons.2 ⟨hnew, h.nodup⟩, fun holder hmem ↦ ?_, fun holder hmem ↦ ?_⟩
      · rcases List.mem_cons.1 hmem with rfl | hmem
        · change id < d.nextId
          rw [hsame.nextId]
          exact ho.lt_of_stage? hold
        · exact habandoned.lt holder hmem
      · rcases List.mem_cons.1 hmem with rfl | hmem
        · exact d.not_mem_ids_abandon id
        · exact habandoned.gone holder hmem
  · exact h.same hsame

theorem release {holder : Nat × String} (h : s.Distinct) :
    Distinct ⟨s.work.done holder.2, s.holders.erase holder⟩ := by
  have hsub : (s.holders.erase holder).Sublist s.holders := List.erase_sublist
  refine ⟨h.nodup.sublist (hsub.map Prod.fst), fun other hmem ↦ ?_, fun other hmem ↦ ?_⟩
  · exact h.lt other (hsub.subset hmem)
  · exact h.gone other (hsub.subset hmem)

theorem step? (h : s.Distinct) (hsound : s.Sound) (hs : s.step? a = some s') : s'.Distinct := by
  cases a with
  | add | forget | retryLater | wait | shutDown =>
    obtain rfl := Option.some.inj hs
    exact h.same ⟨rfl, rfl⟩
  | ask =>
    obtain rfl := Option.some.inj hs
    exact h.ask
  | request id =>
    obtain ⟨d, hd, rfl⟩ := Option.map_eq_some_iff.1 hs
    exact h.answered hsound.accounted.toOrderly hd
  | abandon id =>
    obtain ⟨stage, -, rfl⟩ := Option.map_eq_some_iff.1 hs
    exact h.follow (Dispenser.ids_abandon_subset _ id) rfl
  | signal =>
    obtain ⟨d, hd, rfl⟩ := Option.map_eq_some_iff.1 hs
    exact h.same (.signal? hd)
  | signalAll =>
    obtain ⟨d, hd, rfl⟩ := Option.map_eq_some_iff.1 hs
    exact h.same (.signalAll? hd)
  | release id =>
    obtain ⟨holder, -, rfl⟩ := Option.map_eq_some_iff.1 hs
    exact h.release
  | fire =>
    obtain ⟨work, hw, rfl⟩ := Option.map_eq_some_iff.1 hs
    obtain ⟨t, rest, -, rfl⟩ := WorkQueue.fire?_eq_some hw
    exact h.same ⟨rfl, rfl⟩

theorem eq_of_fst_eq {p q : Nat × String} (h : s.Distinct) (hp : p ∈ s.holders)
    (hq : q ∈ s.holders) (he : p.1 = q.1) : p = q :=
  List.inj_on_of_nodup_map h.nodup hp hq he

theorem find?_holders {key : String} (h : s.Distinct) (hmem : (id, key) ∈ s.holders) :
    s.holders.find? (·.1 = id) = some (id, key) := by
  have hsome : (s.holders.find? (·.1 = id)).isSome := by
    rw [List.find?_isSome]
    exact ⟨(id, key), hmem, by simp⟩
  obtain ⟨holder, hfound⟩ := Option.isSome_iff_exists.1 hsome
  have hid : holder.1 = id := by simpa using List.find?_some hfound
  obtain rfl := h.eq_of_fst_eq (List.mem_of_find?_eq_some hfound) hmem hid
  exact hfound

/-- The holder that a request is known by is the one that releases on it. -/
theorem release_eq {key : String} (h : s.Distinct) (hmem : (id, key) ∈ s.holders) :
    s.step? (.release id) = some ⟨s.work.done key, s.holders.erase (id, key)⟩ := by
  rw [Session.step?, h.find?_holders hmem]
  rfl

end Distinct

end Session

end Submarine
