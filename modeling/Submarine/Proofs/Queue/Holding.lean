import Submarine.Proofs.Queue.Coherence
import Submarine.Queue.Dispenser
import Mathlib.Data.List.Perm.Basic

namespace Submarine

def Stage.key? : Stage → Option String
  | .finished key? => key?
  | .looking _ | .parking _ | .sleeping | .woken _ => none

namespace Dispenser

def handed (d : Dispenser) : List String := d.takers.filterMap (·.stage.key?)

def Keyless (d : Dispenser) (id : Nat) : Prop := ∀ t ∈ d.takers, t.id = id → t.stage.key? = none

/-- Every taker has an id of its own, and those that the gate knows as sleepers do sleep. -/
structure Orderly (d : Dispenser) : Prop where
  ids_nodup : (d.takers.map Taker.id).Nodup
  id_lt : ∀ t ∈ d.takers, t.id < d.nextId
  sleepers_nodup : d.gate.sleepers.Nodup
  sleeper_lt : ∀ id ∈ d.gate.sleepers, id < d.nextId
  asleep : ∀ t ∈ d.takers, t.id ∈ d.gate.sleepers → t.stage = .sleeping

/-- The keys that are held are those that takers were handed and those in `out`, which were taken
away from there; each of them is held once. -/
structure Accounted (d : Dispenser) (out : List String) : Prop extends Orderly d where
  coherent : d.queue.Coherent
  mem_held : ∀ key, key ∈ d.queue.held ↔ key ∈ d.handed ++ out
  nodup : (d.handed ++ out).Nodup

variable {d d' : Dispenser} {out : List String} {id : Nat} {key : String} {stage : Stage}

theorem mem_takers_of_stage? (h : d.stage? id = some stage) : ⟨id, stage⟩ ∈ d.takers := by
  obtain ⟨t, ht, rfl⟩ := Option.map_eq_some_iff.1 h
  have hid : t.id = id := by simpa using List.find?_some ht
  exact hid ▸ List.mem_of_find?_eq_some ht

theorem mem_takers_setStage {t : Taker} (ht : t ∈ (d.setStage id stage).takers) :
    t = ⟨id, stage⟩ ∨ t ∈ d.takers ∧ t.id ≠ id := by
  obtain ⟨u, hu, rfl⟩ := List.mem_map.1 ht
  by_cases he : u.id = id
  · simp [he]
  · simp [he, hu]

theorem ids_setStage (d : Dispenser) (id : Nat) (stage : Stage) :
    (d.setStage id stage).takers.map Taker.id = d.takers.map Taker.id := by
  simp only [setStage, List.map_map]
  refine List.map_congr_left fun t _ ↦ ?_
  simp only [Function.comp_apply]
  split <;> rfl

theorem setStage_eq_self {l : List Taker} (h : ∀ t ∈ l, t.id ≠ id) :
    l.map (fun t ↦ if t.id = id then { t with stage } else t) = l := by
  conv_rhs => rw [← List.map_id l]
  exact List.map_congr_left fun t ht ↦ if_neg (h t ht)

theorem handed_setStage (hold : d.Keyless id) (hnew : stage.key? = none) :
    (d.setStage id stage).handed = d.handed := by
  simp only [handed, setStage, List.filterMap_map]
  refine List.filterMap_congr fun t ht ↦ ?_
  simp only [Function.comp_apply]
  split
  · next he => rw [hold t ht he, hnew]
  · rfl

theorem Keyless.setStage {j : Nat} (h : d.Keyless j) (hnew : stage.key? = none) :
    (d.setStage id stage).Keyless j := by
  intro t ht he
  rcases mem_takers_setStage ht with rfl | ⟨ht, _⟩
  · exact hnew
  · exact h t ht he

theorem stage?_setStage_self {old : Stage} (hs : d.stage? id = some old) :
    (d.setStage id stage).stage? id = some stage := by
  have hcomp : (fun u : Taker ↦ decide (u.id = id)) ∘
      (fun t : Taker ↦ if t.id = id then { t with stage } else t) = (fun u ↦ decide (u.id = id)) := by
    funext t
    simp only [Function.comp_apply]
    split <;> rfl
  obtain ⟨t, ht, _⟩ := Option.map_eq_some_iff.1 hs
  have hid : t.id = id := by simpa using List.find?_some ht
  simp only [stage?, setStage, List.find?_map, hcomp, ht, Option.map_some, hid, if_true]

namespace Orderly

theorem split (h : d.Orderly) (hs : d.stage? id = some stage) :
    ∃ before after, d.takers = before ++ ⟨id, stage⟩ :: after ∧
      ∀ t ∈ before ++ after, t.id ≠ id := by
  obtain ⟨before, after, ht⟩ := List.append_of_mem (mem_takers_of_stage? hs)
  refine ⟨before, after, ht, fun t hmem ↦ ?_⟩
  have hnodup := h.ids_nodup
  rw [ht, (List.perm_middle.map Taker.id).nodup_iff, List.map_cons, List.nodup_cons] at hnodup
  rintro rfl
  exact hnodup.1 (List.mem_map.2 ⟨t, hmem, rfl⟩)

theorem keyless (h : d.Orderly) (hs : d.stage? id = some stage) (hkey : stage.key? = none) :
    d.Keyless id := by
  obtain ⟨before, after, htakers, hne⟩ := h.split hs
  intro t ht he
  rw [htakers] at ht
  rcases List.mem_append.1 ht with ht | ht
  · exact absurd he (hne t (List.mem_append_left _ ht))
  · rcases List.mem_cons.1 ht with rfl | ht
    · exact hkey
    · exact absurd he (hne t (List.mem_append_right _ ht))

theorem not_sleeper (h : d.Orderly) (hs : d.stage? id = some stage) (hne : stage ≠ .sleeping) :
    id ∉ d.gate.sleepers :=
  fun hmem ↦ hne (h.asleep ⟨id, stage⟩ (mem_takers_of_stage? hs) hmem)

theorem lt_of_stage? (h : d.Orderly) (hs : d.stage? id = some stage) : id < d.nextId :=
  h.id_lt ⟨id, stage⟩ (mem_takers_of_stage? hs)

theorem keyless_of_sleeper (h : d.Orderly) (hid : id ∈ d.gate.sleepers) : d.Keyless id := by
  rintro t ht rfl
  rw [h.asleep t ht hid]
  rfl

/-- A taker goes over to another stage, and some sleepers may be woken with it. -/
theorem setStage {gate : Gate} {owed depth : Nat} {closing : Bool} {queue : Queue} (h : d.Orderly)
    (hsub : gate.sleepers ⊆ d.gate.sleepers) (hnodup : gate.sleepers.Nodup)
    (hid : id ∉ gate.sleepers) :
    Orderly ({ d with gate, owed, closing, queue, depth }.setStage id stage) where
  ids_nodup := (ids_setStage ..).symm ▸ h.ids_nodup
  id_lt t ht := by
    have hmem : t.id ∈ d.takers.map Taker.id :=
      ids_setStage { d with gate, owed, closing, queue, depth } id stage ▸ List.mem_map_of_mem ht
    obtain ⟨u, hu, he⟩ := List.mem_map.1 hmem
    exact he ▸ h.id_lt u hu
  sleepers_nodup := hnodup
  sleeper_lt i hi := h.sleeper_lt i (hsub hi)
  asleep t ht hs := by
    rcases mem_takers_setStage ht with rfl | ⟨ht, _⟩
    · exact absurd hs hid
    · exact h.asleep t ht (hsub hs)

theorem fallAsleep (h : d.Orderly) {ticket : Nat} (hs : d.stage? id = some (.parking ticket)) :
    Orderly ({ d with gate := { d.gate with sleepers := d.gate.sleepers ++ [id] } }.setStage id
      .sleeping) := by
  have hawake : id ∉ d.gate.sleepers := h.not_sleeper hs (by simp)
  refine ⟨(ids_setStage ..).symm ▸ h.ids_nodup, fun t ht ↦ ?_, ?_, fun i hi ↦ ?_, fun t ht hi ↦ ?_⟩
  · rcases mem_takers_setStage ht with rfl | ⟨ht, _⟩
    · exact h.lt_of_stage? hs
    · exact h.id_lt t ht
  · exact h.sleepers_nodup.append (List.nodup_singleton _) (List.disjoint_singleton.2 hawake)
  · rcases List.mem_append.1 hi with hi | hi
    · exact h.sleeper_lt i hi
    · exact (List.mem_singleton.1 hi).symm ▸ h.lt_of_stage? hs
  · rcases mem_takers_setStage ht with rfl | ⟨ht, hne⟩
    · rfl
    · rcases List.mem_append.1 hi with hi | hi
      · exact h.asleep t ht hi
      · exact absurd (List.mem_singleton.1 hi) hne

theorem ask (h : d.Orderly) : d.ask.2.Orderly := by
  refine ⟨?_, fun t ht ↦ ?_, h.sleepers_nodup, fun i hi ↦ ?_, fun t ht hs ↦ ?_⟩
  · have hnew : d.nextId ∉ d.takers.map Taker.id := by
      intro hmem
      obtain ⟨t, ht, he⟩ := List.mem_map.1 hmem
      exact absurd (h.id_lt t ht) (by omega)
    simpa [Dispenser.ask] using
      h.ids_nodup.append (List.nodup_singleton _) (List.disjoint_singleton.2 hnew)
  · rcases List.mem_append.1 ht with ht | ht
    · exact Nat.lt_succ_of_lt (h.id_lt t ht)
    · rw [List.mem_singleton.1 ht]
      exact Nat.lt_succ_self _
  · exact Nat.lt_succ_of_lt (h.sleeper_lt i hi)
  · rcases List.mem_append.1 ht with ht | ht
    · exact h.asleep t ht hs
    · rw [List.mem_singleton.1 ht] at hs
      exact absurd (h.sleeper_lt _ hs) (Nat.lt_irrefl _)

theorem abandon (h : d.Orderly) (id : Nat) : (d.abandon id).Orderly where
  ids_nodup := h.ids_nodup.sublist (List.filter_sublist.map Taker.id)
  id_lt t ht := h.id_lt t (List.mem_filter.1 ht).1
  sleepers_nodup := h.sleepers_nodup.sublist List.filter_sublist
  sleeper_lt i hi := h.sleeper_lt i (List.mem_filter.1 hi).1
  asleep t ht hs := h.asleep t (List.mem_filter.1 ht).1 (List.mem_filter.1 hs).1

end Orderly

namespace Accounted

theorem empty : empty.Accounted [] where
  ids_nodup := List.nodup_nil
  id_lt := by simp [Dispenser.empty]
  sleepers_nodup := List.nodup_nil
  sleeper_lt := by simp [Dispenser.empty, Gate.initial]
  asleep := by simp [Dispenser.empty]
  coherent := Queue.coherent_empty
  mem_held := by simp [Dispenser.empty, Queue.empty, handed]
  nodup := List.nodup_nil

theorem perm {out' : List String} (h : d.Accounted out) (hp : out.Perm out') :
    d.Accounted out' where
  toOrderly := h.toOrderly
  coherent := h.coherent
  mem_held j := (h.mem_held j).trans (hp.append_left d.handed).mem_iff
  nodup := h.nodup.perm (hp.append_left d.handed)

/-- A step that concerns neither the queue nor the keys that takers were handed. -/
theorem of_handed_eq (h : d.Accounted out) (ho : d'.Orderly) (hq : d'.queue = d.queue)
    (hh : d'.handed = d.handed) : d'.Accounted out where
  toOrderly := ho
  coherent := hq ▸ h.coherent
  mem_held j := by rw [hq, hh]; exact h.mem_held j
  nodup := hh ▸ h.nodup

theorem withQueue {q : Queue} {owed depth : Nat} {closing : Bool} (h : d.Accounted out)
    (hq : q.Coherent) (hheld : q.held = d.queue.held) :
    Accounted { d with queue := q, owed, closing, depth } out where
  toOrderly := ⟨h.ids_nodup, h.id_lt, h.sleepers_nodup, h.sleeper_lt, h.asleep⟩
  coherent := hq
  mem_held j := hheld ▸ h.mem_held j
  nodup := h.nodup

theorem add (h : d.Accounted out) (key : String) : (d.add key).Accounted out :=
  h.withQueue (h.coherent.add key) (Queue.held_add ..)

theorem shutDown (h : d.Accounted out) : d.shutDown.Accounted out :=
  h.withQueue h.coherent.shutDown rfl

theorem ask (h : d.Accounted out) : d.ask.2.Accounted out :=
  h.of_handed_eq h.toOrderly.ask rfl (by simp [Dispenser.ask, handed, Stage.key?])

theorem done (h : d.Accounted out) (hkey : key ∈ out) : (d.done key).Accounted (out.erase key) := by
  obtain ⟨_, hout, hdisjoint⟩ := List.nodup_append.1 h.nodup
  have hhanded : key ∉ d.handed := fun hd ↦ hdisjoint key hd key hkey rfl
  have hheld : key ∈ d.queue.held := (h.mem_held key).2 (List.mem_append_right _ hkey)
  refine ⟨⟨h.ids_nodup, h.id_lt, h.sleepers_nodup, h.sleeper_lt, h.asleep⟩, h.coherent.done hheld,
    fun j ↦ ?_, h.nodup.sublist (List.erase_sublist.append_left d.handed)⟩
  change j ∈ (d.queue.done key).held ↔ j ∈ d.handed ++ out.erase key
  rw [Queue.mem_held_done, h.mem_held, List.mem_append, List.mem_append, hout.mem_erase_iff]
  constructor
  · rintro ⟨hj | hj, hne⟩
    · exact .inl hj
    · exact .inr ⟨hne, hj⟩
  · rintro (hj | ⟨hne, hj⟩)
    · exact ⟨.inl hj, fun e ↦ hhanded (e ▸ hj)⟩
    · exact ⟨.inr hj, hne⟩

/-- A taker that goes away leaves the key that it was handed to whoever it goes to. -/
theorem abandon (h : d.Accounted out) (hs : d.stage? id = some stage) :
    (d.abandon id).Accounted (stage.key?.toList ++ out) := by
  obtain ⟨before, after, htakers, hne⟩ := h.toOrderly.split hs
  have hrest : (d.abandon id).handed = (before ++ after).filterMap (·.stage.key?) := by
    have hkeep : d.takers.filter (·.id ≠ id) = before ++ after := by
      rw [htakers, List.filter_append, List.filter_cons_of_neg (by simp), ← List.filter_append]
      exact List.filter_eq_self.2 fun t ht ↦ by simpa using hne t ht
    rw [handed, ← hkeep]
    rfl
  have hperm : (d.handed ++ out).Perm ((d.abandon id).handed ++ (stage.key?.toList ++ out)) := by
    rw [hrest, handed, htakers, List.filterMap_append, List.filterMap_append, ← List.append_assoc]
    refine List.Perm.append_right out ?_
    cases hkey : stage.key? with
    | none => simp [hkey]
    | some key => simpa [hkey] using (List.perm_append_singleton key _).symm.append_left _
  exact ⟨h.toOrderly.abandon id, h.coherent, fun j ↦ (h.mem_held j).trans hperm.mem_iff,
    h.nodup.perm hperm⟩

/-- A taker that looks and finds a key holds it from then on. -/
theorem handOut {q : Queue} {ticket owed depth : Nat} (h : d.Accounted out)
    (hs : d.stage? id = some (.looking ticket)) (ht : d.queue.take = (.key key, q)) :
    Accounted ({ d with queue := q, owed, depth }.setStage id (.finished (some key))) out := by
  obtain ⟨before, after, htakers, hne⟩ := h.toOrderly.split hs
  have hset : ({ d with queue := q, owed, depth }.setStage id (.finished (some key))).handed =
      before.filterMap (·.stage.key?) ++ key :: after.filterMap (·.stage.key?) := by
    have hbefore : before.map (fun t ↦ if t.id = id then { t with stage := .finished (some key) }
        else t) = before := setStage_eq_self fun t ht ↦ hne t (List.mem_append_left _ ht)
    have hafter : after.map (fun t ↦ if t.id = id then { t with stage := .finished (some key) }
        else t) = after := setStage_eq_self fun t ht ↦ hne t (List.mem_append_right _ ht)
    simp only [handed, setStage, htakers, List.map_append, List.map_cons, hbefore, hafter]
    simp [Stage.key?]
  have hperm : (({ d with queue := q, owed, depth }.setStage id
      (.finished (some key))).handed ++ out).Perm (key :: (d.handed ++ out)) := by
    rw [hset, handed, htakers, List.filterMap_append]
    exact List.perm_middle.append_right out
  have hfree : key ∉ d.handed ++ out :=
    fun hmem ↦ h.coherent.not_held_of_take ht ((h.mem_held key).2 hmem)
  refine ⟨h.toOrderly.setStage (List.Subset.refl _) h.sleepers_nodup (h.not_sleeper hs (by simp)),
    h.coherent.take ht, fun j ↦ ?_, hperm.nodup_iff.2 (List.nodup_cons.2 ⟨hfree, h.nodup⟩)⟩
  obtain ⟨_, _, _, hq⟩ := Queue.take_eq_key ht
  rw [hperm.mem_iff, List.mem_cons, ← h.mem_held j]
  change j ∈ q.held ↔ _
  rw [hq]
  exact List.mem_insert_iff

theorem look {ticket : Nat} (h : d.Accounted out) (hs : d.stage? id = some (.looking ticket)) :
    (d.look id ticket).Accounted out := by
  have hkeyless := h.keyless hs rfl
  have hsleeper := h.not_sleeper hs (by simp)
  unfold Dispenser.look
  split
  · exact h.of_handed_eq (h.toOrderly.setStage (List.Subset.refl _) h.sleepers_nodup hsleeper) rfl
      (handed_setStage hkeyless rfl)
  · exact h.of_handed_eq (h.toOrderly.setStage (List.Subset.refl _) h.sleepers_nodup hsleeper) rfl
      (handed_setStage hkeyless rfl)
  · next ht => exact h.handOut hs ht

theorem park {ticket : Nat} (h : d.Accounted out) (hs : d.stage? id = some (.parking ticket)) :
    Accounted ({ d with gate := (d.gate.park id ticket).1 }.setStage id
      (if (d.gate.park id ticket).2 then .looking (d.gate.park id ticket).1.round else .sleeping))
      out := by
  have hkeyless := h.keyless hs rfl
  have hsleeper := h.not_sleeper hs (by simp)
  refine h.of_handed_eq ?_ rfl (handed_setStage hkeyless (by split <;> rfl))
  unfold Gate.park
  split
  · exact h.toOrderly.setStage (List.Subset.refl _) h.sleepers_nodup hsleeper
  · split
    · exact h.toOrderly.setStage (List.Subset.refl _) h.sleepers_nodup hsleeper
    · exact h.toOrderly.fallAsleep hs

theorem step? (h : d.Accounted out) (hd : d.step? id = some d') : d'.Accounted out := by
  unfold Dispenser.step? at hd
  split at hd
  · next ticket hs => exact Option.some.inj hd ▸ h.look hs
  · next ticket hs => exact Option.some.inj hd ▸ h.park hs
  · next hs =>
    refine Option.some.inj hd ▸ h.of_handed_eq ?_ rfl (handed_setStage (h.keyless hs rfl) rfl)
    exact h.toOrderly.setStage (List.Subset.refl _) h.sleepers_nodup (h.not_sleeper hs (by simp))
  all_goals simp at hd

theorem held_of_step? (hd : d.step? id = some d') (hkey : key ∈ d'.queue.held) :
    key ∈ d.queue.held ∨ d'.stage? id = some (.finished (some key)) := by
  unfold Dispenser.step? at hd
  split at hd
  · next ticket hs =>
    obtain rfl := Option.some.inj hd
    unfold Dispenser.look at hkey ⊢
    rcases ht : d.queue.take with ⟨_ | _ | _, q⟩ <;> rw [ht] at hkey
    · obtain ⟨_, _, _, rfl⟩ := Queue.take_eq_key ht
      rcases List.mem_insert_iff.1 hkey with rfl | hkey
      · exact .inr (stage?_setStage_self hs)
      · exact .inl hkey
    · exact .inl hkey
    · exact .inl hkey
  · obtain rfl := Option.some.inj hd
    exact .inl hkey
  · obtain rfl := Option.some.inj hd
    exact .inl hkey
  all_goals simp at hd

/-- A signal moves takers, and leaves everything about the queue as it is. -/
theorem eq_of_signal? (hd : d.signal? = some d') :
    ∃ gate takers owed, d' = { d with gate, takers, owed } := by
  unfold Dispenser.signal? at hd
  split at hd
  · contradiction
  · rcases hg : d.gate.signal with ⟨gate, _ | id⟩ <;> rw [hg] at hd
    · exact ⟨_, _, _, (Option.some.inj hd).symm⟩
    · exact ⟨_, _, _, (Option.some.inj hd).symm⟩

theorem eq_of_signalAll? (hd : d.signalAll? = some d') :
    ∃ gate takers, d' = { d with gate, takers, closing := false } := by
  have hfold (ids : List Nat) (e : Dispenser) :
      ∃ takers, ids.foldl (fun d id ↦ d.setStage id (.woken false)) e = { e with takers } := by
    induction ids generalizing e with
    | nil => exact ⟨_, rfl⟩
    | cons id ids ih => exact ih _
  unfold Dispenser.signalAll? at hd
  split at hd
  · obtain ⟨takers, htakers⟩ := hfold d.gate.signalAll.2
      { d with gate := d.gate.signalAll.1, closing := false }
    exact ⟨_, takers, (Option.some.inj hd).symm.trans htakers⟩
  · contradiction

theorem queue_signal? (hd : d.signal? = some d') : d'.queue = d.queue := by
  obtain ⟨_, _, _, rfl⟩ := eq_of_signal? hd
  rfl

theorem queue_signalAll? (hd : d.signalAll? = some d') : d'.queue = d.queue := by
  obtain ⟨_, _, rfl⟩ := eq_of_signalAll? hd
  rfl

theorem depth_signal? (hd : d.signal? = some d') : d'.depth = d.depth := by
  obtain ⟨_, _, _, rfl⟩ := eq_of_signal? hd
  rfl

theorem depth_signalAll? (hd : d.signalAll? = some d') : d'.depth = d.depth := by
  obtain ⟨_, _, rfl⟩ := eq_of_signalAll? hd
  rfl

theorem signal? (h : d.Accounted out) (hd : d.signal? = some d') : d'.Accounted out := by
  unfold Dispenser.signal? at hd
  split at hd
  · simp at hd
  · next owed _ =>
    cases hsleepers : d.gate.sleepers with
    | nil =>
      simp only [Gate.signal, hsleepers, Option.some.injEq] at hd
      subst hd
      exact h.of_handed_eq
        ⟨h.ids_nodup, h.id_lt, List.nodup_nil, by simp, by simp⟩ rfl rfl
    | cons id rest =>
      simp only [Gate.signal, hsleepers, Option.some.injEq] at hd
      subst hd
      have hid : id ∈ d.gate.sleepers := by simp [hsleepers]
      have hnodup := h.sleepers_nodup
      rw [hsleepers, List.nodup_cons] at hnodup
      refine h.of_handed_eq (h.toOrderly.setStage ?_ hnodup.2 hnodup.1) rfl
        (handed_setStage (h.keyless_of_sleeper hid) rfl)
      exact hsleepers ▸ List.subset_cons_self id rest

theorem wakeAll {ids : List Nat} (h : d.Accounted out) (hsleepers : d.gate.sleepers = [])
    (hkeyless : ∀ id ∈ ids, d.Keyless id) :
    (ids.foldl (fun d id ↦ d.setStage id (.woken false)) d).Accounted out := by
  induction ids generalizing d with
  | nil => exact h
  | cons id ids ih =>
    refine ih (h.of_handed_eq ?_ rfl (handed_setStage (hkeyless id List.mem_cons_self) rfl))
      hsleepers fun j hj ↦ (hkeyless j (List.mem_cons_of_mem _ hj)).setStage rfl
    exact h.toOrderly.setStage (List.Subset.refl _) h.sleepers_nodup (by simp [hsleepers])

theorem signalAll? (h : d.Accounted out) (hd : d.signalAll? = some d') : d'.Accounted out := by
  unfold Dispenser.signalAll? at hd
  split at hd
  · obtain rfl := Option.some.inj hd
    refine wakeAll (h.of_handed_eq ?_ rfl rfl) rfl fun id hid ↦ h.keyless_of_sleeper hid
    exact ⟨h.ids_nodup, h.id_lt, List.nodup_nil, by simp, by simp⟩
  · simp at hd

end Accounted

end Dispenser

end Submarine
