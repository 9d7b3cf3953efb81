import Submarine.Proofs.Queue.Holding
import Submarine.Queue.WorkQueue

namespace Submarine

namespace Queue

theorem dirty_subset_add (q : Queue) (key : String) : q.dirty ⊆ (q.add key).dirty := by
  unfold add
  split
  · exact List.Subset.refl _
  · split <;> exact List.subset_append_left _ _

end Queue

namespace Dispenser

def Wants (d : Dispenser) (key : String) : Prop := key ∈ d.queue.dirty ∨ key ∈ d.handed

variable {d d' : Dispenser} {id : Nat} {key : String} {stage : Stage}

theorem handed_subset_setStage (hold : d.Keyless id) (stage : Stage) :
    d.handed ⊆ (d.setStage id stage).handed := by
  intro key hkey
  obtain ⟨t, ht, hstage⟩ := List.mem_filterMap.1 hkey
  refine List.mem_filterMap.2 ⟨t, ?_, hstage⟩
  have hid : t.id ≠ id := by
    intro he
    rw [hold t ht he] at hstage
    contradiction
  exact List.mem_map.2 ⟨t, ht, if_neg hid⟩

theorem mem_handed_setStage (hs : d.stage? id = some stage) (key : String) :
    key ∈ (d.setStage id (.finished (some key))).handed :=
  List.mem_filterMap.2 ⟨⟨id, .finished (some key)⟩,
    mem_takers_of_stage? (stage?_setStage_self hs), rfl⟩

theorem Orderly.eq_of_stage? (h : d.Orderly) (hs : d.stage? id = some stage) {t : Taker}
    (ht : t ∈ d.takers) (hid : t.id = id) : t = ⟨id, stage⟩ := by
  obtain ⟨before, after, htakers, hne⟩ := h.split hs
  rw [htakers] at ht
  rcases List.mem_append.1 ht with ht | ht
  · exact absurd hid (hne t (List.mem_append_left _ ht))
  · rcases List.mem_cons.1 ht with rfl | ht
    · rfl
    · exact absurd hid (hne t (List.mem_append_right _ ht))

theorem Orderly.stage?_of_mem {t : Taker} (h : d.Orderly) (ht : t ∈ d.takers) :
    d.stage? t.id = some t.stage := by
  have hsome : (d.stage? t.id).isSome := by
    rw [stage?, Option.isSome_map, List.find?_isSome]
    exact ⟨t, ht, by simp⟩
  obtain ⟨stage, hs⟩ := Option.isSome_iff_exists.1 hsome
  rw [hs, h.eq_of_stage? hs ht rfl]

theorem wants_add (hopen : d.queue.isShutDown = false) (key : String) : (d.add key).Wants key :=
  .inl ((Queue.mem_dirty_add hopen).2 (.inl rfl))

theorem isShutDown_step? (h : d.step? id = some d') :
    d'.queue.isShutDown = d.queue.isShutDown := by
  unfold step? at h
  split at h
  · next ticket hs =>
    obtain rfl := Option.some.inj h
    unfold look
    rcases ht : d.queue.take with ⟨j | _ | _, q⟩
    · obtain ⟨hopen, rest, -, rfl⟩ := Queue.take_eq_key ht
      rfl
    · rfl
    · rfl
  · obtain rfl := Option.some.inj h
    rfl
  · obtain rfl := Option.some.inj h
    rfl
  all_goals contradiction

namespace Wants

theorem add (h : d.Wants key) (j : String) : (d.add j).Wants key :=
  h.imp_left fun hdirty ↦ Queue.dirty_subset_add d.queue j hdirty

theorem done (h : d.Wants key) (j : String) : (d.done j).Wants key := h

theorem ask (h : d.Wants key) : d.ask.2.Wants key := by
  refine h.imp_right fun hhanded ↦ ?_
  simpa [Dispenser.ask, handed, Stage.key?] using hhanded

/-- A taker that goes away takes with it only the key that it was handed. -/
theorem abandon (h : d.Wants key) (ho : d.Orderly) (hs : d.stage? id = some stage) :
    (d.abandon id).Wants key ∨ stage.key? = some key := by
  rcases h with hdirty | hhanded
  · exact .inl (.inl hdirty)
  · obtain ⟨t, ht, hstage⟩ := List.mem_filterMap.1 hhanded
    by_cases hid : t.id = id
    · obtain rfl := ho.eq_of_stage? hs ht hid
      exact .inr hstage
    · exact .inl (.inr (List.mem_filterMap.2 ⟨t, List.mem_filter.2 ⟨ht, by simpa using hid⟩, hstage⟩))

theorem setStage {gate : Gate} {owed : Nat} {closing : Bool} (h : d.Wants key)
    (hold : d.Keyless id) (stage : Stage) :
    Wants ({ d with gate, owed, closing }.setStage id stage) key := by
  refine h.imp_right fun hhanded ↦ ?_
  have hkeyless : Keyless { d with gate, owed, closing } id := hold
  exact handed_subset_setStage hkeyless stage hhanded

theorem look {ticket : Nat} (h : d.Wants key) (ho : d.Orderly)
    (hs : d.stage? id = some (.looking ticket)) : (d.look id ticket).Wants key := by
  have hkeyless : d.Keyless id := ho.keyless hs rfl
  unfold Dispenser.look
  rcases ht : d.queue.take with ⟨j | _ | _, q⟩
  · -- Only the key that is handed out loses its mark.
    obtain ⟨_, rest, -, rfl⟩ := Queue.take_eq_key ht
    rcases h with hdirty | hhanded
    · by_cases hj : key = j
      · subst hj
        exact .inr (mem_handed_setStage (by exact hs) key)
      · exact .inl (List.mem_filter.2 ⟨hdirty, by simpa using hj⟩)
    · exact .inr (handed_subset_setStage (by exact hkeyless) _ (by exact hhanded))
  · exact h.setStage hkeyless _
  · exact h.setStage hkeyless _

theorem step? (h : d.Wants key) (ho : d.Orderly) (hd : d.step? id = some d') : d'.Wants key := by
  unfold Dispenser.step? at hd
  split at hd
  · next ticket hs =>
    obtain rfl := Option.some.inj hd
    exact h.look ho hs
  · next ticket hs =>
    obtain rfl := Option.some.inj hd
    exact h.setStage (ho.keyless hs rfl) _
  · next hs =>
    obtain rfl := Option.some.inj hd
    exact h.setStage (ho.keyless hs rfl) _
  all_goals contradiction

theorem signal? (h : d.Wants key) (ho : d.Orderly) (hd : d.signal? = some d') : d'.Wants key := by
  unfold Dispenser.signal? at hd
  split at hd
  · contradiction
  · cases hsleepers : d.gate.sleepers with
    | nil =>
      simp only [Gate.signal, hsleepers, Option.some.injEq] at hd
      obtain rfl := hd
      exact h
    | cons id rest =>
      simp only [Gate.signal, hsleepers, Option.some.injEq] at hd
      obtain rfl := hd
      exact h.setStage (ho.keyless_of_sleeper (by simp [hsleepers])) _

theorem wakeAll {ids : List Nat} (h : d.Wants key) (hkeyless : ∀ id ∈ ids, d.Keyless id) :
    (ids.foldl (fun d id ↦ d.setStage id (.woken false)) d).Wants key := by
  induction ids generalizing d with
  | nil => exact h
  | cons id ids ih =>
    refine ih (h.setStage (hkeyless id (List.mem_cons_self ..)) _) fun j hj ↦ ?_
    exact (hkeyless j (List.mem_cons_of_mem _ hj)).setStage rfl

theorem signalAll? (h : d.Wants key) (ho : d.Orderly) (hd : d.signalAll? = some d') :
    d'.Wants key := by
  unfold Dispenser.signalAll? at hd
  split at hd
  · obtain rfl := Option.some.inj hd
    exact wakeAll h fun id hid ↦ ho.keyless_of_sleeper hid
  · contradiction

end Wants

end Dispenser

namespace WorkQueue

def Wants (w : WorkQueue) (key : String) : Prop :=
  w.dispenser.Wants key ∨ ∃ t ∈ w.timers, t.key = key

variable {w w' : WorkQueue} {key : String}

theorem insertTimer_perm (t : Timer) (timers : List Timer) :
    (insertTimer t timers).Perm (t :: timers) := by
  induction timers with
  | nil => exact .refl _
  | cons u rest ih =>
    rw [insertTimer]
    split
    · exact .refl _
    · exact (ih.cons u).trans (.swap t u rest)

theorem mem_insertTimer {t u : Timer} {timers : List Timer} :
    u ∈ insertTimer t timers ↔ u = t ∨ u ∈ timers :=
  (insertTimer_perm t timers).mem_iff.trans List.mem_cons

/-- Either the failure is counted and the key retried later, or its failures are forgotten. -/
theorem conclude_cases (w : WorkQueue) (key : String) (result : Except Failure Unit) :
    ∃ metrics, (∃ f, result = .error f ∧ f.severity = .transient) ∧
        w.conclude key result = { w with metrics }.retryLater key ∨
      (∀ f, result = .error f → f.severity = .terminal) ∧
        w.conclude key result = { w with metrics }.forget key := by
  unfold conclude
  cases result with
  | ok => exact ⟨_, .inr ⟨fun f hf ↦ by contradiction, rfl⟩⟩
  | error f =>
    cases hf : f.severity with
    | transient => exact ⟨_, .inl ⟨⟨f, rfl, hf⟩, by simp only [hf]; rfl⟩⟩
    | terminal =>
      refine ⟨_, .inr ⟨fun g hg ↦ ?_, by simp only [hf]; rfl⟩⟩
      obtain rfl := Except.error.inj hg
      exact hf

theorem wants_add (hopen : w.queue.isShutDown = false) (key : String) : (w.add key).Wants key :=
  .inl (Dispenser.wants_add hopen key)

theorem wants_retryLater (w : WorkQueue) (key : String) : (w.retryLater key).Wants key :=
  .inr ⟨_, mem_insertTimer.2 (.inl rfl), rfl⟩

namespace Wants

theorem follow {d : Dispenser} (h : w.Wants key)
    (hd : w.dispenser.Wants key → d.Wants key) : (w.follow d).Wants key := h.imp_left hd

theorem add (h : w.Wants key) (j : String) : (w.add j).Wants key := h.follow fun hd ↦ hd.add j

theorem done (h : w.Wants key) (j : String) : (w.done j).Wants key := h.follow fun hd ↦ hd.done j

theorem takeLater (h : w.Wants key) : w.takeLater.2.Wants key := h.follow fun hd ↦ hd.ask

theorem retryLater (h : w.Wants key) (j : String) : (w.retryLater j).Wants key := by
  rcases h with hd | ⟨t, ht, hkey⟩
  · exact .inl hd
  · exact .inr ⟨t, mem_insertTimer.2 (.inr ht), hkey⟩

theorem conclude (h : w.Wants key) (j : String) (result : Except Failure Unit) :
    (w.conclude j result).Wants key := by
  obtain ⟨metrics, ⟨-, hw⟩ | ⟨-, hw⟩⟩ := w.conclude_cases j result <;> rw [hw]
  · exact retryLater (by exact h) j
  · exact h

theorem fire? (h : w.Wants key) (hopen : w.queue.isShutDown = false) (hw : w.fire? = some w') :
    w'.Wants key := by
  obtain ⟨t, rest, htimers, rfl⟩ := WorkQueue.fire?_eq_some hw
  let later : WorkQueue := { w with now := max w.now t.due, timers := rest }
  have hlater : later.queue.isShutDown = false := hopen
  rcases h with hd | ⟨u, hu, hkey⟩
  · have h : later.Wants key := .inl hd
    exact h.add t.key
  · rw [htimers] at hu
    rcases List.mem_cons.1 hu with rfl | hrest
    · rw [← hkey]
      exact wants_add hlater u.key
    · have h : later.Wants key := .inr ⟨u, hrest, hkey⟩
      exact h.add t.key

end Wants

theorem isShutDown_fire? (h : w.fire? = some w') :
    w'.queue.isShutDown = w.queue.isShutDown := by
  obtain ⟨t, rest, -, rfl⟩ := fire?_eq_some h
  exact Queue.isShutDown_add w.queue t.key

theorem isShutDown_conclude (w : WorkQueue) (key : String) (result : Except Failure Unit) :
    (w.conclude key result).queue.isShutDown = w.queue.isShutDown := by
  obtain ⟨metrics, ⟨-, hw⟩ | ⟨-, hw⟩⟩ := w.conclude_cases key result <;> rw [hw] <;> rfl

theorem accounted_fire? {out : List String} (h : w.dispenser.Accounted out)
    (hw : w.fire? = some w') : w'.dispenser.Accounted out := by
  obtain ⟨t, rest, -, rfl⟩ := fire?_eq_some hw
  exact h.add t.key

theorem accounted_conclude {out : List String} (h : w.dispenser.Accounted out) (key : String)
    (result : Except Failure Unit) : (w.conclude key result).dispenser.Accounted out := by
  obtain ⟨metrics, ⟨-, hw⟩ | ⟨-, hw⟩⟩ := w.conclude_cases key result <;> rw [hw]
  · exact h.withQueue (h.coherent.countFailure key) rfl
  · exact h.withQueue (h.coherent.forget key) rfl

theorem wants_conclude {f : Failure} (hf : f.severity = .transient) (w : WorkQueue)
    (key : String) : (w.conclude key (.error f)).Wants key := by
  unfold conclude
  dsimp only
  rw [hf]
  exact wants_retryLater _ key

end WorkQueue

end Submarine
