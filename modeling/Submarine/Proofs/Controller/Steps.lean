import Submarine.Proofs.Controller.Working

namespace Submarine

open Cluster (Proper Gentle)

variable {i : Nat}

namespace Controller

variable {s s' : Controller}

namespace Steady

theorem withPhase {phase : RunPhase} (h : s.Steady) (hphase : phase ≠ .syncing) :
    { s with phase }.Steady where
  proper := h.proper
  watching := h.watching
  accounted := h.accounted
  working := h.working
  waiting hsyncing := absurd hsyncing hphase
  attended hopen _ _ hdeclares :=
    (h.attended hopen hdeclares).frame rfl rfl (fun _ ↦ hphase) id id

theorem hire (h : s.Steady) (hphase : s.phase ≠ .syncing) : s.hire.Steady where
  proper := h.proper
  watching := ⟨h.watching.first, h.watching.kinds, h.watching.sound⟩
  accounted := by
    have hsame : s.hire.workers.filterMap Worker.key? = s.workers.filterMap Worker.key? := by
      simp [Controller.hire, Worker.key?]
    rw [hsame]
    exact h.accounted.ask
  working {j w} hw := by
    change (s.workers ++ [.asking s.work.takeLater.1])[j]? = some w at hw
    rcases List.mem_append.1 (List.mem_of_getElem? hw) with hold | hnew
    · obtain ⟨m, hm⟩ := List.getElem?_of_mem hold
      exact h.working hm
    · obtain rfl := List.mem_singleton.1 hnew
      trivial
  waiting hsyncing := absurd hsyncing hphase
  attended hopen p root hdeclares := by
    refine (h.attended hopen hdeclares).frame rfl rfl id (fun {j w} hw ↦ ?_)
      fun hwanted ↦ hwanted.takeLater
    refine (List.getElem?_append_left ?_).trans hw
    exact (List.getElem?_eq_some_iff.1 hw).1

theorem hireMany {n : Nat} (h : s.Steady) (hphase : s.phase ≠ .syncing) :
    (s.hireMany n).Steady := by
  induction n generalizing s with
  | zero => exact h
  | succ n ih => exact ih (h.hire hphase) hphase

theorem leave (h : s.Steady) (why : Departure) : (s.leave why).Steady where
  proper := h.proper
  watching := ⟨h.watching.first, h.watching.kinds, h.watching.sound⟩
  accounted := h.accounted.shutDown
  working := h.working
  waiting hsyncing := by contradiction
  attended hopen := by contradiction

end Steady

theorem hireMany_withPhase (s : Controller) (n : Nat) (phase : RunPhase) :
    { s.hireMany n with phase } = { s with phase }.hireMany n := by
  induction n generalizing s with
  | zero => rfl
  | succ n ih => exact ih s.hire

namespace Steady

theorem proceed? (h : s.Steady) (hstep : s.proceed? = some s') : s'.Steady := by
  unfold Controller.proceed? at hstep
  split at hstep
  · split at hstep
    · obtain rfl := Option.some.inj hstep
      exact h.withPhase (by simp)
    · split at hstep
      · obtain rfl := Option.some.inj hstep
        rw [hireMany_withPhase]
        have hrunning : RunPhase.running ≠ .syncing := by simp
        exact (h.withPhase hrunning).hireMany hrunning
      · contradiction
  · split at hstep
    · obtain rfl := Option.some.inj hstep
      exact h.leave .shutdown
    · obtain ⟨⟨k, how⟩, -, rfl⟩ := Option.map_eq_some_iff.1 hstep
      exact h.leave (.loopEnded k how)
  · split at hstep
    · obtain rfl := Option.some.inj hstep
      exact h.withPhase (by simp)
    · contradiction
  · contradiction

theorem watch {watching : Watchers} (h : s.Steady) (hup : s.watching.KeepsUp)
    (hstep : s.watching.step? i = some watching) : { s with watching }.Steady := by
  have hsound := h.watching.step hup hstep
  obtain ⟨w, w', roots, key?, -, -, rfl⟩ := Watchers.step?_eq_some hstep
  refine ⟨⟨h.proper, hsound, ?_, h.working, h.waiting⟩, fun hopen p root hdeclares ↦ ?_⟩
  · cases key? with
    | none => exact h.accounted
    | some key => exact h.accounted.add key
  · have hwas : s.work.queue.isShutDown = false := by
      cases key? with
      | none => exact hopen
      | some key => exact (Queue.isShutDown_add s.work.queue key).symm.trans hopen
    cases h.attended hwas hdeclares with
    | wanted h' =>
      refine .wanted ?_
      cases key? with
      | none => exact h'
      | some key => exact h'.add key
    | changed h' =>
      rcases h'.step h.watching hup hwas hstep with howes | hwanted
      · exact .changed howes
      · exact .wanted hwanted
    | begun j h' => exact .begun j h'
    | underway j h' => exact .underway j h'
    | disturbed phase h' =>
      rcases h'.step h.watching hup h.proper hdeclares.stored hwas hstep with
        howes | howes | hwanted
      · exact .disturbed phase howes
      · exact .changed howes
      · exact .wanted hwanted
    | settled phase h' => exact .settled phase h'

/-- A watch loop opens its stream. If the workers have started by then, it must not have missed that
an object is gone. -/
theorem opened {watching : Watchers} (h : s.Steady)
    (hkept : s.phase = .syncing ∨
      ∀ w, s.watching.watchers[i]? = some w → ¬ s.world.cluster.HasRemoved w.kind)
    (hopened : s.watching.open? i = some watching) : { s with watching }.Steady := by
  have hsound := h.watching.opened h.proper hopened
  obtain ⟨w, w', -, -, rfl⟩ := Watchers.open?_eq_some hopened
  refine ⟨⟨h.proper, hsound, h.accounted, h.working, h.waiting⟩, fun hopen p root hdeclares ↦ ?_⟩
  cases h.attended hopen hdeclares with
  | wanted h' => exact .wanted h'
  | changed h' => exact .changed (h'.opened h.watching h.proper hdeclares.stored hopened)
  | begun j h' => exact .begun j h'
  | underway j h' => exact .underway j h'
  | disturbed phase h' =>
    have hkept := hkept.resolve_left phase
    exact .disturbed phase (h'.opened h.watching h.proper hkept hopened)
  | settled phase h' => exact .settled phase h'

theorem operate {cluster : Cluster} (h : s.Steady) (hg : Gentle s.world.cluster cluster) :
    (s.withWorld { s.world with cluster }).Steady := by
  refine ⟨⟨h.proper.gentle hg, h.watching.gentle h.proper hg rfl, h.accounted,
    fun hw ↦ (h.working hw).effect hg.effect, h.waiting⟩, fun hopen p root hdeclares ↦ ?_⟩
  let world : World := { s.world with cluster }
  have hg' : Gentle s.world.cluster world.cluster := hg
  rcases h.watching.root_cases hg' hdeclares.stored with hstored | howes
  · have hwas : s.world.cluster.Declares p root := ⟨hstored, hdeclares.valid, hdeclares.stays⟩
    refine (h.attended hopen hwas).gentle h.toSound hg' rfl rfl (fun j hj ↦ .begun j hj) ?_
    intro j hj
    exact hj.gentle h.toSound hg' rfl rfl rfl
  · exact .changed howes

theorem step? {a : Action} (h : s.Steady) (hup : s.watching.KeepsUp) (hstep : s.step? a = some s') :
    s'.Steady := by
  cases a with
  | watch j =>
    unfold Controller.step? at hstep
    dsimp only at hstep
    split at hstep
    · contradiction
    · obtain ⟨watching, hwatching, rfl⟩ := Option.map_eq_some_iff.1 hstep
      exact h.watch hup hwatching
  | worker j => exact h.stepWorker? hstep
  | taker id =>
    obtain ⟨d, hd, rfl⟩ := Option.map_eq_some_iff.1 hstep
    refine h.withDispenser (h.accounted.step? hd) (Dispenser.isShutDown_step? hd) fun key hkey ↦ ?_
    exact hkey.step? h.accounted.toOrderly hd
  | signal =>
    obtain ⟨d, hd, rfl⟩ := Option.map_eq_some_iff.1 hstep
    have hqueue := Dispenser.Accounted.queue_signal? hd
    refine h.withDispenser (h.accounted.signal? hd) (congrArg Queue.isShutDown hqueue) ?_
    intro key hkey
    exact hkey.signal? h.accounted.toOrderly hd
  | signalAll =>
    obtain ⟨d, hd, rfl⟩ := Option.map_eq_some_iff.1 hstep
    have hqueue := Dispenser.Accounted.queue_signalAll? hd
    refine h.withDispenser (h.accounted.signalAll? hd) (congrArg Queue.isShutDown hqueue) ?_
    intro key hkey
    exact hkey.signalAll? h.accounted.toOrderly hd
  | fire =>
    obtain ⟨work, hwork, rfl⟩ := Option.map_eq_some_iff.1 hstep
    refine h.withWork (WorkQueue.accounted_fire? h.accounted hwork) (fun hopen ↦ ?_) ?_
    · rw [← WorkQueue.isShutDown_fire? hwork]
      exact hopen
    · intro hopen key hkey
      exact hkey.fire? hopen hwork
  | proceed => exact h.proceed? hstep

end Steady

end Controller

end Submarine
