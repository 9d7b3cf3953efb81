import Submarine.Proofs.Controller.Attending

namespace Submarine

open Cluster (Proper Gentle)

variable {p : Place} {root : Root} {i : Nat}

theorem filterMap_set_perm {α β : Type} {f : α → Option β} {xs : List α} {i : Nat} {x : α}
    (h : xs[i]? = some x) (y : α) :
    ((f x).toList ++ (xs.set i y).filterMap f).Perm ((f y).toList ++ xs.filterMap f) := by
  have hcons (z : α) (zs : List α) : (z :: zs).filterMap f = (f z).toList ++ zs.filterMap f := by
    cases hz : f z <;> simp [hz]
  induction xs generalizing i with
  | nil => simp at h
  | cons z zs ih =>
    cases i with
    | zero =>
      obtain rfl : z = x := by simpa using h
      rw [List.set_cons_zero, hcons, hcons, ← List.append_assoc, ← List.append_assoc]
      exact List.perm_append_comm.append_right _
    | succ i =>
      have hzs := ih (i := i) (by simpa using h)
      rw [List.set_cons_succ, hcons, hcons]
      refine (List.perm_append_comm_assoc ..).trans ?_
      exact (hzs.append_left (f z).toList).trans (List.perm_append_comm_assoc ..)

theorem Root.sample_named : Object.Named Root.sample ⟨"default", "demo"⟩ :=
  ⟨rfl, rfl, rfl, by decide, by decide, by decide, by decide⟩

namespace Worker

variable {w : World} {key : String} {rest : Pass Unit}

theorem Sound.gentle_step (h : (passing key rest).Sound w.cluster) (hc : Proper w.cluster) :
    Gentle w.cluster (w.step rest).2.cluster := by
  rcases h with rfl | ⟨root, p, seen, hroot, hguarded⟩
  · cases hsplit : splitKey? key with
    | none =>
      rw [reconcile_of_splitKey?_eq_none hsplit]
      exact .unchanged (.refl _)
    | some parts =>
      rw [reconcile_of_splitKey? hsplit]
      exact .unchanged (.refl w.cluster)
  · exact hguarded.written.gentle hc hroot

theorem Sound.effect {v : Worker} {c c' : Cluster} (h : v.Sound c) (he : Cluster.Effect c c') :
    v.Sound c' := by
  cases v with
  | asking | releasing | exited => trivial
  | passing key rest =>
    rcases h with hbegun | ⟨root, p, seen, hroot, hguarded⟩
    · exact .inl hbegun
    · exact .inr ⟨root, p, seen, hroot, hguarded.effect he⟩

end Worker

namespace Controller

variable {s s' : Controller}

theorem Sound.named_of_cached (h : s.Sound) {ns name : String}
    (hcached : s.world.roots.get? ns name = some root) : ∃ p, Object.Named root p := by
  obtain ⟨l, hl⟩ := h.watching.first
  have hsound : l.Sound s.world.roots s.world.cluster := h.watching.sound hl
  cases hsound with
  | silent _ _ _ empty =>
    rw [Cache.get?, empty] at hcached
    contradiction
  | live w _ _ tracks =>
    obtain ⟨p, -, hnamed, -⟩ := tracks.cached hcached
    exact ⟨p, hnamed⟩

theorem Sound.worker_step {key : String} {r : Request} {next : r.Answer → Pass Unit} (h : s.Sound)
    (hw : s.workers[i]? = some (.passing key (.ask r next))) :
    (Worker.passing key (s.world.step (.ask r next)).1).Sound
      (s.world.step (.ask r next)).2.cluster := by
  rcases h.working hw with hbegun | ⟨root, p, seen, hroot, hguarded⟩
  · cases hsplit : splitKey? key with
    | none =>
      rw [reconcile_of_splitKey?_eq_none hsplit] at hbegun
      contradiction
    | some parts =>
      rw [hbegun, reconcile_of_splitKey? hsplit]
      change (Worker.passing key (afterLookup (s.world.roots.get? parts.1 parts.2))).Sound
        s.world.cluster
      cases hcached : s.world.roots.get? parts.1 parts.2 with
      | none => exact .inr ⟨_, _, none, Root.sample_named, .of_disciplined (.done ()) _⟩
      | some root =>
        obtain ⟨p, hnamed⟩ := h.named_of_cached hcached
        exact .inr ⟨root, p, none, hnamed, .of_disciplined (.afterLookup root) _⟩
  · obtain ⟨seen', hguarded'⟩ := hguarded.step h.proper.stamped
    exact .inr ⟨root, p, seen', hroot, hguarded'⟩

inductive WorkerSteps (s : Controller) (i : Nat) : Controller → Prop where
  | takes {taker : Nat} {key : String} (worker : s.workers[i]? = some (.asking taker))
      (stage : s.work.dispenser.stage? taker = some (.finished (some key))) :
      WorkerSteps s i ((s.withWork (s.work.follow (s.work.dispenser.abandon taker))).withWorker i
        (.passing key (reconcile key)))
  | leaves {taker : Nat} (worker : s.workers[i]? = some (.asking taker))
      (stage : s.work.dispenser.stage? taker = some (.finished none)) :
      WorkerSteps s i ((s.withWork (s.work.follow (s.work.dispenser.abandon taker))).withWorker i
        .exited)
  | asks {key : String} {r : Request} {next : r.Answer → Pass Unit}
      (worker : s.workers[i]? = some (.passing key (.ask r next))) :
      WorkerSteps s i ((s.withWorld (s.world.step (.ask r next)).2).withWorker i
        (.passing key (s.world.step (.ask r next)).1))
  | ends {key : String} (worker : s.workers[i]? = some (.passing key (.done ()))) :
      WorkerSteps s i ((s.withWork (s.work.conclude key (.ok ()))).withWorker i (.releasing key))
  | fails {key : String} {f : Failure} (worker : s.workers[i]? = some (.passing key (.fail f))) :
      WorkerSteps s i ((s.withWork (s.work.conclude key (.error f))).withWorker i (.releasing key))
  | releases {key : String} (worker : s.workers[i]? = some (.releasing key)) :
      WorkerSteps s i ((s.withWork (s.work.done key).takeLater.2).withWorker i
        (.asking (s.work.done key).takeLater.1))

theorem steps_of_stepWorker? (h : s.stepWorker? i = some s') : s.WorkerSteps i s' := by
  obtain ⟨w, hw, h⟩ := Option.bind_eq_some_iff.1 h
  cases w with
  | asking taker =>
    dsimp only at h
    split at h
    · next key? hstage =>
      cases key? with
      | some key =>
        obtain rfl := Option.some.inj h
        exact .takes hw hstage
      | none =>
        obtain rfl := Option.some.inj h
        exact .leaves hw hstage
    · contradiction
  | passing key rest =>
    cases rest with
    | done a =>
      obtain rfl := Option.some.inj h
      exact .ends hw
    | fail f =>
      obtain rfl := Option.some.inj h
      exact .fails hw
    | ask r next =>
      obtain rfl := Option.some.inj h
      exact .asks hw
  | releasing key =>
    obtain rfl := Option.some.inj h
    exact .releases hw
  | exited => contradiction

/-- A worker that takes a key or releases it leaves all keys that are held accounted for. -/
theorem WorkerSteps.accounted (h : s.WorkerSteps i s')
    (hacc : s.work.dispenser.Accounted (s.workers.filterMap Worker.key?)) :
    s'.work.dispenser.Accounted (s'.workers.filterMap Worker.key?) := by
  cases h with
  | @takes taker key worker stage =>
    have hset := filterMap_set_perm (f := Worker.key?) worker (.passing key (reconcile key))
    exact (hacc.abandon stage).perm hset.symm
  | @leaves taker worker stage =>
    have hset := filterMap_set_perm (f := Worker.key?) worker .exited
    exact (hacc.abandon stage).perm hset.symm
  | @asks key r next worker =>
    have hset := filterMap_set_perm (f := Worker.key?) worker
      (.passing key (s.world.step (.ask r next)).1)
    exact hacc.perm hset.cons_inv.symm
  | @ends key worker =>
    have hset := filterMap_set_perm (f := Worker.key?) worker (.releasing key)
    exact (WorkQueue.accounted_conclude hacc key (.ok ())).perm hset.cons_inv.symm
  | @fails key f worker =>
    have hset := filterMap_set_perm (f := Worker.key?) worker (.releasing key)
    exact (WorkQueue.accounted_conclude hacc key (.error f)).perm hset.cons_inv.symm
  | @releases key worker =>
    have hkey : key ∈ s.workers.filterMap Worker.key? :=
      List.mem_filterMap.2 ⟨_, List.mem_of_getElem? worker, rfl⟩
    have hset := filterMap_set_perm (f := Worker.key?) worker
      (.asking (s.work.done key).takeLater.1)
    have hrest := (hset.trans (List.perm_cons_erase hkey)).cons_inv
    exact (hacc.done hkey).ask.perm hrest.symm

section Turn

variable {work : WorkQueue} {w w' : Worker}

theorem Sound.turn (h : s.Sound) (hw : s.workers[i]? = some w) (hsound : w'.Sound s.world.cluster)
    (hacc : work.dispenser.Accounted ((s.workers.set i w').filterMap Worker.key?)) :
    ((s.withWork work).withWorker i w').Sound where
  proper := h.proper
  watching := ⟨h.watching.first, h.watching.kinds, h.watching.sound⟩
  accounted := hacc
  working {j v} hv := by
    change (s.workers.set i w')[j]? = some v at hv
    rw [getElem?_set_of_some hw] at hv
    split at hv
    · obtain rfl := Option.some.inj hv
      exact hsound
    · exact h.working hv
  waiting hsyncing := absurd hsyncing (h.phase_ne_syncing hw)

theorem Attended.turn (h : s.Attended p root) (hw : s.workers[i]? = some w)
    (hwanted : s.work.Wants p.key → ((s.withWork work).withWorker i w').Attended p root)
    (hbegun : w = .passing p.key (reconcile p.key) →
      ((s.withWork work).withWorker i w').Attended p root)
    (hunderway : s.Underway i p root → ((s.withWork work).withWorker i w').Attended p root) :
    ((s.withWork work).withWorker i w').Attended p root := by
  have hothers {j : Nat} (hij : i ≠ j) : (s.workers.set i w')[j]? = s.workers[j]? :=
    List.getElem?_set_ne hij
  refine h.transfer rfl rfl id hwanted (fun j hj ↦ ?_) fun j hj ↦ ?_
  · by_cases hij : i = j
    · subst hij
      exact hbegun (Option.some.inj (hw.symm.trans hj))
    · exact .begun j ((hothers hij).trans hj)
  · by_cases hij : i = j
    · subst hij
      exact hunderway hj
    · exact .underway j (hj.transfer rfl (hothers hij))

theorem Attended.turn_of_idle (h : s.Attended p root) (hw : s.workers[i]? = some w)
    (hidle : ∀ rest, w ≠ .passing p.key rest)
    (hwanted : s.work.Wants p.key → ((s.withWork work).withWorker i w').Attended p root) :
    ((s.withWork work).withWorker i w').Attended p root := by
  refine h.turn hw hwanted (fun hbegun ↦ absurd hbegun (hidle _)) ?_
  rintro ⟨rest, _, _, hi, -⟩
  exact absurd (Option.some.inj (hw.symm.trans hi)) (hidle rest)

end Turn

theorem reconcile_ne_done (hp : p.IsKeyed) : reconcile p.key ≠ .done () := by
  rw [reconcile_of_splitKey? hp.splitKey?]
  simp

theorem reconcile_ne_fail (hp : p.IsKeyed) (f : Failure) : reconcile p.key ≠ .fail f := by
  rw [reconcile_of_splitKey? hp.splitKey?]
  simp

theorem Underway.rest_eq {key : String} {rest : Pass Unit} (h : s.Underway i p root)
    (hw : s.workers[i]? = some (.passing key rest)) :
    ∃ met seen, key = p.key ∧ rest.Guarded root (plan root) seen s.world.cluster ∧
      rest.Obeys (errand root) (fun met _ ↦ ∀ child ∈ plan root, met child) met ∧
        Upheld met root s.world.cluster := by
  obtain ⟨rest', met, seen, hi, hguarded, hobeys, hupheld⟩ := h
  obtain ⟨rfl, rfl⟩ := Worker.passing.inj (Option.some.inj (hw.symm.trans hi))
  exact ⟨met, seen, rfl, hguarded, hobeys, hupheld⟩

namespace Steady

theorem takes {taker : Nat} {key : String} (h : s.Steady)
    (hw : s.workers[i]? = some (.asking taker))
    (hstage : s.work.dispenser.stage? taker = some (.finished (some key))) :
    ((s.withWork (s.work.follow (s.work.dispenser.abandon taker))).withWorker i
      (.passing key (reconcile key))).Steady := by
  refine ⟨h.toSound.turn hw (.inl rfl) ((WorkerSteps.takes hw hstage).accounted h.accounted),
    fun hopen p root hdeclares ↦ ?_⟩
  refine (h.attended hopen hdeclares).turn_of_idle hw (by simp) fun hwanted ↦ ?_
  rcases hwanted with hwanted | htimer
  · rcases hwanted.abandon h.accounted.toOrderly hstage with hleft | hkey
    · exact .wanted (.inl hleft)
    · obtain rfl : key = p.key := Option.some.inj hkey
      exact .begun i (getElem?_set_self_of_some hw _)
  · exact .wanted (.inr htimer)

theorem leaves {taker : Nat} (h : s.Steady) (hw : s.workers[i]? = some (.asking taker))
    (hstage : s.work.dispenser.stage? taker = some (.finished none)) :
    ((s.withWork (s.work.follow (s.work.dispenser.abandon taker))).withWorker i .exited).Steady := by
  refine ⟨h.toSound.turn hw trivial ((WorkerSteps.leaves hw hstage).accounted h.accounted),
    fun hopen p root hdeclares ↦ ?_⟩
  refine (h.attended hopen hdeclares).turn_of_idle hw (by simp) fun hwanted ↦ .wanted ?_
  rcases hwanted with hwanted | htimer
  · rcases hwanted.abandon h.accounted.toOrderly hstage with hleft | hkey
    · exact .inl hleft
    · contradiction
  · exact .inr htimer

/-- A pass that ended well leaves every child of its root standing. -/
theorem ends {key : String} (h : s.Steady)
    (hw : s.workers[i]? = some (.passing key (.done ()))) :
    ((s.withWork (s.work.conclude key (.ok ()))).withWorker i (.releasing key)).Steady := by
  refine ⟨h.toSound.turn hw trivial ((WorkerSteps.ends hw).accounted h.accounted),
    fun hopen p root hdeclares ↦ ?_⟩
  have hkeyed := (h.proper.named hdeclares.stored).isKeyed
  refine (h.attended hopen hdeclares).turn hw (fun hwanted ↦ ?_) (fun hbegun ↦ ?_)
    fun hunderway ↦ ?_
  · exact .wanted (hwanted.conclude key (.ok ()))
  · exact absurd (Worker.passing.inj hbegun).2.symm (reconcile_ne_done hkeyed)
  · obtain ⟨met, seen, -, -, hall, hupheld⟩ := hunderway.rest_eq hw
    refine .settled (h.phase_ne_syncing hw) fun child hchild _ ↦ ?_
    exact hupheld child hchild (hall child hchild)

/-- A pass that failed did so for now, and its key will be added again. -/
theorem fails {key : String} {f : Failure} (h : s.Steady)
    (hw : s.workers[i]? = some (.passing key (.fail f))) :
    ((s.withWork (s.work.conclude key (.error f))).withWorker i (.releasing key)).Steady := by
  refine ⟨h.toSound.turn hw trivial ((WorkerSteps.fails hw).accounted h.accounted),
    fun hopen p root hdeclares ↦ ?_⟩
  have hwas : s.work.queue.isShutDown = false := by
    rw [← WorkQueue.isShutDown_conclude s.work key (.error f)]
    exact hopen
  have hkeyed := (h.proper.named hdeclares.stored).isKeyed
  refine (h.attended hwas hdeclares).turn hw (fun hwanted ↦ ?_) (fun hbegun ↦ ?_)
    fun hunderway ↦ ?_
  · exact .wanted (hwanted.conclude key (.error f))
  · exact absurd (Worker.passing.inj hbegun).2.symm (reconcile_ne_fail hkeyed f)
  · obtain ⟨met, seen, rfl, -, htransient, -⟩ := hunderway.rest_eq hw
    exact .wanted (WorkQueue.wants_conclude htransient s.work p.key)

theorem releases {key : String} (h : s.Steady) (hw : s.workers[i]? = some (.releasing key)) :
    ((s.withWork (s.work.done key).takeLater.2).withWorker i
      (.asking (s.work.done key).takeLater.1)).Steady := by
  refine ⟨h.toSound.turn hw trivial ((WorkerSteps.releases hw).accounted h.accounted),
    fun hopen p root hdeclares ↦ ?_⟩
  refine (h.attended hopen hdeclares).turn_of_idle hw (by simp) fun hwanted ↦ ?_
  exact .wanted (hwanted.done key).takeLater

end Steady

section Asking

variable {key : String} {r : Request} {next : r.Answer → Pass Unit}

theorem Sound.asks (h : s.Sound) (hw : s.workers[i]? = some (.passing key (.ask r next))) :
    ((s.withWorld (s.world.step (.ask r next)).2).withWorker i
      (.passing key (s.world.step (.ask r next)).1)).Sound := by
  have hgentle := (h.working hw).gentle_step h.proper
  refine ⟨h.proper.gentle hgentle, h.watching.gentle h.proper hgentle (s.world.roots_step _),
    (WorkerSteps.asks hw).accounted h.accounted, fun {j v} hv ↦ ?_,
    fun hsyncing ↦ absurd hsyncing (h.phase_ne_syncing hw)⟩
  change (s.workers.set i _)[j]? = some v at hv
  rw [getElem?_set_of_some hw] at hv
  split at hv
  · obtain rfl := Option.some.inj hv
    exact h.worker_step hw
  · exact (h.working hv).effect hgentle.effect

/-- A pass that begins finds the root as it is stored, or a change of the root is on its way. -/
theorem Sound.attended_of_begun (h : s.Sound) (hdeclares : s.world.cluster.Declares p root)
    (hw : s.workers[i]? = some (.passing p.key (reconcile p.key))) :
    ((s.withWorld (s.world.step (reconcile p.key)).2).withWorker i
      (.passing p.key (s.world.step (reconcile p.key)).1)).Attended p root := by
  have hnamed := h.proper.named hdeclares.stored
  rw [reconcile_of_splitKey? hnamed.isKeyed.splitKey?]
  change ((s.withWorld s.world).withWorker i
    (.passing p.key (afterLookup (s.world.roots.get? p.ns p.name)))).Attended p root
  obtain ⟨l, hl⟩ := h.watching.first
  rcases Loop.Sound.cached_or_owes h.proper (h.watching.sound hl) hdeclares.stored with
    hcached | howes
  · change s.world.roots.get? p.ns p.name = some root at hcached
    rw [hcached, afterLookup_of_valid hdeclares.valid hdeclares.stays]
    refine .underway i ⟨reconcileRoot root, fun _ ↦ False, none, ?_, ?_, ?_, ?_⟩
    · exact getElem?_set_self_of_some hw _
    · exact .of_disciplined .reconcileRoot _
    · exact (Pass.Meets.reconcileRoot hnamed fun _ ↦ False).mono fun _ _ hmet ↦ hmet.1
    · intro child _ hmet
      exact hmet.elim
  · exact .changed ⟨0, _, hl, howes⟩

/-- A pass that goes on has noted what is true, or has changed a child itself. -/
theorem Underway.asks (h : s.Underway i p root) (hs : s.Sound)
    (hw : s.workers[i]? = some (.passing key (.ask r next))) :
    ((s.withWorld (s.world.step (.ask r next)).2).withWorker i
      (.passing key (s.world.step (.ask r next)).1)).Attended p root := by
  obtain ⟨met, seen, rfl, hguarded, hobeys, hupheld⟩ := h.rest_eq hw
  have hgentle := (hs.working hw).gentle_step hs.proper
  have hrunning := hs.phase_ne_syncing hw
  have hself (v : Worker) : (s.workers.set i v)[i]? = some v := getElem?_set_self_of_some hw v
  rcases hupheld.gentle_or_owes hs.watching hs.proper hgentle with hupheld | howes
  · rcases s.world.step_ask_cases r next with ⟨answer, w', hserve, hstep⟩ | ⟨w', -, hstep⟩
    · rw [hstep] at hupheld ⊢
      rcases hguarded.noted hs.proper hserve with hnoted | ⟨k, q, o, hk, ho, hfind, hlog⟩
      · refine .underway i ⟨next answer, (errand root).note met r answer, _, hself _,
          hguarded.next hs.proper.stamped hserve, hobeys.2 answer, fun child hchild hmet ↦ ?_⟩
        rcases hnoted child hmet with hold | hstands
        · exact hupheld child hchild hold
        · exact hstands
      · exact .disturbed hrunning (hs.watching.owesChild_of_stored hk ho hfind hlog)
    · rw [hstep] at hupheld ⊢
      exact .underway i ⟨.fail (.ofCrash none), met, none, hself _, .fail _ root _, rfl, hupheld⟩
  · exact .disturbed hrunning howes

theorem Steady.asks (h : s.Steady) (hw : s.workers[i]? = some (.passing key (.ask r next))) :
    ((s.withWorld (s.world.step (.ask r next)).2).withWorker i
      (.passing key (s.world.step (.ask r next)).1)).Steady := by
  refine ⟨h.toSound.asks hw, fun hopen p root hdeclares ↦ ?_⟩
  have hgentle := (h.working hw).gentle_step h.proper
  have hothers (v : Worker) {j : Nat} (hij : i ≠ j) : (s.workers.set i v)[j]? = s.workers[j]? :=
    List.getElem?_set_ne hij
  rcases h.watching.root_cases hgentle hdeclares.stored with hstored | howes
  · have hwas : s.world.cluster.Declares p root := ⟨hstored, hdeclares.valid, hdeclares.stays⟩
    refine (h.attended hopen hwas).gentle h.toSound hgentle rfl rfl (fun j hj ↦ ?_) fun j hj ↦ ?_
    · by_cases hij : i = j
      · subst hij
        obtain ⟨rfl, hrest⟩ := Worker.passing.inj (Option.some.inj (hw.symm.trans hj))
        rw [hrest]
        exact h.toSound.attended_of_begun hwas hj
      · exact .begun j ((hothers _ hij).trans hj)
    · by_cases hij : i = j
      · subst hij
        exact hj.asks h.toSound hw
      · exact hj.gentle h.toSound hgentle rfl rfl (hothers _ hij)
  · exact .changed howes

end Asking

theorem Steady.stepWorker? (h : s.Steady) (hstep : s.stepWorker? i = some s') : s'.Steady := by
  cases steps_of_stepWorker? hstep with
  | takes worker stage => exact h.takes worker stage
  | leaves worker stage => exact h.leaves worker stage
  | asks worker => exact h.asks worker
  | ends worker => exact h.ends worker
  | fails worker => exact h.fails worker
  | releases worker => exact h.releases worker

end Controller

end Submarine
