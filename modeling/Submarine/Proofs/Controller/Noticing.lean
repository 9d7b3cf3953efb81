import Submarine.Proofs.Controller.Runs
import Submarine.Proofs.Queue.Retries

namespace Submarine

namespace Cache

variable {k : Kind} {cache : Cache k} {e : WatchEvent k} {o : Object k} {key : String}

theorem told_of_cached (hcached : (cache.apply e).1.objects.get? key = some o)
    (hmoved : ∀ old, cache.objects.get? key = some old → Router.versionMoved old o) :
    o.cacheKey = key ∧ cache.putNotification o ∈ (cache.apply e).2 := by
  rcases apply_source hcached with hsame | ⟨hnews, hkey⟩
  · have hself := hmoved o hsame
    simp [Router.versionMoved] at hself
  · cases e with
    | applied | listed =>
      obtain rfl := Option.some.inj hnews
      exact ⟨hkey, List.mem_singleton_self _⟩
    | deleted | relistStarted | relistDone => contradiction

end Cache

namespace Dispenser

variable {d d' : Dispenser} {key : String}

inductive Turns (d : Dispenser) : Dispenser → Prop where
  | taker {id : Nat} {d' : Dispenser} (step : d.step? id = some d') : Turns d d'
  | signal {d' : Dispenser} (step : d.signal? = some d') : Turns d d'
  | signalAll {d' : Dispenser} (step : d.signalAll? = some d') : Turns d d'

namespace Turns

theorem sameTakers (h : d.Turns d') : d.SameTakers d' := by
  cases h with
  | taker step => exact .step? step
  | signal step => exact .signal? step
  | signalAll step => exact .signalAll? step

theorem accounted {out : List String} (h : d.Turns d') (hacc : d.Accounted out) :
    d'.Accounted out := by
  cases h with
  | taker step => exact hacc.step? step
  | signal step => exact hacc.signal? step
  | signalAll step => exact hacc.signalAll? step

theorem isShutDown (h : d.Turns d') : d'.queue.isShutDown = d.queue.isShutDown := by
  cases h with
  | taker step => exact isShutDown_step? step
  | signal step => exact congrArg Queue.isShutDown (Accounted.queue_signal? step)
  | signalAll step => exact congrArg Queue.isShutDown (Accounted.queue_signalAll? step)

theorem wants (h : d.Turns d') (ho : d.Orderly) (hwants : d.Wants key) : d'.Wants key := by
  cases h with
  | taker step => exact hwants.step? ho step
  | signal step => exact hwants.signal? ho step
  | signalAll step => exact hwants.signalAll? ho step

end Turns

end Dispenser

theorem WorkQueue.dispenserWants_conclude {w : WorkQueue} {key : String}
    (h : w.dispenser.Wants key) (j : String) (result : Except Failure Unit) :
    (w.conclude j result).dispenser.Wants key := by
  obtain ⟨metrics, ⟨-, hw⟩ | ⟨-, hw⟩⟩ := w.conclude_cases j result <;> rw [hw] <;> exact h

namespace Controller

variable {s s' : Controller} {m : Move} {i : Nat} {p : Place} {root : Root} {key : String}
  {n : Notification .submarine}

inductive MoveSteps (s : Controller) : Move → Controller → Prop where
  | watches {i : Nat} {watching : Watchers} (step : s.watching.step? i = some watching) :
      MoveSteps s (.act (.watch i)) { s with watching }
  | connects {i : Nat} {watching : Watchers} (opened : s.watching.open? i = some watching) :
      MoveSteps s (.connect i) { s with watching }
  | works {i : Nat} {s' : Controller} (step : s.WorkerSteps i s') :
      MoveSteps s (.act (.worker i)) s'
  | turns {m : Move} {d : Dispenser} (step : s.work.dispenser.Turns d) :
      MoveSteps s m (s.withWork (s.work.follow d))
  | fires {work : WorkQueue} (fired : s.work.fire? = some work) :
      MoveSteps s (.act .fire) (s.withWork work)
  | hires (count : Nat) (phase : RunPhase) :
      MoveSteps s (.act .proceed) { s.hireMany count with phase }
  | leaves (why : Departure) : MoveSteps s (.act .proceed) (s.leave why)
  | elsewhere {m : Move} {s' : Controller}
      (watchers : s'.watching.watchers = s.watching.watchers)
      (roots : s'.world.roots = s.world.roots)
      (dispenser : s'.work.dispenser = s.work.dispenser) (workers : s'.workers = s.workers) :
      MoveSteps s m s'

theorem steps_of_proceed? (h : s.proceed? = some s') : s.MoveSteps (.act .proceed) s' := by
  unfold proceed? at h
  split at h
  · split at h
    · obtain rfl := Option.some.inj h
      exact .elsewhere rfl rfl rfl rfl
    · split at h
      · obtain rfl := Option.some.inj h
        exact .hires s.workerCount .running
      · contradiction
  · split at h
    · obtain rfl := Option.some.inj h
      exact .leaves .shutdown
    · obtain ⟨⟨k, how⟩, -, rfl⟩ := Option.map_eq_some_iff.1 h
      exact .leaves (.loopEnded k how)
  · split at h
    · obtain rfl := Option.some.inj h
      exact .elsewhere rfl rfl rfl rfl
    · contradiction
  · contradiction

theorem steps_of_move? (h : s.move? m = some s') : s.MoveSteps m s' := by
  cases m with
  | act a =>
    cases a with
    | watch j =>
      change (if s.hasLeft then none else _) = some s' at h
      split at h
      · contradiction
      · obtain ⟨watching, hstep, rfl⟩ := Option.map_eq_some_iff.1 h
        exact .watches hstep
    | worker j => exact .works (steps_of_stepWorker? h)
    | taker id =>
      obtain ⟨d, hd, rfl⟩ := Option.map_eq_some_iff.1 h
      exact .turns (.taker hd)
    | signal =>
      obtain ⟨d, hd, rfl⟩ := Option.map_eq_some_iff.1 h
      exact .turns (.signal hd)
    | signalAll =>
      obtain ⟨d, hd, rfl⟩ := Option.map_eq_some_iff.1 h
      exact .turns (.signalAll hd)
    | fire =>
      obtain ⟨work, hwork, rfl⟩ := Option.map_eq_some_iff.1 h
      exact .fires hwork
    | proceed => exact steps_of_proceed? h
  | connect j =>
    obtain ⟨watching, hopened, rfl⟩ := Option.map_eq_some_iff.1 h
    exact .connects hopened
  | operate | crash | setClock | wait | requestShutdown =>
    obtain rfl := Option.some.inj h
    exact .elsewhere rfl rfl rfl rfl

/-- All keys that are held are accounted for, and behind every request a worker waits. -/
structure Staffed (s : Controller) : Prop where
  accounted : s.work.dispenser.Accounted (s.workers.filterMap Worker.key?)
  manned : ∀ id ∈ s.work.dispenser.ids, ∃ i : Nat, s.workers[i]? = some (.asking id)

theorem manned_set {ids ids' : List Nat} {w w' : Worker}
    (h : ∀ id ∈ ids, ∃ j : Nat, s.workers[j]? = some (.asking id)) (hw : s.workers[i]? = some w)
    (hids : ∀ id ∈ ids', id ∈ ids ∧ w ≠ .asking id ∨ w' = .asking id) :
    ∀ id ∈ ids', ∃ j : Nat, (s.workers.set i w')[j]? = some (.asking id) := by
  intro id hid
  rcases hids id hid with ⟨hold, hne⟩ | rfl
  · obtain ⟨j, hj⟩ := h id hold
    have hij : i ≠ j := by
      rintro rfl
      exact hne (Option.some.inj (hw.symm.trans hj))
    exact ⟨j, (List.getElem?_set_ne hij).trans hj⟩
  · exact ⟨i, getElem?_set_self_of_some hw _⟩

theorem WorkerSteps.manned (h : s.WorkerSteps i s')
    (hmanned : ∀ id ∈ s.work.dispenser.ids, ∃ j : Nat, s.workers[j]? = some (.asking id)) :
    ∀ id ∈ s'.work.dispenser.ids, ∃ j : Nat, s'.workers[j]? = some (.asking id) := by
  have habandon (taker : Nat) : ∀ id ∈ (s.work.dispenser.abandon taker).ids,
      id ∈ s.work.dispenser.ids ∧ Worker.asking taker ≠ .asking id := by
    intro id hid
    refine ⟨Dispenser.ids_abandon_subset _ taker hid, fun he ↦ ?_⟩
    obtain rfl := Worker.asking.inj he
    exact Dispenser.not_mem_ids_abandon _ taker hid
  cases h with
  | @takes taker key worker stage =>
    exact manned_set hmanned worker fun id hid ↦ .inl (habandon taker id hid)
  | @leaves taker worker stage =>
    exact manned_set hmanned worker fun id hid ↦ .inl (habandon taker id hid)
  | asks worker => exact manned_set hmanned worker fun id hid ↦ .inl ⟨hid, by simp⟩
  | @ends key worker =>
    have hsame := WorkQueue.sameTakers_conclude s.work key (.ok ())
    exact manned_set hmanned worker fun id hid ↦ .inl ⟨hsame.ids ▸ hid, by simp⟩
  | @fails key f worker =>
    have hsame := WorkQueue.sameTakers_conclude s.work key (.error f)
    exact manned_set hmanned worker fun id hid ↦ .inl ⟨hsame.ids ▸ hid, by simp⟩
  | @releases key worker =>
    refine manned_set hmanned worker fun id hid ↦ ?_
    have hids : (s.work.done key).takeLater.2.dispenser.ids =
        s.work.dispenser.ids ++ [(s.work.done key).takeLater.1] :=
      Dispenser.ids_ask (s.work.done key).dispenser
    change id ∈ (s.work.done key).takeLater.2.dispenser.ids at hid
    rw [hids] at hid
    rcases List.mem_append.1 hid with hold | hnew
    · exact .inl ⟨hold, by simp⟩
    · obtain rfl := List.mem_singleton.1 hnew
      exact .inr rfl

namespace Staffed

theorem hire (h : s.Staffed) : s.hire.Staffed where
  accounted := by
    have hsame : s.hire.workers.filterMap Worker.key? = s.workers.filterMap Worker.key? := by
      simp [Controller.hire, Worker.key?]
    rw [hsame]
    exact h.accounted.ask
  manned id hid := by
    change id ∈ s.work.dispenser.ask.2.ids at hid
    change ∃ i : Nat, (s.workers ++ [.asking s.work.dispenser.nextId])[i]? = _
    rw [Dispenser.ids_ask] at hid
    rcases List.mem_append.1 hid with hold | hnew
    · obtain ⟨i, hi⟩ := h.manned id hold
      exact ⟨i, (List.getElem?_append_left (List.getElem?_eq_some_iff.1 hi).1).trans hi⟩
    · obtain rfl := List.mem_singleton.1 hnew
      exact ⟨s.workers.length, by simp⟩

theorem hireMany {count : Nat} (h : s.Staffed) : (s.hireMany count).Staffed := by
  induction count generalizing s with
  | zero => exact h
  | succ count ih => exact ih h.hire

theorem move (h : s.Staffed) (hmove : s.move? m = some s') : s'.Staffed := by
  cases steps_of_move? hmove with
  | watches step =>
    obtain ⟨_, _, _, key?, -, -, rfl⟩ := Watchers.step?_eq_some step
    cases key? with
    | none => exact ⟨h.accounted, h.manned⟩
    | some key => exact ⟨h.accounted.add key, h.manned⟩
  | connects opened =>
    obtain ⟨_, _, -, -, rfl⟩ := Watchers.open?_eq_some opened
    exact ⟨h.accounted, h.manned⟩
  | works step => exact ⟨step.accounted h.accounted, step.manned h.manned⟩
  | turns step =>
    refine ⟨step.accounted h.accounted, fun id hid ↦ h.manned id ?_⟩
    exact step.sameTakers.ids ▸ hid
  | @fires work fired =>
    refine ⟨WorkQueue.accounted_fire? h.accounted fired, fun id hid ↦ h.manned id ?_⟩
    obtain ⟨t, rest, -, rfl⟩ := WorkQueue.fire?_eq_some fired
    exact hid
  | hires count phase => exact ⟨h.hireMany.accounted, h.hireMany.manned⟩
  | leaves why => exact ⟨h.accounted.shutDown, h.manned⟩
  | elsewhere _ _ dispenser workers =>
    constructor
    · rw [dispenser, workers]
      exact h.accounted
    · rw [dispenser, workers]
      exact h.manned

end Staffed

theorem queue_hireMany (s : Controller) (count : Nat) :
    (s.hireMany count).work.queue = s.work.queue := by
  induction count generalizing s with
  | zero => rfl
  | succ count ih => exact ih s.hire

theorem world_hireMany (s : Controller) (count : Nat) :
    (s.hireMany count).world = s.world := by
  induction count generalizing s with
  | zero => rfl
  | succ count ih => exact ih s.hire

theorem isOpen_of_move? (hmove : s.move? m = some s')
    (hopen : s'.work.queue.isShutDown = false) : s.work.queue.isShutDown = false := by
  cases steps_of_move? hmove with
  | watches step =>
    obtain ⟨_, _, _, key?, -, -, rfl⟩ := Watchers.step?_eq_some step
    cases key? with
    | none => exact hopen
    | some key => exact (Queue.isShutDown_add s.work.queue key).symm.trans hopen
  | connects opened =>
    obtain ⟨_, _, -, -, rfl⟩ := Watchers.open?_eq_some opened
    exact hopen
  | works step =>
    cases step with
    | takes | leaves | asks | releases => exact hopen
    | @ends key => exact (WorkQueue.isShutDown_conclude s.work key _).symm.trans hopen
    | @fails key f => exact (WorkQueue.isShutDown_conclude s.work key _).symm.trans hopen
  | turns step => exact step.isShutDown.symm.trans hopen
  | fires fired => exact (WorkQueue.isShutDown_fire? fired).symm.trans hopen
  | hires count phase => exact (congrArg Queue.isShutDown (s.queue_hireMany count)).symm.trans hopen
  | leaves why => contradiction
  | elsewhere _ _ dispenser =>
    rw [WorkQueue.queue, ← dispenser]
    exact hopen

/-- Somebody is going to look at what is cached under the key: the notification still waits to be
routed, or the key is wanted, or a pass over it has yet to read the cache. -/
inductive Noticed (s : Controller) (n : Notification .submarine) (key : String) : Prop where
  | pending {i : Nat} {l : Loop .submarine} (watcher : s.watching.watchers[i]? = some (.roots l))
      (waits : n ∈ l.pending)
  | wanted (h : s.work.dispenser.Wants key)
  | begun {i : Nat} (h : s.workers[i]? = some (.passing key (reconcile key)))

def ReadsCache (s : Controller) (key : String) : Move → Prop
  | .act (.worker i) => s.workers[i]? = some (.passing key (reconcile key))
  | _ => False

theorem Noticed.frame (h : s.Noticed n key)
    (hwatchers : s'.watching.watchers = s.watching.watchers)
    (hwants : s.work.dispenser.Wants key → s'.Noticed n key)
    (hbegun : ∀ {i : Nat}, s.workers[i]? = some (.passing key (reconcile key)) →
      s'.workers[i]? = some (.passing key (reconcile key))) : s'.Noticed n key := by
  cases h with
  | pending watcher waits => exact .pending (hwatchers ▸ watcher) waits
  | wanted h => exact hwants h
  | begun h => exact .begun (hbegun h)

namespace Noticed

theorem watches {watching : Watchers} (h : s.Noticed n key)
    (hopen : s.work.queue.isShutDown = false) (hn : Router.keyOfRoot? n = some key)
    (hstep : s.watching.step? i = some watching) : Noticed { s with watching } n key := by
  obtain ⟨w, w', roots, key?, hw, hsteps, rfl⟩ := Watchers.step?_eq_some hstep
  cases h with
  | @pending j l watcher waits =>
    by_cases hij : i = j
    · subst hij
      obtain rfl := Option.some.inj (watcher.symm.trans hw)
      cases hsteps with
      | @routeRoot _ first rest pending =>
        rw [pending] at waits
        rcases List.mem_cons.1 waits with rfl | waits
        · -- Routing the notification adds the key.
          refine .wanted ?_
          dsimp only
          rw [hn]
          exact Dispenser.wants_add hopen key
        · exact .pending (getElem?_set_self_of_some hw _) waits
      | readRoot pending =>
        rw [pending] at waits
        contradiction
    · exact .pending ((List.getElem?_set_ne hij).trans watcher) waits
  | wanted h =>
    refine .wanted ?_
    cases key? with
    | none => exact h
    | some j => exact h.add j
  | begun h => exact .begun h

/-- A worker that is not about to read the cache loses no key. -/
theorem works (h : s.Noticed n p.key) (hp : p.IsKeyed) (ho : s.work.dispenser.Orderly)
    (hunread : ¬ s.ReadsCache p.key (.act (.worker i))) (hstep : s.WorkerSteps i s') :
    s'.Noticed n p.key := by
  have hothers {w w' : Worker} {j : Nat} (hw : s.workers[i]? = some w)
      (hne : w ≠ .passing p.key (reconcile p.key))
      (hj : s.workers[j]? = some (.passing p.key (reconcile p.key))) :
      (s.workers.set i w')[j]? = some (.passing p.key (reconcile p.key)) := by
    have hij : i ≠ j := by
      rintro rfl
      exact hne (Option.some.inj (hw.symm.trans hj))
    exact (List.getElem?_set_ne hij).trans hj
  cases hstep with
  | @takes taker key worker stage =>
    refine h.frame rfl (fun hwants ↦ ?_) fun hj ↦ hothers worker (by simp) hj
    rcases hwants.abandon ho stage with hleft | hkey
    · exact .wanted hleft
    · obtain rfl : key = p.key := Option.some.inj hkey
      exact .begun (getElem?_set_self_of_some worker _)
  | @leaves taker worker stage =>
    refine h.frame rfl (fun hwants ↦ ?_) fun hj ↦ hothers worker (by simp) hj
    rcases hwants.abandon ho stage with hleft | hkey
    · exact .wanted hleft
    · contradiction
  | asks worker =>
    refine h.frame rfl (fun hwants ↦ .wanted hwants) fun hj ↦ hothers worker ?_ hj
    intro hbegun
    rw [hbegun] at worker
    exact hunread worker
  | @ends key worker =>
    refine h.frame rfl (fun hwants ↦ .wanted ?_) fun hj ↦ hothers worker ?_ hj
    · exact WorkQueue.dispenserWants_conclude hwants key _
    · intro hbegun
      exact reconcile_ne_done hp (Worker.passing.inj hbegun).2.symm
  | @fails key f worker =>
    refine h.frame rfl (fun hwants ↦ .wanted ?_) fun hj ↦ hothers worker ?_ hj
    · exact WorkQueue.dispenserWants_conclude hwants key _
    · intro hbegun
      exact reconcile_ne_fail hp f (Worker.passing.inj hbegun).2.symm
  | @releases key worker =>
    refine h.frame rfl (fun hwants ↦ .wanted ?_) fun hj ↦ hothers worker (by simp) hj
    exact (hwants.done key).ask

theorem hireMany {count : Nat} (h : s.Noticed n key) : (s.hireMany count).Noticed n key := by
  induction count generalizing s with
  | zero => exact h
  | succ count ih =>
    refine ih (h.frame rfl (fun hwants ↦ .wanted hwants.ask) fun hi ↦ ?_)
    exact (List.getElem?_append_left (List.getElem?_eq_some_iff.1 hi).1).trans hi

theorem connects {watching : Watchers} (h : s.Noticed n key)
    (hopened : s.watching.open? i = some watching) : Noticed { s with watching } n key := by
  obtain ⟨w, w', hw, hopen, rfl⟩ := Watchers.open?_eq_some hopened
  cases h with
  | @pending j l watcher waits =>
    by_cases hij : i = j
    · subst hij
      obtain rfl := Option.some.inj (watcher.symm.trans hw)
      obtain ⟨l', hl, rfl⟩ := Option.map_eq_some_iff.1 hopen
      obtain ⟨-, rfl⟩ := Loop.open?_eq_some hl
      exact .pending (getElem?_set_self_of_some hw _) waits
    · exact .pending ((List.getElem?_set_ne hij).trans watcher) waits
  | wanted h => exact .wanted h
  | begun h => exact .begun h

theorem move (h : s.Noticed n p.key) (hp : p.IsKeyed) (hn : Router.keyOfRoot? n = some p.key)
    (hs : s.Staffed) (hopen : s.work.queue.isShutDown = false)
    (hunread : ¬ s.ReadsCache p.key m) (hmove : s.move? m = some s') : s'.Noticed n p.key := by
  have ho := hs.accounted.toOrderly
  cases steps_of_move? hmove with
  | watches step => exact h.watches hopen hn step
  | connects opened => exact h.connects opened
  | works step => exact h.works hp ho hunread step
  | turns step => exact h.frame rfl (fun hwants ↦ .wanted (step.wants ho hwants)) id
  | @fires work fired =>
    refine h.frame rfl (fun hwants ↦ .wanted ?_) id
    obtain ⟨t, rest, -, rfl⟩ := WorkQueue.fire?_eq_some fired
    exact hwants.add t.key
  | hires count phase => exact h.hireMany.frame rfl (fun hwants ↦ .wanted hwants) id
  | leaves why => exact h.frame rfl (fun hwants ↦ .wanted hwants) id
  | elsewhere watchers _ dispenser workers =>
    refine h.frame watchers (fun hwants ↦ .wanted ?_) fun hi ↦ ?_
    · rw [dispenser]
      exact hwants
    · rw [workers]
      exact hi

end Noticed

theorem roots_of_works (h : s.WorkerSteps i s') : s'.world.roots = s.world.roots := by
  cases h with
  | takes | leaves | ends | fails | releases => rfl
  | asks => exact s.world.roots_step _

/-- A new version that comes into the cache is told by the loop of the installations. -/
theorem noticed_of_cached (hns : root.metadata.ns = some p.ns)
    (hname : root.metadata.name = some p.name)
    (hcached : s'.world.roots.get? p.ns p.name = some root)
    (hmoved : ∀ old, s.world.roots.get? p.ns p.name = some old → Router.versionMoved old root)
    (hmove : s.move? m = some s') :
    s'.Noticed (s.world.roots.putNotification root) p.key ∧
      Router.keyOfRoot? (s.world.roots.putNotification root) = some p.key := by
  have hkeys : root.cacheKey = p.key ∧ Router.rootKey root = p.key := by
    rw [Object.cacheKey, Router.rootKey, hns, hname]
    exact ⟨rfl, rfl⟩
  have hrouted : Router.keyOfRoot? (s.world.roots.putNotification root) = some p.key := by
    rw [Cache.keyOfRoot?_putNotification (by rw [hkeys.1]; exact hmoved), hkeys.2]
  refine ⟨?_, hrouted⟩
  have hnew (hsame : s'.world.roots = s.world.roots) : s'.Noticed
      (s.world.roots.putNotification root) p.key := by
    rw [hsame] at hcached
    have hself := hmoved root hcached
    simp [Router.versionMoved] at hself
  cases steps_of_move? hmove with
  | watches step =>
    obtain ⟨w, w', roots, key?, hw, hsteps, rfl⟩ := Watchers.step?_eq_some step
    cases hsteps with
    | routeRoot | routeChild | readChild => exact hnew rfl
    | @readRoot l l' event? pending read =>
      cases event? with
      | none => exact hnew rfl
      | some e =>
        have htold := (Cache.told_of_cached hcached hmoved).2
        exact .pending (getElem?_set_self_of_some hw _) htold
  | connects opened =>
    obtain ⟨_, _, -, -, rfl⟩ := Watchers.open?_eq_some opened
    exact hnew rfl
  | works step => exact hnew (roots_of_works step)
  | turns | fires | leaves => exact hnew rfl
  | hires count phase => exact hnew (congrArg World.roots (s.world_hireMany count))
  | elsewhere _ roots => exact hnew roots

def run? (s : Controller) : List Move → Option Controller
  | [] => some s
  | m :: rest => (s.move? m).bind (·.run? rest)

def Unread (key : String) (s : Controller) : List Move → Prop
  | [] => True
  | m :: rest => ¬ s.ReadsCache key m ∧ ∀ t, s.move? m = some t → t.Unread key rest

def HasYetToRead (s : Controller) (key : String) : Prop :=
  ∃ i : Nat, s.workers[i]? = some (.passing key (reconcile key)) ∨
    ∃ id, s.workers[i]? = some (.asking id) ∧ s.work.dispenser.handed? id = some key

section Run

variable {moves : List Move}

theorem Staffed.run (h : s.Staffed) (hrun : s.run? moves = some s') : s'.Staffed := by
  induction moves generalizing s with
  | nil => exact Option.some.inj hrun ▸ h
  | cons m rest ih =>
    obtain ⟨t, ht, hrest⟩ := Option.bind_eq_some_iff.1 hrun
    exact ih (h.move ht) hrest

theorem isOpen_of_run? (hrun : s.run? moves = some s')
    (hopen : s'.work.queue.isShutDown = false) : s.work.queue.isShutDown = false := by
  induction moves generalizing s with
  | nil => exact Option.some.inj hrun ▸ hopen
  | cons m rest ih =>
    obtain ⟨t, ht, hrest⟩ := Option.bind_eq_some_iff.1 hrun
    exact isOpen_of_move? ht (ih hrest)

theorem Noticed.run (h : s.Noticed n p.key) (hp : p.IsKeyed)
    (hn : Router.keyOfRoot? n = some p.key) (hs : s.Staffed)
    (hopen : s'.work.queue.isShutDown = false) (hunread : s.Unread p.key moves)
    (hrun : s.run? moves = some s') : s'.Noticed n p.key := by
  induction moves generalizing s with
  | nil => exact Option.some.inj hrun ▸ h
  | cons m rest ih =>
    obtain ⟨t, ht, hrest⟩ := Option.bind_eq_some_iff.1 hrun
    have hwas := isOpen_of_move? ht (isOpen_of_run? hrest hopen)
    exact ih (h.move hp hn hs hwas hunread.1 ht) (hs.move ht) (hunread.2 t ht) hrest

end Run

theorem staffed_new (settings : Settings) (world : World) (feed : (k : Kind) → Feed k) :
    (new settings world feed).Staffed :=
  ⟨.empty, fun id hid ↦ by contradiction⟩

theorem Noticed.ready_or_held (h : s.Noticed n key) (hs : s.Staffed)
    (hopen : s.work.queue.isShutDown = false) :
    (∃ l, Watcher.roots l ∈ s.watching.watchers ∧ n ∈ l.pending) ∨
      key ∈ s.work.queue.ready ∨
        key ∈ s.work.queue.held ∧ (key ∈ s.work.queue.dirty ∨ s.HasYetToRead key) := by
  have hheld {key : String} (h : key ∈ s.work.dispenser.handed ++ s.workers.filterMap Worker.key?) :
      key ∈ s.work.queue.held := (hs.accounted.mem_held key).2 h
  cases h with
  | @pending i l watcher waits => exact .inl ⟨l, List.mem_of_getElem? watcher, waits⟩
  | wanted h =>
    rcases h with hdirty | hhanded
    · refine .inr ((hs.accounted.coherent.ready_or_held hopen key hdirty).imp_right fun hheld ↦ ?_)
      exact ⟨hheld, .inl hdirty⟩
    · obtain ⟨t, ht, hkey⟩ := List.mem_filterMap.1 hhanded
      obtain ⟨i, hi⟩ := hs.manned t.id (List.mem_map_of_mem ht)
      refine .inr (.inr ⟨hheld (List.mem_append_left _ hhanded), .inr ⟨i, .inr ⟨t.id, hi, ?_⟩⟩⟩)
      rw [Dispenser.handed?, hs.accounted.toOrderly.stage?_of_mem ht]
      exact hkey
  | @begun i h =>
    have hmem : key ∈ s.workers.filterMap Worker.key? :=
      List.mem_filterMap.2 ⟨_, List.mem_of_getElem? h, rfl⟩
    exact .inr (.inr ⟨hheld (List.mem_append_right _ hmem), .inr ⟨i, .inl h⟩⟩)

/-- As long as the queue is open: from when an installation comes into the cache, or replaces one of
another version, until a pass over its key reads the cache, the notification of it waits to be
routed, or the key is ready, or it is held and is marked or has yet to be read for. -/
theorem no_version_goes_unseen {settings : Settings} {world : World}
    {feed : (k : Kind) → Feed k} {before after : List Move} {s₁ s₂ s₃ : Controller} {p : Place}
    {root : Root} (hbefore : (new settings world feed).run? before = some s₁)
    (hmove : s₁.move? m = some s₂) (hp : p.IsKeyed) (hns : root.metadata.ns = some p.ns)
    (hname : root.metadata.name = some p.name)
    (hcached : s₂.world.roots.get? p.ns p.name = some root)
    (hmoved : ∀ old, s₁.world.roots.get? p.ns p.name = some old → Router.versionMoved old root)
    (hafter : s₂.run? after = some s₃) (hunread : s₂.Unread p.key after)
    (hopen : s₃.work.queue.isShutDown = false) :
    (∃ l, Watcher.roots l ∈ s₃.watching.watchers ∧
        s₁.world.roots.putNotification root ∈ l.pending) ∨
      p.key ∈ s₃.work.queue.ready ∨
        p.key ∈ s₃.work.queue.held ∧ (p.key ∈ s₃.work.queue.dirty ∨ s₃.HasYetToRead p.key) := by
  have hstaffed := ((staffed_new settings world feed).run hbefore).move hmove
  obtain ⟨hnoticed, hrouted⟩ := noticed_of_cached hns hname hcached hmoved hmove
  have hstill := hnoticed.run hp hrouted hstaffed hopen hunread hafter
  exact hstill.ready_or_held (hstaffed.run hafter) hopen

def sampleFeed : (k : Kind) → Feed k
  | .submarine =>
    ⟨[.event .relistStarted, .event (.listed Root.sample), .event .relistDone], .silent⟩
  | _ => ⟨[], .silent⟩

def sampleController : Controller := .new {} (.new .empty ⟨0, 0⟩) sampleFeed

/-- The sample root is cached, its key is routed, and a worker is handed it. -/
theorem no_version_goes_unseen_sample :
    ∃ s₁ s₂ s₃, sampleController.run? [.act (.watch 0)] = some s₁ ∧
      s₁.move? (.act (.watch 0)) = some s₂ ∧
      s₂.world.roots.get? "default" "demo" = some Root.sample ∧
      s₂.run? [.act (.watch 0), .act (.watch 0), .act .proceed, .act (.taker 0)] = some s₃ ∧
      s₃.work.queue.ready = [] ∧ s₃.work.queue.held = ["default/demo"] ∧
      ((∃ l, Watcher.roots l ∈ s₃.watching.watchers ∧
          s₁.world.roots.putNotification Root.sample ∈ l.pending) ∨
        "default/demo" ∈ s₃.work.queue.ready ∨ "default/demo" ∈ s₃.work.queue.held ∧
          ("default/demo" ∈ s₃.work.queue.dirty ∨ s₃.HasYetToRead "default/demo")) := by
  obtain ⟨s₁, h₁⟩ : ∃ s₁, sampleController.run? [.act (.watch 0)] = some s₁ := ⟨_, rfl⟩
  obtain ⟨s₂, h₂, hnothing, hcached⟩ : ∃ s₂, s₁.move? (.act (.watch 0)) = some s₂ ∧
      s₁.world.roots.get? "default" "demo" = none ∧
      s₂.world.roots.get? "default" "demo" = some Root.sample := by
    cases h₁
    exact ⟨_, rfl, rfl, rfl⟩
  obtain ⟨s₃, h₃, hready, hheld, hopen⟩ : ∃ s₃, s₂.run? [.act (.watch 0), .act (.watch 0),
      .act .proceed, .act (.taker 0)] = some s₃ ∧ s₃.work.queue.ready = [] ∧
      s₃.work.queue.held = ["default/demo"] ∧ s₃.work.queue.isShutDown = false := by
    cases h₁
    cases h₂
    exact ⟨_, rfl, rfl, rfl, rfl⟩
  have hmoved : ∀ old, s₁.world.roots.get? "default" "demo" = some old →
      Router.versionMoved old Root.sample := by
    intro old hold
    rw [hnothing] at hold
    contradiction
  have hunread : s₂.Unread "default/demo" [.act (.watch 0), .act (.watch 0), .act .proceed,
      .act (.taker 0)] :=
    ⟨not_false, fun _ _ ↦ ⟨not_false, fun _ _ ↦ ⟨not_false, fun _ _ ↦ ⟨not_false, fun _ _ ↦
      trivial⟩⟩⟩⟩
  exact ⟨s₁, s₂, s₃, h₁, h₂, hcached, h₃, hready, hheld, no_version_goes_unseen h₁ h₂
    Root.sample_named.isKeyed rfl rfl hcached hmoved h₃ hunread hopen⟩

end Controller

end Submarine
