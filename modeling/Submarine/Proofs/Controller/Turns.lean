import Submarine.Proofs.Controller.Noticing
import Submarine.Proofs.Queue.Waking

namespace Submarine

open Dispenser (Vigilant)

variable {i : Nat}

def Watcher.deliver (w : Watcher) (incident : (k : Kind) → Incident k) : Watcher :=
  match w with
  | .roots l =>
    .roots { l with feed := { l.feed with prepared := l.feed.prepared ++ [incident .submarine] } }
  | .children k l cache =>
    .children k { l with feed := { l.feed with prepared := l.feed.prepared ++ [incident k] } } cache

def Pass.resume {α : Type} {r : Request} (next : r.Answer → Pass α) :
    Except (Option String) r.Answer → Pass α
  | .ok answer => next answer
  | .error text => .fail (.ofCrash text)

def Worker.taker? : Worker → Option Nat
  | .asking taker => some taker
  | .passing _ _ | .releasing _ | .exited => none

namespace Controller

variable {s s' : Controller} {work : WorkQueue}

/-- What can happen next if the cluster may be any. -/
inductive Turn where
  | move (m : Move)
  -- The request of a worker is answered, or breaks off with that text.
  | answer (worker : Nat) (answer : (r : Request) → Except (Option String) r.Answer)
  | deliver (loop : Nat) (incident : (k : Kind) → Incident k)
  -- The controller goes on before it hears of a shutdown.
  | overlook

def overlook? (s : Controller) : Option Controller :=
  match s.phase with
  | .syncing =>
    if s.world.roots.synced then some { s.hireMany s.workerCount with phase := .running } else none
  | .running => s.endedLoop?.map fun (k, how) ↦ s.leave (.loopEnded k how)
  | .leaving _ | .left _ => none

def answer? (s : Controller) (i : Nat)
    (answer : (r : Request) → Except (Option String) r.Answer) : Option Controller :=
  match s.workers[i]? with
  | some (.passing key (.ask r next)) =>
    some (s.withWorker i (.passing key (.resume next (answer r))))
  | _ => none

def deliver? (s : Controller) (i : Nat) (incident : (k : Kind) → Incident k) :
    Option Controller :=
  s.watching.watchers[i]?.map fun w ↦ { s with
    watching := { s.watching with watchers := s.watching.watchers.set i (w.deliver incident) } }

def turn? (s : Controller) : Turn → Option Controller
  | .move m => s.move? m
  | .answer i answer => s.answer? i answer
  | .deliver i incident => s.deliver? i incident
  | .overlook => s.overlook?

def runs? (s : Controller) : List Turn → Option Controller
  | [] => some s
  | t :: rest => (s.turn? t).bind (·.runs? rest)

inductive Proceeds (s : Controller) : Controller → Prop where
  | giveUp (phase : s.phase = .syncing) (requested : s.isShutdownRequested) :
      Proceeds s { s with phase := .left .shutdown }
  | hires (phase : s.phase = .syncing) (synced : s.world.roots.synced) :
      Proceeds s { s.hireMany s.workerCount with phase := .running }
  | stops (phase : s.phase = .running) (requested : s.isShutdownRequested) :
      Proceeds s (s.leave .shutdown)
  | loses {k : Kind} {how : LoopEnd} (phase : s.phase = .running)
      (ended : s.endedLoop? = some (k, how)) : Proceeds s (s.leave (.loopEnded k how))
  | leaves {why : Departure} (phase : s.phase = .leaving why)
      (exited : ∀ w ∈ s.workers, w = .exited) : Proceeds s { s with phase := .left why }

theorem proceeds_of_proceed? (h : s.proceed? = some s') : s.Proceeds s' := by
  unfold proceed? at h
  split at h
  · next hphase =>
    split at h
    · next hrequested =>
      obtain rfl := Option.some.inj h
      exact .giveUp hphase hrequested
    · split at h
      · next hsynced =>
        obtain rfl := Option.some.inj h
        exact .hires hphase hsynced
      · contradiction
  · next hphase =>
    split at h
    · next hrequested =>
      obtain rfl := Option.some.inj h
      exact .stops hphase hrequested
    · obtain ⟨⟨k, how⟩, hended, rfl⟩ := Option.map_eq_some_iff.1 h
      exact .loses hphase hended
  · next why hphase =>
    split at h
    · next hexited =>
      obtain rfl := Option.some.inj h
      refine .leaves hphase fun w hw ↦ ?_
      have hwexited := List.all_eq_true.1 hexited w hw
      cases w with
      | exited => rfl
      | asking | passing | releasing => contradiction
    · contradiction
  · contradiction

theorem proceeds_of_overlook? (h : s.overlook? = some s') : s.Proceeds s' := by
  unfold overlook? at h
  split at h
  · next hphase =>
    obtain ⟨hsynced, h⟩ := Option.ite_none_right_eq_some.1 h
    obtain rfl := Option.some.inj h
    exact .hires hphase hsynced
  · next hphase =>
    obtain ⟨⟨k, how⟩, hended, rfl⟩ := Option.map_eq_some_iff.1 h
    exact .loses hphase hended
  · contradiction
  · contradiction

inductive TurnSteps (s : Controller) : Turn → Controller → Prop where
  | watches {i : Nat} {watching : Watchers} (step : s.watching.step? i = some watching) :
      TurnSteps s (.move (.act (.watch i))) { s with watching }
  | connects {i : Nat} {watching : Watchers} (opened : s.watching.open? i = some watching) :
      TurnSteps s (.move (.connect i)) { s with watching }
  | delivers {i : Nat} {w : Watcher} {incident : (k : Kind) → Incident k}
      (watcher : s.watching.watchers[i]? = some w) :
      TurnSteps s (.deliver i incident) { s with
        watching := { s.watching with
          watchers := s.watching.watchers.set i (w.deliver incident) } }
  | works {i : Nat} {s' : Controller} (step : s.WorkerSteps i s') :
      TurnSteps s (.move (.act (.worker i))) s'
  | answers {i : Nat} {key : String} {r : Request} {next : r.Answer → Pass Unit}
      {answer : (r : Request) → Except (Option String) r.Answer}
      (worker : s.workers[i]? = some (.passing key (.ask r next))) :
      TurnSteps s (.answer i answer)
        (s.withWorker i (.passing key (.resume next (answer r))))
  | takes {id : Nat} {d : Dispenser} (step : s.work.dispenser.step? id = some d) :
      TurnSteps s (.move (.act (.taker id))) (s.withWork (s.work.follow d))
  | signals {d : Dispenser} (step : s.work.dispenser.signal? = some d) :
      TurnSteps s (.move (.act .signal)) (s.withWork (s.work.follow d))
  | signalsAll {d : Dispenser} (step : s.work.dispenser.signalAll? = some d) :
      TurnSteps s (.move (.act .signalAll)) (s.withWork (s.work.follow d))
  | fires {work : WorkQueue} (fired : s.work.fire? = some work) :
      TurnSteps s (.move (.act .fire)) (s.withWork work)
  | proceeds {t : Turn} {s' : Controller} (step : s.Proceeds s')
      (turn : t = .move (.act .proceed) ∨ t = .overlook) : TurnSteps s t s'
  | changes {m : Move} {world : World} (roots : world.roots = s.world.roots)
      (outer : ∀ a, m ≠ .act a) : TurnSteps s (.move m) (s.withWorld world)
  | waits (span : Nat) :
      TurnSteps s (.move (.wait span)) (s.withWork { s.work with now := s.work.now + span })
  | requests : TurnSteps s (.move .requestShutdown) s.requestShutdown

theorem steps_of_turn? {t : Turn} (h : s.turn? t = some s') : s.TurnSteps t s' := by
  cases t with
  | move m =>
    cases m with
    | act a =>
      cases a with
      | watch j =>
        change (if s.hasLeft then none else _) = some s' at h
        split at h
        · contradiction
        · obtain ⟨watching, hstep, rfl⟩ := Option.map_eq_some_iff.1 h
          exact .watches hstep
      | worker j => exact .works (steps_of_stepWorker? h)
      | taker id =>
        obtain ⟨d, hd, rfl⟩ := Option.map_eq_some_iff.1 h
        exact .takes hd
      | signal =>
        obtain ⟨d, hd, rfl⟩ := Option.map_eq_some_iff.1 h
        exact .signals hd
      | signalAll =>
        obtain ⟨d, hd, rfl⟩ := Option.map_eq_some_iff.1 h
        exact .signalsAll hd
      | fire =>
        obtain ⟨work, hwork, rfl⟩ := Option.map_eq_some_iff.1 h
        exact .fires hwork
      | proceed => exact .proceeds (proceeds_of_proceed? h) (.inl rfl)
    | connect j =>
      obtain ⟨watching, hopened, rfl⟩ := Option.map_eq_some_iff.1 h
      exact .connects hopened
    | operate | crash | setClock =>
      obtain rfl := Option.some.inj h
      exact .changes rfl (by simp)
    | wait span =>
      obtain rfl := Option.some.inj h
      exact .waits span
    | requestShutdown =>
      obtain rfl := Option.some.inj h
      exact .requests
  | answer j answer =>
    change s.answer? j answer = some s' at h
    unfold answer? at h
    split at h
    · next hworker =>
      obtain rfl := Option.some.inj h
      exact .answers hworker
    · contradiction
  | deliver j incident =>
    obtain ⟨w, hw, rfl⟩ := Option.map_eq_some_iff.1 h
    exact .delivers hw
  | overlook => exact .proceeds (proceeds_of_overlook? h) (.inr rfl)

end Controller

/-- Every key that is held is held by one worker or was handed to one taker, behind every taker one
worker waits, and no wake-up is lost. -/
structure Dispenser.Serves (d : Dispenser) (workers : List Worker) : Prop where
  accounted : d.Accounted (workers.filterMap Worker.key?)
  waiting : d.ids.Perm (workers.filterMap Worker.taker?)
  vigilant : d.Vigilant

namespace Dispenser.Serves

variable {d d' : Dispenser} {workers : List Worker} {w w' : Worker}

theorem empty : Dispenser.empty.Serves [] := ⟨.empty, .nil, .empty⟩

theorem add (h : d.Serves workers) (key : String) : (d.add key).Serves workers :=
  ⟨h.accounted.add key, h.waiting, h.vigilant.add key⟩

theorem shutDown (h : d.Serves workers) : d.shutDown.Serves workers :=
  ⟨h.accounted.shutDown, h.waiting, h.vigilant.shutDown⟩

theorem step? {id : Nat} (h : d.Serves workers) (hd : d.step? id = some d') :
    d'.Serves workers where
  accounted := h.accounted.step? hd
  waiting := (SameTakers.step? hd).ids ▸ h.waiting
  vigilant := h.vigilant.step? h.accounted.toOrderly hd

theorem signal? (h : d.Serves workers) (hd : d.signal? = some d') : d'.Serves workers where
  accounted := h.accounted.signal? hd
  waiting := (SameTakers.signal? hd).ids ▸ h.waiting
  vigilant := h.vigilant.signal? hd

theorem signalAll? (h : d.Serves workers) (hd : d.signalAll? = some d') : d'.Serves workers where
  accounted := h.accounted.signalAll? hd
  waiting := (SameTakers.signalAll? hd).ids ▸ h.waiting
  vigilant := h.vigilant.signalAll? hd

theorem hire (h : d.Serves workers) : d.ask.2.Serves (workers ++ [.asking d.nextId]) where
  accounted := by
    have hsame : (workers ++ [Worker.asking d.nextId]).filterMap Worker.key? =
        workers.filterMap Worker.key? := by
      simp [Worker.key?]
    rw [hsame]
    exact h.accounted.ask
  waiting := by
    rw [ids_ask, List.filterMap_append]
    exact h.waiting.append_right [d.nextId]
  vigilant := h.vigilant.ask

/-- A worker that takes no key, gives none away and does not come to wait leaves all as it is. -/
theorem set (h : d.Serves workers) (hw : workers[i]? = some w) (hkey : w'.key? = w.key?)
    (htaker : w'.taker? = w.taker?) : d.Serves (workers.set i w') where
  accounted := by
    have hset := filterMap_set_perm (f := Worker.key?) hw w'
    rw [hkey] at hset
    exact h.accounted.perm ((List.perm_append_left_iff _).1 hset).symm
  waiting := by
    have hset := filterMap_set_perm (f := Worker.taker?) hw w'
    rw [htaker] at hset
    exact h.waiting.trans ((List.perm_append_left_iff _).1 hset).symm
  vigilant := h.vigilant

theorem abandon {taker : Nat} {key? : Option String} (h : d.Serves workers)
    (hw : workers[i]? = some (.asking taker)) (hs : d.stage? taker = some (.finished key?))
    (hkey : w'.key? = key?) (htaker : w'.taker? = none) :
    (d.abandon taker).Serves (workers.set i w') where
  accounted := by
    have hset := filterMap_set_perm (f := Worker.key?) hw w'
    rw [hkey] at hset
    exact (h.accounted.abandon hs).perm hset.symm
  waiting := by
    have hset := filterMap_set_perm (f := Worker.taker?) hw w'
    rw [htaker] at hset
    have hids : d.ids.Perm (taker :: (d.abandon taker).ids) := by
      have hleft : (d.abandon taker).ids = d.ids.erase taker := by
        refine .trans ?_ (h.accounted.ids_nodup.erase_eq_filter taker).symm
        rw [List.filter_map]
        refine congrArg (List.map Taker.id) (List.filter_congr fun t _ ↦ ?_)
        by_cases hid : t.id = taker <;> simp [hid]
      rw [hleft]
      exact List.perm_cons_erase (mem_ids_of_stage? hs)
    exact ((hids.symm.trans h.waiting).trans hset.symm).cons_inv
  vigilant := h.vigilant.abandon h.accounted.toOrderly hs (by simp [Stage.isLively])

end Dispenser.Serves

namespace Controller

variable {s s' : Controller} {t : Turn} {turns : List Turn}

abbrev Serves (s : Controller) : Prop := s.work.dispenser.Serves s.workers

theorem Serves.hireMany {count : Nat} (h : s.Serves) : (s.hireMany count).Serves := by
  induction count generalizing s with
  | zero => exact h
  | succ count ih => exact ih (s := s.hire) h.hire

theorem vigilant_conclude (h : s.work.dispenser.Vigilant) (key : String)
    (result : Except Failure Unit) : (s.work.conclude key result).dispenser.Vigilant := by
  obtain ⟨metrics, ⟨-, hw⟩ | ⟨-, hw⟩⟩ := s.work.conclude_cases key result <;> rw [hw] <;>
    exact h.withQueue rfl (.inl ⟨rfl, rfl⟩)

theorem Serves.concludes {key : String} {rest : Pass Unit} (h : s.Serves)
    (hw : s.workers[i]? = some (.passing key rest)) (result : Except Failure Unit) :
    ((s.withWork (s.work.conclude key result)).withWorker i (.releasing key)).Serves := by
  have hserves : (s.work.conclude key result).dispenser.Serves s.workers := by
    refine ⟨WorkQueue.accounted_conclude h.accounted key result, ?_,
      vigilant_conclude h.vigilant key result⟩
    exact (WorkQueue.sameTakers_conclude s.work key result).ids ▸ h.waiting
  exact hserves.set hw rfl rfl

theorem Serves.works (h : s.Serves) (hstep : s.WorkerSteps i s') : s'.Serves := by
  cases hstep with
  | takes worker stage => exact h.abandon worker stage rfl rfl
  | leaves worker stage => exact h.abandon worker stage rfl rfl
  | asks worker => exact h.set worker rfl rfl
  | ends worker => exact h.concludes worker (.ok ())
  | @fails key f worker => exact h.concludes worker (.error f)
  | @releases key worker =>
    refine ⟨(WorkerSteps.releases worker).accounted h.accounted, ?_, (h.vigilant.done key).ask⟩
    have hset := filterMap_set_perm (f := Worker.taker?) worker
      (.asking (s.work.done key).takeLater.1)
    have hids : (s.work.done key).takeLater.2.dispenser.ids =
        s.work.dispenser.ids ++ [(s.work.done key).takeLater.1] :=
      Dispenser.ids_ask (s.work.done key).dispenser
    refine (hids ▸ List.perm_append_singleton ..).trans ?_
    exact (h.waiting.cons _).trans hset.symm

theorem Serves.proceeds (h : s.Serves) (hstep : s.Proceeds s') : s'.Serves := by
  cases hstep with
  | giveUp | leaves => exact h
  | hires => exact h.hireMany
  | stops | loses => exact h.shutDown

theorem Serves.turn (h : s.Serves) (hstep : s.TurnSteps t s') : s'.Serves := by
  cases hstep with
  | watches step =>
    obtain ⟨_, _, _, key?, -, -, rfl⟩ := Watchers.step?_eq_some step
    cases key? with
    | none => exact h
    | some key => exact h.add key
  | connects opened =>
    obtain ⟨_, _, -, -, rfl⟩ := Watchers.open?_eq_some opened
    exact h
  | delivers | changes | waits | requests => exact h
  | works step => exact h.works step
  | answers worker => exact h.set worker rfl rfl
  | takes step => exact h.step? step
  | signals step => exact h.signal? step
  | signalsAll step => exact h.signalAll? step
  | fires fired =>
    obtain ⟨timer, rest, -, rfl⟩ := WorkQueue.fire?_eq_some fired
    exact h.add timer.key
  | proceeds step => exact h.proceeds step

def HasEnded (s : Controller) (k : Kind) (how : LoopEnd) : Prop :=
  ∃ w ∈ s.watching.watchers, w.kind = k ∧ w.ended = some how

def Explains (s : Controller) : Departure → Prop
  | .shutdown => s.isShutdownRequested
  | .loopEnded k how => s.HasEnded k how

/-- What has to have happened for the controller to be where it is. -/
def Grounded (s : Controller) : Prop :=
  match s.phase with
  | .syncing => s.workers = []
  | .running => s.world.roots.synced
  | .leaving why => s.world.roots.synced ∧ s.work.queue.isShutDown ∧ s.Explains why
  | .left why => (why = .shutdown ∧ s.workers = [] ∨ s.world.roots.synced) ∧
      (∀ w ∈ s.workers, w = .exited) ∧ s.Explains why

structure Ordered (s : Controller) : Prop where
  serves : s.Serves
  filled : ∃ es, s.world.roots = (Cache.empty.applyAll es).1
  grounded : s.Grounded

theorem ordered_new (settings : Settings) (cluster : Cluster) (clock : Time.Instant)
    (feed : (k : Kind) → Feed k) : (new settings (.new cluster clock) feed).Ordered :=
  ⟨.empty, ⟨[], rfl⟩, rfl⟩

structure Stays (s s' : Controller) : Prop where
  phase : s'.phase = s.phase
  synced : s.world.roots.synced → s'.world.roots.synced
  isShutDown : s'.work.queue.isShutDown = s.work.queue.isShutDown
  requested : s.isShutdownRequested → s'.isShutdownRequested
  ended : ∀ {k how}, s.HasEnded k how → s'.HasEnded k how
  idle : (∀ w ∈ s.workers, w = .exited) → s'.workers = s.workers

theorem Explains.stays {why : Departure} (h : s.Explains why) (hstays : s.Stays s') :
    s'.Explains why := by
  cases why with
  | shutdown => exact hstays.requested h
  | loopEnded k how => exact hstays.ended h

theorem Grounded.stays (h : s.Grounded) (hstays : s.Stays s') : s'.Grounded := by
  unfold Grounded at h ⊢
  rw [hstays.phase]
  cases hphase : s.phase with
  | syncing =>
    rw [hphase] at h
    have hnobody : s.workers = [] := h
    have hidle := hstays.idle (by simp [hnobody])
    exact hidle.trans hnobody
  | running =>
    rw [hphase] at h
    exact hstays.synced h
  | leaving why =>
    rw [hphase] at h
    obtain ⟨hsynced, hshut, hwhy⟩ := h
    exact ⟨hstays.synced hsynced, hstays.isShutDown.trans hshut, hwhy.stays hstays⟩
  | left why =>
    rw [hphase] at h
    obtain ⟨hbegun, hexited, hwhy⟩ := h
    have hidle := hstays.idle hexited
    refine ⟨hbegun.imp (fun hnobody ↦ ?_) hstays.synced, hidle ▸ hexited, hwhy.stays hstays⟩
    exact ⟨hnobody.1, hidle.trans hnobody.2⟩

end Controller

namespace Watcher

variable {w w' : Watcher} {c : Cluster} {roots roots' : Cache .submarine} {key? : Option String}
  {how : LoopEnd}

/-- A loop that has ended may still route what it read, but reads no more. -/
theorem Steps.ended (h : Steps c roots w w' roots' key?) (hended : w.ended = some how) :
    w'.ended = some how := by
  have hread {k : Kind} {l : Loop k} {r : Option (WatchEvent k) × Loop k}
      (hl : l.ended = some how) : l.read? c ≠ some r := by
    simp [Loop.read?, hl]
  cases h with
  | routeRoot | routeChild => exact hended
  | readRoot _ read => exact absurd read (hread hended)
  | readChild _ read => exact absurd read (hread hended)

theorem ended_of_open? (hopen : w.open? c = some w') : w'.kind = w.kind ∧ w'.ended = w.ended := by
  cases w with
  | roots l =>
    obtain ⟨l', hl, rfl⟩ := Option.map_eq_some_iff.1 hopen
    obtain ⟨-, rfl⟩ := Loop.open?_eq_some hl
    exact ⟨rfl, rfl⟩
  | children k l cache =>
    obtain ⟨l', hl, rfl⟩ := Option.map_eq_some_iff.1 hopen
    obtain ⟨-, rfl⟩ := Loop.open?_eq_some hl
    exact ⟨rfl, rfl⟩

theorem ended_deliver (w : Watcher) (incident : (k : Kind) → Incident k) :
    (w.deliver incident).kind = w.kind ∧ (w.deliver incident).ended = w.ended := by
  cases w <;> exact ⟨rfl, rfl⟩

/-- The cache of installations is only ever applied to. -/
theorem Steps.roots_cases (h : Steps c roots w w' roots' key?) :
    roots' = roots ∨ ∃ e, roots' = (roots.apply e).1 := by
  cases h with
  | routeRoot | routeChild | readChild => exact .inl rfl
  | @readRoot l l' event? =>
    cases event? with
    | none => exact .inl rfl
    | some e => exact .inr ⟨e, rfl⟩

end Watcher

namespace Controller

variable {s s' : Controller} {t : Turn} {turns : List Turn}

theorem hasEnded_of_endedLoop? {k : Kind} {how : LoopEnd} (h : s.endedLoop? = some (k, how)) :
    s.HasEnded k how := by
  obtain ⟨w, hw, h⟩ := List.exists_of_findSome?_eq_some h
  obtain ⟨how', hended, h⟩ := Option.map_eq_some_iff.1 h
  obtain ⟨rfl, rfl⟩ := Prod.mk.inj h
  exact ⟨w, hw, rfl, hended⟩

theorem HasEnded.set {k : Kind} {how : LoopEnd} {watching : Watchers} {w w' : Watcher}
    (h : s.HasEnded k how) (hw : s.watching.watchers[i]? = some w)
    (hwatchers : watching.watchers = s.watching.watchers.set i w') (hkind : w'.kind = w.kind)
    (hended : ∀ how, w.ended = some how → w'.ended = some how) :
    HasEnded { s with watching } k how := by
  obtain ⟨v, hv, hvkind, hvended⟩ := h
  obtain ⟨j, hj⟩ := List.getElem?_of_mem hv
  unfold HasEnded
  dsimp only
  rw [hwatchers]
  by_cases hij : i = j
  · subst hij
    obtain rfl := Option.some.inj (hw.symm.trans hj)
    exact ⟨w', List.mem_of_getElem? (getElem?_set_self_of_some hw _), hkind.trans hvkind,
      hended how hvended⟩
  · exact ⟨v, List.mem_of_getElem? ((List.getElem?_set_ne hij).trans hj), hvkind, hvended⟩

theorem stays_of_works (h : s.WorkerSteps i s') : s.Stays s' := by
  have hworker {w : Worker} (hw : s.workers[i]? = some w) (hne : w ≠ .exited) :
      ¬ ∀ w ∈ s.workers, w = .exited := fun hexited ↦ hne (hexited w (List.mem_of_getElem? hw))
  have hroots := roots_of_works h
  cases h with
  | takes worker | leaves worker =>
    exact ⟨rfl, id, rfl, id, id, fun hexited ↦ absurd hexited (hworker worker (by simp))⟩
  | asks worker =>
    refine ⟨rfl, ?_, rfl, id, id, fun hexited ↦ absurd hexited (hworker worker (by simp))⟩
    rw [hroots]
    exact id
  | ends worker | fails worker =>
    exact ⟨rfl, id, WorkQueue.isShutDown_conclude .., id, id,
      fun hexited ↦ absurd hexited (hworker worker (by simp))⟩
  | releases worker =>
    exact ⟨rfl, id, rfl, id, id, fun hexited ↦ absurd hexited (hworker worker (by simp))⟩

theorem stays_of_withWork {work : WorkQueue}
    (h : work.queue.isShutDown = s.work.queue.isShutDown) : s.Stays (s.withWork work) :=
  ⟨rfl, id, h, id, id, fun _ ↦ rfl⟩

/-- Either the controller proceeds, or it stays in its phase. -/
theorem TurnSteps.stays_or_proceeds (h : s.TurnSteps t s') : s.Stays s' ∨ s.Proceeds s' := by
  cases h with
  | watches step =>
    obtain ⟨w, w', roots, key?, hw, hsteps, rfl⟩ := Watchers.step?_eq_some step
    refine .inl ⟨rfl, fun hsynced ↦ ?_, ?_, id, fun hended ↦ ?_, fun _ ↦ rfl⟩
    · rcases hsteps.roots_cases with rfl | ⟨e, rfl⟩
      · exact hsynced
      · change (Cache.apply _ e).1.synced = true
        rw [Cache.synced_apply, Bool.or_eq_true]
        exact .inl hsynced
    · cases key? with
      | none => rfl
      | some key => exact Queue.isShutDown_add s.work.queue key
    · exact hended.set hw rfl hsteps.kind fun how ↦ hsteps.ended
  | connects opened =>
    obtain ⟨w, w', hw, hopen, rfl⟩ := Watchers.open?_eq_some opened
    obtain ⟨hkind, hsame⟩ := Watcher.ended_of_open? hopen
    exact .inl ⟨rfl, id, rfl, id, fun hended ↦ hended.set hw rfl hkind fun _ ↦ hsame.trans,
      fun _ ↦ rfl⟩
  | @delivers j w incident watcher =>
    obtain ⟨hkind, hsame⟩ := w.ended_deliver incident
    exact .inl ⟨rfl, id, rfl, id, fun hended ↦ hended.set watcher rfl hkind fun _ ↦ hsame.trans,
      fun _ ↦ rfl⟩
  | works step => exact .inl (stays_of_works step)
  | answers worker =>
    refine .inl ⟨rfl, id, rfl, id, id, fun hexited ↦ ?_⟩
    have hpassing := hexited _ (List.mem_of_getElem? worker)
    contradiction
  | takes step => exact .inl (stays_of_withWork (Dispenser.isShutDown_step? step))
  | signals step =>
    exact .inl (stays_of_withWork (congrArg Queue.isShutDown
      (Dispenser.Accounted.queue_signal? step)))
  | signalsAll step =>
    exact .inl (stays_of_withWork (congrArg Queue.isShutDown
      (Dispenser.Accounted.queue_signalAll? step)))
  | fires fired => exact .inl (stays_of_withWork (WorkQueue.isShutDown_fire? fired))
  | proceeds step => exact .inr step
  | @changes m world roots =>
    have hsame : (s.withWorld world).world.roots = s.world.roots := roots
    exact .inl ⟨rfl, fun hsynced ↦ hsame ▸ hsynced, rfl, id, id, fun _ ↦ rfl⟩
  | waits => exact .inl (stays_of_withWork rfl)
  | requests => exact .inl ⟨rfl, id, rfl, fun _ ↦ rfl, id, fun _ ↦ rfl⟩

theorem Grounded.proceeds (h : s.Grounded) (hstep : s.Proceeds s') : s'.Grounded := by
  unfold Grounded at h
  cases hstep with
  | giveUp phase requested =>
    rw [phase] at h
    have hnobody : s.workers = [] := h
    exact ⟨.inl ⟨rfl, hnobody⟩, by simp [hnobody], requested⟩
  | hires phase synced =>
    have hsame : (s.hireMany s.workerCount).world = s.world := s.world_hireMany _
    change (s.hireMany s.workerCount).world.roots.synced = true
    rw [hsame]
    exact synced
  | stops phase requested =>
    rw [phase] at h
    exact ⟨h, rfl, requested⟩
  | loses phase ended =>
    rw [phase] at h
    exact ⟨h, rfl, hasEnded_of_endedLoop? ended⟩
  | leaves phase exited =>
    rw [phase] at h
    exact ⟨.inr h.1, exited, h.2.2⟩

/-- Only the loop of the installations changes their cache, by applying what it reads. -/
theorem TurnSteps.roots_cases (h : s.TurnSteps t s') : s'.world.roots = s.world.roots ∨
    ∃ e, s'.world.roots = (s.world.roots.apply e).1 := by
  cases h with
  | watches step =>
    obtain ⟨_, _, roots, key?, -, hsteps, rfl⟩ := Watchers.step?_eq_some step
    exact hsteps.roots_cases
  | connects opened =>
    obtain ⟨_, _, -, -, rfl⟩ := Watchers.open?_eq_some opened
    exact .inl rfl
  | works step => exact .inl (roots_of_works step)
  | proceeds step =>
    cases step with
    | hires => exact .inl (congrArg World.roots (s.world_hireMany _))
    | giveUp | stops | loses | leaves => exact .inl rfl
  | changes roots => exact .inl roots
  | delivers | answers | takes | signals | signalsAll | fires | waits | requests => exact .inl rfl

theorem Ordered.turn (h : s.Ordered) (hturn : s.turn? t = some s') : s'.Ordered := by
  have hstep := steps_of_turn? hturn
  refine ⟨h.serves.turn hstep, ?_, ?_⟩
  · obtain ⟨es, hes⟩ := h.filled
    rcases hstep.roots_cases with hsame | ⟨e, happlied⟩
    · exact ⟨es, hsame.trans hes⟩
    · refine ⟨es ++ [e], ?_⟩
      rw [happlied, hes, Cache.applyAll_append]
      rfl
  · rcases hstep.stays_or_proceeds with hstays | hproceeds
    · exact h.grounded.stays hstays
    · exact h.grounded.proceeds hproceeds

theorem Ordered.runs (h : s.Ordered) (hruns : s.runs? turns = some s') : s'.Ordered := by
  induction turns generalizing s with
  | nil => exact Option.some.inj hruns ▸ h
  | cons t rest ih =>
    obtain ⟨u, hu, hrest⟩ := Option.bind_eq_some_iff.1 hruns
    exact ih (h.turn hu) hrest

end Controller

end Submarine
