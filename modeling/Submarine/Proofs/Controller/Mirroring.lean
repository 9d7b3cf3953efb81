import Submarine.Proofs.Controller.Noticing
import Submarine.Proofs.Watch.Mirroring

namespace Submarine

open Cluster (Placed Tidy Unchanged)

variable {k : Kind} {c c' : Cluster}

namespace Loop

variable {l l' : Loop k} {cache : Cache k}

inductive Mirrors (l : Loop k) (cache : Cache k) (c : Cluster) : Prop where
  | silent (silent : l.IsSilent) (ended : l.ended = none)
      (empty : ∀ key, cache.objects.get? key = none)
  | live (w : Watch k) (feed : l.feed = ⟨[], .live w⟩) (ended : l.ended = none)
      (mirrors : w.Mirrors cache c)

theorem read?_of_silent (h : l.IsSilent) (c : Cluster) : l.read? c = none := by
  unfold read?
  split
  · rfl
  · rw [h]
    rfl

namespace Mirrors

theorem tidy (hc : Placed c) (h : l.Mirrors cache c) (ht : Tidy c c') : l.Mirrors cache c' := by
  cases h with
  | silent silent ended empty => exact .silent silent ended empty
  | live w feed ended mirrors => exact .live w feed ended (mirrors.tidy hc ht)

theorem route (h : l.Mirrors cache c) (pending : List (Notification k)) :
    { l with pending }.Mirrors cache c := by
  cases h with
  | silent silent ended empty => exact .silent silent ended empty
  | live w feed ended mirrors => exact .live w feed ended mirrors

theorem read {event? : Option (WatchEvent k)} (h : l.Mirrors cache c) (hup : l.KeepsUp c)
    (hread : l.read? c = some (event?, l')) :
    (l'.receive cache event?).1.Mirrors (l'.receive cache event?).2 c := by
  cases h with
  | silent silent =>
    rw [read?_of_silent silent] at hread
    contradiction
  | live w feed ended mirrors =>
    have hkeeps : w.KeepsUp c := by rwa [KeepsUp, feed] at hup
    rw [read?_of_feed feed ended] at hread
    obtain ⟨⟨e, w'⟩, hw, he⟩ := Option.map_eq_some_iff.1 hread
    obtain ⟨rfl, rfl⟩ := Prod.mk.inj he
    have hmirrors := mirrors.read hkeeps hw
    cases e with
    | none => exact .live w' rfl ended hmirrors
    | some e => exact .live w' rfl ended hmirrors

theorem opened (hc : Placed c) (h : l.Mirrors cache c) (hopen : l.open? c = some l') :
    l'.Mirrors cache c := by
  obtain ⟨hsilent, rfl⟩ := open?_eq_some hopen
  cases h with
  | silent _ ended empty => exact .live _ rfl ended (.start hc empty)
  | live w feed =>
    rw [IsSilent, feed] at hsilent
    simp at hsilent

theorem prepared (h : l.Mirrors cache c) : l.feed.prepared = [] := by
  cases h with
  | silent silent => rw [silent]
  | live w feed => rw [feed]

/-- What is cached when nothing is ahead is stored. -/
theorem stored_of_ahead_eq_nil (h : l.Mirrors cache c) (hahead : l.ahead c = []) {key : String}
    {o : Object k} (hcached : cache.objects.get? key = some o) :
    ∃ p, p.key = key ∧ c.find? k p = some o := by
  cases h with
  | silent _ _ empty =>
    rw [empty] at hcached
    contradiction
  | live w feed ended mirrors =>
    rw [ahead_of_feed feed] at hahead
    refine mirrors.stored ?_
    rwa [hahead]

end Mirrors

end Loop

namespace Watchers

variable {s s' : Watchers} {i : Nat} {P Q : Loop .submarine → Cache .submarine → Prop}

/-- The first loop is that of the installations, and `P` holds of it and the cache that it fills. No
other loop reads installations. -/
structure Led (P : Loop .submarine → Cache .submarine → Prop) (s : Watchers) : Prop where
  first : ∃ l, s.watchers[0]? = some (.roots l) ∧ P l s.world.roots
  others : ∀ {i : Nat} {l : Loop .submarine}, s.watchers[i]? = some (.roots l) → i = 0

namespace Led

theorem mono (h : s.Led P) (hPQ : ∀ l, P l s.world.roots → Q l s.world.roots) : s.Led Q where
  first := by
    obtain ⟨l, hl, hP⟩ := h.first
    exact ⟨l, hl, hPQ l hP⟩
  others := h.others

theorem congr (h : s.Led P) (hwatchers : s'.watchers = s.watchers)
    (hroots : s'.world.roots = s.world.roots) : s'.Led P where
  first := by
    rw [hwatchers, hroots]
    exact h.first
  others hl := h.others (hwatchers ▸ hl)

/-- One loop goes over to another state. -/
theorem set {w w' : Watcher} {roots : Cache .submarine} {work : WorkQueue} (h : s.Led P)
    (hw : s.watchers[i]? = some w)
    (hfirst : ∀ l, w = .roots l → P l s.world.roots → ∃ l', w' = .roots l' ∧ P l' roots)
    (hothers : (∀ l, w ≠ .roots l) → roots = s.world.roots ∧ ∀ l, w' ≠ .roots l) :
    Led P { world := { s.world with roots }, watchers := s.watchers.set i w', work } := by
  obtain ⟨l, hl, hP⟩ := h.first
  by_cases hi : i = 0
  · subst hi
    obtain rfl := Option.some.inj (hw.symm.trans hl)
    obtain ⟨l', rfl, hP'⟩ := hfirst l rfl hP
    refine ⟨⟨l', getElem?_set_self_of_some hw _, hP'⟩, fun {j m} hm ↦ ?_⟩
    by_cases hj : 0 = j
    · exact hj.symm
    · exact h.others ((List.getElem?_set_ne hj).symm.trans hm)
  · have hnot : ∀ m, w ≠ .roots m := by
      rintro m rfl
      exact hi (h.others hw)
    obtain ⟨rfl, hnew⟩ := hothers hnot
    refine ⟨⟨l, (List.getElem?_set_ne hi).trans hl, hP⟩, fun {j m} hm ↦ ?_⟩
    by_cases hj : i = j
    · subst hj
      exact absurd (Option.some.inj ((getElem?_set_self_of_some hw w').symm.trans hm)) (hnew m)
    · exact h.others ((List.getElem?_set_ne hj).symm.trans hm)

theorem step (h : s.Led P)
    (hroute : ∀ (l : Loop .submarine) pending, P l s.world.roots → P { l with pending } s.world.roots)
    (hread : ∀ l l' event?, Watcher.roots l ∈ s.watchers → P l s.world.roots →
      l.read? s.world.cluster = some (event?, l') →
        P (l'.receive s.world.roots event?).1 (l'.receive s.world.roots event?).2)
    (hstep : s.step? i = some s') : s'.Led P := by
  obtain ⟨w, w', roots, key?, hw, hsteps, rfl⟩ := step?_eq_some hstep
  refine h.set hw ?_ fun hnot ↦ ⟨hsteps.roots_eq hnot, ?_⟩
  · rintro l rfl hP
    cases hsteps with
    | routeRoot => exact ⟨_, rfl, hroute l _ hP⟩
    | readRoot _ read => exact ⟨_, rfl, hread l _ _ (List.mem_of_getElem? hw) hP read⟩
  · rintro l rfl
    have hkind := hsteps.kind
    cases hsteps with
    | routeRoot | readRoot => exact hnot _ rfl

theorem opened (h : s.Led P)
    (hopened : ∀ l l', P l s.world.roots → l.open? s.world.cluster = some l' →
      P l' s.world.roots)
    (hopen : s.open? i = some s') : s'.Led P := by
  obtain ⟨w, w', hw, hopen, rfl⟩ := open?_eq_some hopen
  refine h.set hw ?_ fun hnot ↦ ⟨rfl, ?_⟩
  · rintro l rfl hP
    obtain ⟨l', hl', rfl⟩ := Option.map_eq_some_iff.1 hopen
    exact ⟨l', rfl, hopened l l' hP hl'⟩
  · rintro l rfl
    cases w with
    | roots m => exact hnot m rfl
    | children k m cache =>
      obtain ⟨m', -, he⟩ := Option.map_eq_some_iff.1 hopen
      contradiction

end Led

end Watchers

namespace Watcher

def IsDelivered (w : Watcher) (c : Cluster) : Prop :=
  match w with
  | .roots l => l.ahead c = []
  | .children _ l _ => l.ahead c = []

end Watcher

def Watchers.AreDelivered (s : Watchers) : Prop := ∀ w ∈ s.watchers, w.IsDelivered s.world.cluster

namespace Controller

variable {s s' : Controller} {m : Move}

inductive Shifts (s : Controller) : Move → Controller → Prop where
  | watches {i : Nat} {watching : Watchers} (step : s.watching.step? i = some watching) :
      Shifts s (.act (.watch i)) { s with watching }
  | connects {i : Nat} {watching : Watchers} (opened : s.watching.open? i = some watching) :
      Shifts s (.connect i) { s with watching }
  | asks {i : Nat} {key : String} {r : Request} {next : r.Answer → Pass Unit}
      (worker : s.workers[i]? = some (.passing key (.ask r next))) :
      Shifts s (.act (.worker i)) ((s.withWorld (s.world.step (.ask r next)).2).withWorker i
        (.passing key (s.world.step (.ask r next)).1))
  | operates (op : Cluster.Operation) :
      Shifts s (.operate op) (s.withWorld { s.world with cluster := s.world.cluster.perform op })
  | elsewhere {m : Move} {s' : Controller}
      (watchers : s'.watching.watchers = s.watching.watchers)
      (roots : s'.world.roots = s.world.roots) (cluster : s'.world.cluster = s.world.cluster)
      (passes : ∀ (i : Nat) key rest, s'.workers[i]? = some (.passing key rest) →
        s.workers[i]? = some (.passing key rest) ∨ rest = reconcile key)
      (silent : ∀ i, m = .act (.worker i) → ∀ key r next,
        s.workers[i]? ≠ some (.passing key (.ask r next))) : Shifts s m s'

namespace Shifts

theorem aside (hsame : s'.watching.watchers = s.watching.watchers) (hworld : s'.world = s.world)
    (hworkers : s'.workers = s.workers) (hm : ∀ i, m ≠ .act (.worker i)) : s.Shifts m s' := by
  refine .elsewhere hsame ?_ ?_ (fun i key rest h ↦ ?_) fun i hi ↦ absurd hi (hm i)
  · rw [hworld]
  · rw [hworld]
  · exact .inl (hworkers ▸ h)

theorem turn {i : Nat} {work : WorkQueue} {w w' : Worker} (hw : s.workers[i]? = some w)
    (hnew : ∀ key rest, w' = .passing key rest → rest = reconcile key)
    (hold : ∀ key r next, w ≠ .passing key (.ask r next)) :
    s.Shifts (.act (.worker i)) ((s.withWork work).withWorker i w') := by
  refine .elsewhere rfl rfl rfl (fun j key rest h ↦ ?_) fun j hj key r next h ↦ ?_
  · change (s.workers.set i w')[j]? = some (.passing key rest) at h
    rw [getElem?_set_of_some hw] at h
    split at h
    · exact .inr (hnew key rest (Option.some.inj h))
    · exact .inl h
  · obtain rfl : i = j := by simpa using hj
    exact hold key r next (Option.some.inj (hw.symm.trans h))

end Shifts

theorem WorkerSteps.shifts {i : Nat} (h : s.WorkerSteps i s') : s.Shifts (.act (.worker i)) s' := by
  cases h with
  | takes worker =>
    refine .turn worker (fun key rest h ↦ ?_) (by simp)
    obtain ⟨rfl, rfl⟩ := Worker.passing.inj h
    rfl
  | leaves worker => exact .turn worker (by simp) (by simp)
  | asks worker => exact .asks worker
  | ends worker => exact .turn worker (by simp) (by simp)
  | fails worker => exact .turn worker (by simp) (by simp)
  | releases worker => exact .turn worker (by simp) (by simp)

theorem watchers_hireMany (s : Controller) (count : Nat) :
    (s.hireMany count).watching.watchers = s.watching.watchers := by
  induction count generalizing s with
  | zero => rfl
  | succ count ih => exact ih s.hire

theorem passing_of_hireMany {i count : Nat} {key : String} {rest : Pass Unit}
    (h : (s.hireMany count).workers[i]? = some (.passing key rest)) :
    s.workers[i]? = some (.passing key rest) := by
  induction count generalizing s with
  | zero => exact h
  | succ count ih =>
    have hhired : (s.workers ++ [.asking s.work.takeLater.1])[i]? = some (.passing key rest) := ih h
    rw [List.getElem?_append] at hhired
    split at hhired
    · exact hhired
    · exact absurd (List.mem_of_getElem? hhired) (by simp)

theorem shifts_of_proceed? (h : s.proceed? = some s') : s.Shifts (.act .proceed) s' := by
  unfold proceed? at h
  split at h
  · split at h
    · obtain rfl := Option.some.inj h
      exact .aside rfl rfl rfl (by simp)
    · split at h
      · obtain rfl := Option.some.inj h
        refine .elsewhere (s.watchers_hireMany _) ?_ ?_ (fun i key rest h ↦ ?_) (by simp)
        · exact congrArg World.roots (s.world_hireMany _)
        · exact congrArg World.cluster (s.world_hireMany _)
        · exact .inl (passing_of_hireMany h)
      · contradiction
  · split at h
    · obtain rfl := Option.some.inj h
      exact .aside rfl rfl rfl (by simp)
    · obtain ⟨⟨k, how⟩, -, rfl⟩ := Option.map_eq_some_iff.1 h
      exact .aside rfl rfl rfl (by simp)
  · split at h
    · obtain rfl := Option.some.inj h
      exact .aside rfl rfl rfl (by simp)
    · contradiction
  · contradiction

theorem shifts_of_move? (h : s.move? m = some s') : s.Shifts m s' := by
  cases m with
  | act a =>
    cases a with
    | watch j =>
      change (if s.hasLeft then none else _) = some s' at h
      split at h
      · contradiction
      · obtain ⟨watching, hstep, rfl⟩ := Option.map_eq_some_iff.1 h
        exact .watches hstep
    | worker j => exact (steps_of_stepWorker? h).shifts
    | taker | signal | signalAll =>
      obtain ⟨d, hd, rfl⟩ := Option.map_eq_some_iff.1 h
      exact .aside rfl rfl rfl (by simp)
    | fire =>
      obtain ⟨work, hwork, rfl⟩ := Option.map_eq_some_iff.1 h
      exact .aside rfl rfl rfl (by simp)
    | proceed => exact shifts_of_proceed? h
  | connect j =>
    obtain ⟨watching, hopened, rfl⟩ := Option.map_eq_some_iff.1 h
    exact .connects hopened
  | operate op =>
    obtain rfl := Option.some.inj h
    exact .operates op
  | crash | setClock =>
    obtain rfl := Option.some.inj h
    exact .elsewhere rfl rfl rfl (fun i key rest h ↦ .inl h) (by simp)
  | wait | requestShutdown =>
    obtain rfl := Option.some.inj h
    exact .aside rfl rfl rfl (by simp)

def Move.KeepsNames (m : Move) (s : Controller) : Prop :=
  match m with
  | .operate op => op.KeepsNames s.world.cluster
  | .act _ | .connect _ | .crash _ | .setClock _ | .wait _ | .requestShutdown => True

/-- The states that runs lead to in which nobody renames an object and no reader falls too far
behind. -/
inductive Roams (settings : Settings) (clock : Time.Instant) : Controller → Prop where
  | start : Roams settings clock (start settings clock)
  | move {s s' : Controller} (m : Move) (h : Roams settings clock s) (allowed : m.KeepsNames s)
      (moves : s.move? m = some s') (keepsUp : s'.watching.KeepsUp) : Roams settings clock s'

structure Mirrors (s : Controller) : Prop where
  placed : s.world.cluster.Placed
  led : s.watching.Led fun l roots ↦ l.Mirrors roots s.world.cluster

namespace Mirrors

theorem withCluster {cluster : Cluster} (h : s.Mirrors) (ht : Tidy s.world.cluster cluster)
    (hcluster : s'.world.cluster = cluster)
    (hwatchers : s'.watching.watchers = s.watching.watchers)
    (hroots : s'.world.roots = s.world.roots) : s'.Mirrors := by
  subst hcluster
  exact ⟨h.placed.tidy ht, (h.led.mono fun l hl ↦ hl.tidy h.placed ht).congr hwatchers hroots⟩

theorem move (h : s.Mirrors) (hup : s.watching.KeepsUp) (hm : m.KeepsNames s)
    (hmove : s.move? m = some s') : s'.Mirrors := by
  cases shifts_of_move? hmove with
  | watches step =>
    have hled := h.led.step (fun l pending hl ↦ hl.route pending)
      (fun l l' event? hmem hl hread ↦ hl.read (hup _ hmem) hread) step
    obtain ⟨w, w', roots, key?, -, -, rfl⟩ := Watchers.step?_eq_some step
    exact ⟨h.placed, hled⟩
  | connects opened =>
    have hled := h.led.opened (fun l l' hl hopen ↦ hl.opened h.placed hopen) opened
    obtain ⟨w, w', -, -, rfl⟩ := Watchers.open?_eq_some opened
    exact ⟨h.placed, hled⟩
  | @asks i key r next worker =>
    have ht := Tidy.serve h.placed r
    rw [← World.step_ask s.world r next] at ht
    exact h.withCluster ht rfl rfl (s.world.roots_step _)
  | operates op => exact h.withCluster (.perform h.placed hm) rfl rfl rfl
  | elsewhere watchers roots cluster =>
    exact h.withCluster (.unchanged (.refl _)) cluster watchers roots

end Mirrors

variable {settings : Settings} {clock : Time.Instant}

theorem mirrors_start (settings : Settings) (clock : Time.Instant) :
    (start settings clock).Mirrors where
  placed := .empty
  led := by
    refine ⟨⟨_, rfl, .silent rfl rfl fun _ ↦ rfl⟩, fun {i l} hl ↦ ?_⟩
    cases i with
    | zero => rfl
    | succ i =>
      have hchild : Watcher.roots l ∈
          childKinds.map fun k ↦ .children k (.start ⟨[], .silent⟩) .empty :=
        List.mem_of_getElem? (i := i) hl
      obtain ⟨k, -, hk⟩ := List.mem_map.1 hchild
      contradiction

theorem Roams.mirrors (h : Roams settings clock s) : s.Mirrors ∧ s.watching.KeepsUp := by
  induction h with
  | start => exact ⟨mirrors_start settings clock, (Reaches.start.steady rfl).2⟩
  | move m _ allowed moves keepsUp ih => exact ⟨ih.1.move ih.2 allowed moves, keepsUp⟩

end Controller

end Submarine
