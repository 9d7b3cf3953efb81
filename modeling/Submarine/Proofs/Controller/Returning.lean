import Submarine.Proofs.Controller.Turns

namespace Submarine

variable {i : Nat}

namespace Controller

variable {s s' : Controller} {t : Turn} {turns : List Turn}

/-- Nobody can take a step; timers may still run. -/
def AtRest (s : Controller) : Prop := ∀ a, a ≠ .fire → s.step? a = none

theorem atRest_iff : s.AtRest ↔
    (s.hasLeft ∨ ∀ i < s.watching.watchers.length, (s.watching.step? i).isNone) ∧
    (∀ i < s.workers.length, (s.stepWorker? i).isNone) ∧
    (∀ id ∈ s.work.dispenser.ids, (s.work.dispenser.step? id).isNone) ∧
    s.work.dispenser.signal?.isNone ∧ s.work.dispenser.signalAll?.isNone ∧ s.proceed?.isNone := by
  simp only [Option.isNone_iff_eq_none]
  constructor
  · intro h
    refine ⟨?_, fun i _ ↦ h (.worker i) (by simp), fun id _ ↦ ?_, ?_, ?_, h .proceed (by simp)⟩
    · refine or_iff_not_imp_left.2 fun hleft i _ ↦ ?_
      have hwatch := h (.watch i) (by simp)
      rw [step?, if_neg hleft] at hwatch
      exact Option.map_eq_none_iff.1 hwatch
    · exact Option.map_eq_none_iff.1 (h (.taker id) (by simp))
    · exact Option.map_eq_none_iff.1 (h .signal (by simp))
    · exact Option.map_eq_none_iff.1 (h .signalAll (by simp))
  · rintro ⟨hwatch, hworker, htaker, hsignal, hsignalAll, hproceed⟩ a ha
    cases a with
    | watch i =>
      rw [step?]
      split
      · rfl
      · next hstays =>
        by_cases hi : i < s.watching.watchers.length
        · rw [hwatch.resolve_left hstays i hi]
          rfl
        · rw [Watchers.step?, List.getElem?_eq_none (Nat.le_of_not_lt hi)]
          rfl
    | worker i =>
      by_cases hi : i < s.workers.length
      · exact hworker i hi
      · rw [step?, stepWorker?, List.getElem?_eq_none (Nat.le_of_not_lt hi)]
        rfl
    | taker id =>
      have hnone : s.work.dispenser.step? id = none := by
        by_contra hsome
        obtain ⟨d, hd⟩ := Option.ne_none_iff_exists'.1 hsome
        obtain ⟨stage, hstage⟩ := Dispenser.stage?_of_step? hd
        exact hsome (htaker id (Dispenser.mem_ids_of_stage? hstage))
      rw [step?, hnone]
      rfl
    | signal =>
      rw [step?, hsignal]
      rfl
    | signalAll =>
      rw [step?, hsignalAll]
      rfl
    | fire => exact absurd rfl ha
    | proceed => exact hproceed

instance (s : Controller) : Decidable s.AtRest := decidable_of_iff' _ atRest_iff

/-- A taker at a queue that was shut down does not sleep for good. -/
theorem Ordered.finished_of_atRest {taker : Nat} (h : s.Ordered)
    (hshut : s.work.queue.isShutDown) (hrest : s.AtRest)
    (htaker : taker ∈ s.work.dispenser.ids) :
    ∃ key?, s.work.dispenser.stage? taker = some (.finished key?) := by
  obtain ⟨-, -, htakers, -, hsignalAll, -⟩ := atRest_iff.1 hrest
  obtain ⟨t, ht, rfl⟩ := List.mem_map.1 htaker
  have hstage := h.serves.accounted.toOrderly.stage?_of_mem ht
  have hnone := htakers t.id htaker
  unfold Dispenser.step? at hnone
  rw [hstage] at hnone
  cases hcase : t.stage with
  | finished key? => exact ⟨key?, hcase ▸ hstage⟩
  | looking | parking | woken =>
    rw [hcase] at hnone
    contradiction
  | sleeping =>
    rcases h.serves.vigilant.closed hshut with hclosing | hawake
    · rw [Dispenser.signalAll?, if_pos hclosing] at hsignalAll
      contradiction
    · exact absurd hcase (hawake t ht).1

/-- Where nothing moves and the queue is shut down, every worker has gone. -/
theorem Ordered.exited_of_atRest (h : s.Ordered) (hshut : s.work.queue.isShutDown)
    (hrest : s.AtRest) : ∀ w ∈ s.workers, w = .exited := by
  intro w hw
  obtain ⟨i, hi⟩ := List.getElem?_of_mem hw
  have hstill : s.stepWorker? i = none := hrest (.worker i) (by simp)
  unfold stepWorker? at hstill
  rw [hi, Option.bind_eq_bind, Option.bind_some] at hstill
  cases w with
  | exited => rfl
  | asking taker =>
    have htaker : taker ∈ s.work.dispenser.ids :=
      h.serves.waiting.mem_iff.2 (List.mem_filterMap.2 ⟨_, hw, rfl⟩)
    obtain ⟨key?, hstage⟩ := h.finished_of_atRest hshut hrest htaker
    dsimp only at hstill
    rw [hstage] at hstill
    cases key? <;> contradiction
  | passing key rest => cases rest <;> contradiction
  | releasing key => contradiction

theorem endedLoop?_isSome {k : Kind} {how : LoopEnd} (h : s.HasEnded k how) :
    s.endedLoop?.isSome := by
  obtain ⟨w, hw, rfl, hended⟩ := h
  rw [endedLoop?, List.findSome?_isSome_iff]
  exact ⟨w, hw, by simp [hended]⟩

/-- What the controller returns when it leaves for the end of a loop names the loop. -/
theorem result_loopEnded (k : Kind) (how : LoopEnd) (crash : String) :
    ∃ text, (Departure.loopEnded k how).result crash = .error (.watch (k.name ++ text)) := by
  cases how with
  | streamEnded => exact ⟨_, congrArg _ (congrArg _ (String.append_assoc ..))⟩
  | crashed => exact ⟨_, congrArg _ (congrArg _ (String.append_assoc ..))⟩

variable {settings : Settings} {cluster : Cluster} {clock : Time.Instant}
  {feed : (k : Kind) → Feed k}

/-- Where nobody can take a step any more, and a shutdown was requested or a loop has ended: the
controller has left exactly if the shutdown was requested or the installations have been listed. It
returns without a failure if it left for the shutdown, and otherwise with one that names a loop that
has ended. -/
theorem returns_at_rest (hruns : (new settings (.new cluster clock) feed).runs? turns = some s)
    (hrest : s.AtRest)
    (hcause : s.isShutdownRequested ∨ ∃ k how, s.HasEnded k how) :
    (s.hasLeft ↔ s.isShutdownRequested ∨ s.world.roots.synced) ∧
    ∀ why (crash : String), s.phase = .left why →
      s.isShutdownRequested ∧ why.result crash = .ok () ∨
        ∃ k how text, s.HasEnded k how ∧
          why.result crash = .error (.watch (k.name ++ text)) := by
  have hordered := (ordered_new settings cluster clock feed).runs hruns
  have hgrounded := hordered.grounded
  have hproceed : s.proceed? = none := hrest .proceed (by simp)
  unfold Grounded at hgrounded
  unfold proceed? at hproceed
  unfold hasLeft
  cases hphase : s.phase with
  | syncing =>
    simp only [hphase] at hproceed
    refine ⟨?_, by simp⟩
    split at hproceed
    · contradiction
    · next hunasked =>
      split at hproceed
      · contradiction
      · next hunsynced => simp [hunasked, hunsynced]
  | running =>
    simp only [hphase] at hproceed
    split at hproceed
    · contradiction
    · next hunasked =>
      obtain ⟨k, how, hended⟩ := hcause.resolve_left hunasked
      have hsome := endedLoop?_isSome hended
      rw [Option.map_eq_none_iff.1 hproceed] at hsome
      contradiction
  | leaving why =>
    rw [hphase] at hgrounded
    simp only [hphase] at hproceed
    have hexited := hordered.exited_of_atRest hgrounded.2.1 hrest
    rw [if_pos] at hproceed
    · contradiction
    · refine List.all_eq_true.2 fun w hw ↦ ?_
      rw [hexited w hw]
  | left why =>
    rw [hphase] at hgrounded
    obtain ⟨hbegun, -, hwhy⟩ := hgrounded
    have hreason : s.isShutdownRequested ∨ s.world.roots.synced := by
      rcases hbegun with ⟨rfl, -⟩ | hsynced
      · exact .inl hwhy
      · exact .inr hsynced
    refine ⟨by simpa using hreason, fun why' crash hwhy' ↦ ?_⟩
    obtain rfl := RunPhase.left.inj hwhy'
    cases why with
    | shutdown => exact .inl ⟨hwhy, rfl⟩
    | loopEnded k how =>
      obtain ⟨text, htext⟩ := result_loopEnded k how crash
      exact .inr ⟨k, how, text, hwhy, htext⟩

def endingFeed : (k : Kind) → Feed k
  | .submarine => ⟨[.event .relistStarted, .event .relistDone], .silent⟩
  | .service => ⟨[], .ended⟩
  | _ => ⟨[], .silent⟩

def endingTurns : List Turn :=
  [.move (.act (.watch 0)), .move (.act (.watch 0)), .move (.act .proceed), .move (.act (.watch 3)),
    .move (.act .proceed), .move (.act .signalAll), .move (.act (.taker 0)),
    .move (.act (.worker 0)), .move (.act .proceed)]

theorem returns_at_rest_of_ended :
    ∃ s, (new { workers := 1 } (.new .empty ⟨0, 0⟩) endingFeed).runs? endingTurns = some s ∧
      s.AtRest ∧ s.HasEnded .service .streamEnded ∧ s.hasLeft := by
  obtain ⟨s, hruns, hended, hrest, hsynced⟩ :
      ∃ s, (new { workers := 1 } (.new .empty ⟨0, 0⟩) endingFeed).runs? endingTurns = some s ∧
        (∃ w ∈ s.watching.watchers, w.kind = .service ∧ w.ended = some .streamEnded) ∧
        s.AtRest ∧ s.world.roots.synced :=
    ⟨_, rfl, ⟨_, List.mem_of_getElem? (i := 3) rfl, rfl, rfl⟩, by decide, rfl⟩
  have hcause : s.isShutdownRequested ∨ ∃ k how, s.HasEnded k how :=
    .inr ⟨.service, .streamEnded, hended⟩
  exact ⟨s, hruns, hrest, hended, (returns_at_rest hruns hrest hcause).1.2 (.inr hsynced)⟩

/-- The loop of the installations has ended without a listing, and nobody has asked to stop. -/
structure Unlisted (s : Controller) : Prop where
  phase : s.phase = .syncing
  unasked : s.isShutdownRequested = false
  unsynced : s.world.roots.synced = false
  ended : ∀ l, Watcher.roots l ∈ s.watching.watchers → l.ended.isSome

namespace Unlisted

theorem frame (h : s.Unlisted) (hphase : s'.phase = s.phase)
    (hrequested : s'.isShutdownRequested = s.isShutdownRequested)
    (hroots : s'.world.roots = s.world.roots)
    (hended : ∀ l, Watcher.roots l ∈ s'.watching.watchers → l.ended.isSome) : s'.Unlisted :=
  ⟨hphase.trans h.phase, hrequested.trans h.unasked, hroots ▸ h.unsynced, hended⟩

theorem ended_set {w w' : Watcher} (h : s.Unlisted) (hw : s.watching.watchers[i]? = some w)
    (hkept : ∀ l', w' = .roots l' → ∃ l, w = .roots l ∧ l'.ended = l.ended) :
    ∀ l', Watcher.roots l' ∈ s.watching.watchers.set i w' → l'.ended.isSome := by
  intro l' hl'
  rcases List.mem_or_eq_of_mem_set hl' with hold | rfl
  · exact h.ended l' hold
  · obtain ⟨l, rfl, hsame⟩ := hkept l' rfl
    exact hsame ▸ h.ended l (List.mem_of_getElem? hw)

theorem turn (h : s.Unlisted) (hstep : s.TurnSteps t s') (ht : t ≠ .move .requestShutdown) :
    s'.Unlisted := by
  cases hstep with
  | watches step =>
    obtain ⟨w, w', roots, key?, hw, hsteps, rfl⟩ := Watchers.step?_eq_some step
    cases hsteps with
    | routeRoot =>
      exact h.frame rfl rfl rfl (h.ended_set hw fun l' hl' ↦ ⟨_, rfl, by cases hl'; rfl⟩)
    | routeChild | readChild => exact h.frame rfl rfl rfl (h.ended_set hw (by simp))
    | @readRoot l l' event? pending read =>
      have hended := h.ended l (List.mem_of_getElem? hw)
      unfold Loop.read? at read
      split at read
      · contradiction
      · next hruns =>
        rw [hruns] at hended
        contradiction
  | connects opened =>
    obtain ⟨w, w', hw, hopen, rfl⟩ := Watchers.open?_eq_some opened
    refine h.frame rfl rfl rfl (h.ended_set hw fun l' hl' ↦ ?_)
    cases w with
    | roots l =>
      refine ⟨l, rfl, ?_⟩
      have hsame := (Watcher.ended_of_open? hopen).2
      rw [hl'] at hsame
      exact hsame
    | children k l cache =>
      obtain ⟨l₁, -, rfl⟩ := Option.map_eq_some_iff.1 hopen
      contradiction
  | @delivers j w incident watcher =>
    refine h.frame rfl rfl rfl (h.ended_set watcher fun l' hl' ↦ ?_)
    cases w with
    | roots l => exact ⟨l, rfl, by cases hl'; rfl⟩
    | children k l cache => contradiction
  | works step =>
    have hroots := roots_of_works step
    cases step with
    | takes | leaves | ends | fails | releases | asks => exact h.frame rfl rfl hroots h.ended
  | proceeds step =>
    cases step with
    | giveUp _ requested =>
      rw [h.unasked] at requested
      contradiction
    | hires _ synced =>
      rw [h.unsynced] at synced
      contradiction
    | stops phase | loses phase | leaves phase =>
      rw [h.phase] at phase
      contradiction
  | changes roots => exact h.frame rfl rfl roots h.ended
  | requests => exact absurd rfl ht
  | fires fired =>
    obtain ⟨timer, rest, -, rfl⟩ := WorkQueue.fire?_eq_some fired
    exact h.frame rfl rfl rfl h.ended
  | answers | takes | signals | signalsAll | waits => exact h.frame rfl rfl rfl h.ended

/-- However it goes on, the controller does not return unless it is asked to. -/
theorem runs (h : s.Unlisted) (hruns : s.runs? turns = some s')
    (hunasked : ∀ t ∈ turns, t ≠ .move .requestShutdown) : s'.Unlisted := by
  induction turns generalizing s with
  | nil => exact Option.some.inj hruns ▸ h
  | cons t rest ih =>
    obtain ⟨u, hu, hrest⟩ := Option.bind_eq_some_iff.1 hruns
    have hnext := h.turn (steps_of_turn? hu) (hunasked t List.mem_cons_self)
    exact ih hnext hrest fun t' ht' ↦ hunasked t' (List.mem_cons_of_mem _ ht')

end Unlisted

def unlistedFeed : (k : Kind) → Feed k
  | .submarine => ⟨[], .ended⟩
  | _ => ⟨[], .silent⟩

/-- One turn, and all is at rest for good: the loop has ended, and the controller has not left. -/
theorem waits_for_ended_loop :
    ∃ s, (new {} (.new .empty ⟨0, 0⟩) unlistedFeed).runs? [.move (.act (.watch 0))] = some s ∧
      s.AtRest ∧ s.HasEnded .submarine .streamEnded ∧ ¬ s.hasLeft ∧
      ∀ turns s', (∀ t ∈ turns, t ≠ .move .requestShutdown) → s.runs? turns = some s' →
        ¬ s'.hasLeft := by
  obtain ⟨s, hruns, hended, hrest, hunlisted⟩ :
      ∃ s, (new {} (.new .empty ⟨0, 0⟩) unlistedFeed).runs? [.move (.act (.watch 0))] = some s ∧
        (∃ w ∈ s.watching.watchers, w.kind = .submarine ∧ w.ended = some .streamEnded) ∧
        s.AtRest ∧ s.Unlisted := by
    refine ⟨_, rfl, ⟨_, List.mem_of_getElem? (i := 0) rfl, rfl, rfl⟩, by decide, rfl, rfl, rfl, ?_⟩
    intro l hl
    rcases List.mem_cons.1 hl with hl | hl
    · obtain rfl := Watcher.roots.inj hl
      rfl
    · obtain ⟨k, -, hk⟩ := List.mem_map.1 hl
      contradiction
  have hnever {s' : Controller} (h : s'.Unlisted) : ¬ s'.hasLeft := by
    simp [hasLeft, h.phase]
  exact ⟨s, hruns, hrest, hended, hnever hunlisted, fun turns s' hturns hfollow ↦
    hnever (hunlisted.runs hfollow hturns)⟩

end Controller

end Submarine
