import Submarine.Proofs.Queue.Handling

namespace Submarine

namespace Table

variable {κ : Type} [Keyed κ] [DecidableEq κ] {k : κ}

theorem find_eq_none_of_precedes {ν : Type} {v : ν} {l : List (κ × ν)}
    (h : ∀ e ∈ l, Precedes (k, v) e) : find k l = none := by
  induction l with
  | nil => rfl
  | cons e rest ih =>
    have hne : k ≠ e.1 := by
      rintro rfl
      exact List.lt_irrefl _ (h e List.mem_cons_self)
    rw [find, if_neg hne]
    exact ih fun d hd ↦ h d (List.mem_cons_of_mem _ hd)

def sum (l : List (κ × Nat)) : Nat := l.foldr (fun e rest ↦ e.2 + rest) 0

/-- An entry is exchanged, or added if there was none. -/
theorem sum_insertEntry {v : Nat} {l : List (κ × Nat)} (h : l.Pairwise Precedes) :
    sum (insertEntry k v l) + (find k l).getD 0 = sum l + v := by
  induction l with
  | nil => simp [insertEntry, find, sum]
  | cons e rest ih =>
    obtain ⟨he, hrest⟩ := List.pairwise_cons.1 h
    rw [insertEntry]
    by_cases hk : k = e.1
    · rw [if_pos hk, find, if_pos hk]
      simp only [sum, List.foldr_cons, Option.getD_some]
      omega
    · rw [if_neg hk]
      by_cases hlt : Keyed.path k < Keyed.path e.1
      · -- The new entry comes first, and the key has none after it.
        have hnone : find k (e :: rest) = none := by
          refine find_eq_none_of_precedes (v := v) fun d hd ↦ ?_
          rcases List.mem_cons.1 hd with rfl | hd
          · exact hlt
          · exact List.lt_trans hlt (he d hd)
        rw [if_pos hlt, hnone]
        simp only [sum, List.foldr_cons, Option.getD_none]
        omega
      · have hlater := ih hrest
        rw [if_neg hlt, find, if_neg hk]
        simp only [sum, List.foldr_cons] at hlater ⊢
        omega

end Table

namespace Metrics

def total (m : Metrics) : Nat := Table.sum m.results.entries

theorem total_record (m : Metrics) (outcome : Option Severity) :
    (m.record outcome).total = m.total + 1 := by
  have hsum := Table.sum_insertEntry (k := resultLabel outcome)
    (v := m.count (resultLabel outcome) + 1) m.results.sorted
  change (m.record outcome).total + m.count (resultLabel outcome) =
    m.total + (m.count (resultLabel outcome) + 1) at hsum
  omega

theorem resultLabel_inj {outcome other : Option Severity} :
    resultLabel outcome = resultLabel other ↔ outcome = other := by
  rcases outcome with _ | _ | _ <;> rcases other with _ | _ | _ <;> decide

end Metrics

namespace Queue

theorem ready_add (q : Queue) (key : String) :
    (q.add key).ready = if q.admits key then q.ready ++ [key] else q.ready := by
  unfold add admits
  by_cases hopen : q.isShutDown
  · simp [hopen]
  · by_cases hdirty : key ∈ q.dirty
    · simp [hdirty]
    · by_cases hheld : key ∈ q.held
      · simp [hopen, hdirty, hheld]
      · simp [hopen, hdirty, hheld]

end Queue

namespace Dispenser

def IsShown (d : Dispenser) : Prop := d.depth = d.queue.size

variable {d : Dispenser}

/-- A key that is added is reported unless it is marked only, which leaves the depth as it is. -/
theorem IsShown.add (h : d.IsShown) (key : String) : (d.add key).IsShown := by
  unfold IsShown at h ⊢
  by_cases hadmits : d.queue.admits key
  · simp [Dispenser.add, hadmits]
  · simp [Dispenser.add, hadmits, h, Queue.size, Queue.ready_add]

/-- A key that is released is reported if it becomes ready again, and the depth stays otherwise. -/
theorem IsShown.done (h : d.IsShown) (key : String) : (d.done key).IsShown := by
  unfold IsShown at h ⊢
  by_cases hreadmits : d.queue.readmits key
  · simp [Dispenser.done, hreadmits]
  · simp [Dispenser.done, hreadmits, h, Queue.size, Queue.done]

end Dispenser

namespace WorkQueue

variable {w w' : WorkQueue} {handling? : Option Handling} {handlings : List Handling}

structure Counts (w : WorkQueue) (handlings : List Handling) (w' : WorkQueue) : Prop where
  isMeasured : w'.isMeasured = w.isMeasured
  results : w'.metrics.results = w.metrics.results
  retries : w.isMeasured →
    w'.metrics.retries = w.metrics.retries + handlings.countP Handling.isRetry
  shown : w.dispenser.IsShown → w'.dispenser.IsShown
  gauge : w.isMeasured → w.metrics.depth = w.dispenser.depth →
    w'.metrics.depth = w'.dispenser.depth

theorem Counts.follow {d : Dispenser} (hretry : handlings.countP Handling.isRetry = 0)
    (hshown : w.dispenser.IsShown → d.IsShown) : w.Counts handlings (w.follow d) := by
  have hmetrics : (w.follow d).metrics =
      if w.isMeasured then w.metrics.setDepth d.depth else w.metrics := rfl
  refine ⟨rfl, ?_, fun hm ↦ ?_, hshown, fun hm _ ↦ ?_⟩
  · rw [hmetrics]
    split <;> rfl
  · rw [hmetrics, if_pos hm, hretry]
    rfl
  · rw [hmetrics, if_pos hm]
    rfl

theorem Counts.retryLater (w : WorkQueue) (key : String) :
    w.Counts [.retried key] (w.retryLater key) := by
  have hmetrics : (w.retryLater key).metrics =
      if w.isMeasured then w.metrics.retry else w.metrics := rfl
  refine ⟨rfl, ?_, fun hm ↦ ?_, id, fun hm hdepth ↦ ?_⟩
  · rw [hmetrics]
    split <;> rfl
  · rw [hmetrics, if_pos hm]
    rfl
  · rw [hmetrics, if_pos hm]
    exact hdepth

theorem Undergoes.counts (h : w.Undergoes handling? w') : w.Counts handling?.toList w' := by
  cases h with
  | added key => exact .follow rfl (·.add key)
  | handedOut _ reported => exact .follow rfl fun _ ↦ reported
  | released => exact .follow rfl (·.done _)
  | forgotten => exact .follow rfl id
  | retried key => exact .retryLater w key
  | @timedOut t =>
    have h : Counts { w with now := max w.now t.due, timers := w.timers.erase t } [.timedOut t.key]
        _ := .follow rfl (·.add t.key)
    exact ⟨h.isMeasured, h.results, h.retries, h.shown, h.gauge⟩
  | waited => exact ⟨rfl, rfl, fun _ ↦ rfl, id, fun _ ↦ id⟩
  | untouched same unreported =>
    refine .follow rfl fun hshown ↦ ?_
    rw [Dispenser.IsShown, same, unreported]
    exact hshown

end WorkQueue

namespace Session

variable {s s' : Session}

theorem countP_handling?_of_ne {a : Act} (hne : ∀ key, a ≠ .takes (.retryLater key)) :
    (s.handling? a).toList.countP Handling.isRetry = 0 := by
  rw [List.countP_eq_zero]
  intro handling hmem
  rw [Option.mem_toList] at hmem
  cases a with
  | goesOff =>
    obtain rfl := Option.some.inj hmem
    simp [Handling.isRetry]
  | takes a =>
    cases a with
    | add | forget =>
      obtain rfl := Option.some.inj hmem
      simp [Handling.isRetry]
    | request | release | fire =>
      obtain ⟨_, -, rfl⟩ := Option.map_eq_some_iff.1 hmem
      simp [Handling.isRetry]
    | ask | abandon | signal | signalAll | wait | shutDown => contradiction
    | retryLater key => exact absurd rfl (hne key)

/-- Also when the queue is shut down. -/
theorem counts_of_act? {a : Act} (hs : s.Sound) (ha : s.act? a = some s') :
    s.work.Counts (s.handling? a).toList s'.work := by
  by_cases hopen : a = .takes .shutDown
  · subst hopen
    obtain rfl := Option.some.inj ha
    exact .follow rfl id
  · exact (undergoes_of_act? hs ha hopen).counts

end Session

inductive Ending where
  | succeeded
  | failed (failure : Failure)
  -- It broke off, with what it said if that was a text.
  | crashed (text : Option String)
deriving DecidableEq, Repr

namespace Ending

def result : Ending → Except Failure Unit
  | succeeded => .ok ()
  | failed failure => .error failure
  | crashed text => .error (.ofCrash text)

def outcome : Ending → Option Severity
  | succeeded => none
  | failed failure => some failure.severity
  | crashed _ => some .transient

end Ending

theorem WorkQueue.conclude_result (w : WorkQueue) (key : String) (ending : Ending) :
    w.conclude key ending.result =
      let counted := { w with metrics := w.metrics.record ending.outcome }
      match ending.outcome with
      | some .transient => counted.retryLater key
      | some .terminal | none => counted.forget key := by
  cases ending with
  | succeeded | crashed => rfl
  | failed failure =>
    cases hsevere : failure.severity <;> simp [conclude, Ending.result, Ending.outcome, hsevere]

/-- A pass that has ended: the request on which its key was handed out, the key, and how the pass
ended. -/
structure Verdict where
  id : Nat
  key : String
  ending : Ending
deriving DecidableEq, Repr

namespace Verdict

abbrev outcome (v : Verdict) : Option Severity := v.ending.outcome

def reply (v : Verdict) : Session.Act :=
  match v.outcome with
  | some .transient => .takes (.retryLater v.key)
  | some .terminal | none => .takes (.forget v.key)

end Verdict

/-- A session in which workers make passes over the keys that they hold, and what has happened so
far. -/
structure Tally where
  session : Session
  -- What was done with keys, the latest first.
  handlings : List Handling
  -- The passes that have ended and are counted, the latest first.
  passes : List Verdict
  -- Those of them of which the queue is still to be told.
  pending : List Verdict

namespace Tally

inductive Action where
  | act (a : Session.Act)
  -- The pass ends over the key that was handed out on the request, and its result is counted.
  | judge (id : Nat) (ending : Ending)
  | reply (id : Nat)
deriving DecidableEq, Repr

def start (backoff : Backoff) : Tally := ⟨.start backoff true, [], [], []⟩

abbrev work (t : Tally) : WorkQueue := t.session.work

abbrev queue (t : Tally) : Queue := t.session.queue

abbrev metrics (t : Tally) : Metrics := t.work.metrics

def act? (t : Tally) (a : Session.Act) : Option Tally :=
  (t.session.act? a).map fun session ↦
    { t with session, handlings := (t.session.handling? a).toList ++ t.handlings }

def judged (t : Tally) (v : Verdict) : Tally where
  session := { t.session with
    work := { t.work with metrics := t.metrics.record v.outcome } }
  handlings := t.handlings
  passes := v :: t.passes
  pending := v :: t.pending

def step? (t : Tally) : Action → Option Tally
  | .act a => if t.pending.any fun v ↦ a = .takes (.release v.id) then none else t.act? a
  | .judge id ending =>
    if id ∈ t.passes.map Verdict.id then none
    else (t.session.holders.find? (·.1 = id)).map fun h ↦ t.judged ⟨id, h.2, ending⟩
  | .reply id =>
    (t.pending.find? (·.id = id)).bind fun v ↦
      { t with pending := t.pending.erase v }.act? v.reply

def run (t : Tally) : List Action → Option Tally
  | [] => some t
  | a :: rest => (t.step? a).bind (·.run rest)

variable {t t' : Tally} {a : Action} {actions : List Action}

theorem act?_eq_some {a : Session.Act} (h : t.act? a = some t') :
    ∃ session, t.session.act? a = some session ∧
      t' = { t with session, handlings := (t.session.handling? a).toList ++ t.handlings } := by
  obtain ⟨session, hsession, rfl⟩ := Option.map_eq_some_iff.1 h
  exact ⟨session, hsession, rfl⟩

theorem judge_eq_some {id : Nat} {ending : Ending} (h : t.step? (.judge id ending) = some t') :
    id ∉ t.passes.map Verdict.id ∧ ∃ key, t' = t.judged ⟨id, key, ending⟩ := by
  rw [step?] at h
  split at h
  · contradiction
  · next hnew =>
    obtain ⟨holder, -, rfl⟩ := Option.map_eq_some_iff.1 h
    exact ⟨hnew, holder.2, rfl⟩

theorem reply_eq_some {id : Nat} (h : t.step? (.reply id) = some t') :
    ∃ v ∈ t.pending, v.id = id ∧
      act? { t with pending := t.pending.erase v } v.reply = some t' := by
  obtain ⟨v, hfound, hact⟩ := Option.bind_eq_some_iff.1 h
  exact ⟨v, List.mem_of_find?_eq_some hfound, by simpa using List.find?_some hfound, hact⟩

structure Agrees (t : Tally) : Prop where
  sound : t.session.Sound
  distinct : t.session.Distinct
  isMeasured : t.work.isMeasured
  shown : t.work.dispenser.IsShown
  gauge : t.metrics.depth = t.work.dispenser.depth
  retries : t.metrics.retries = t.handlings.countP Handling.isRetry
  total : t.metrics.total = t.passes.length
  count (outcome : Option Severity) :
    t.metrics.count (Metrics.resultLabel outcome) = t.passes.countP (·.outcome = outcome)
  pending : t.pending ⊆ t.passes

namespace Agrees

theorem start (backoff : Backoff) : (start backoff).Agrees where
  sound := Session.sound_start backoff true
  distinct := Session.distinct_start backoff true
  isMeasured := rfl
  shown := rfl
  gauge := rfl
  retries := rfl
  total := rfl
  count _ := rfl
  pending := List.nil_subset _

theorem act? {a : Session.Act} (h : t.Agrees) (ha : t.act? a = some t') : t'.Agrees := by
  obtain ⟨session, hsession, rfl⟩ := act?_eq_some ha
  have hcounts := Session.counts_of_act? h.sound hsession
  refine ⟨h.sound.act? hsession, h.distinct.act? h.sound hsession,
    hcounts.isMeasured.trans h.isMeasured, hcounts.shown h.shown,
    hcounts.gauge h.isMeasured h.gauge, ?_, ?_, fun outcome ↦ ?_, h.pending⟩
  · rw [List.countP_append, Nat.add_comm, ← h.retries]
    exact hcounts.retries h.isMeasured
  · have htotal : session.work.metrics.total = t.metrics.total := by
      rw [Metrics.total, hcounts.results, Metrics.total]
    exact htotal.trans h.total
  · have hcount : session.work.metrics.count (Metrics.resultLabel outcome) =
        t.metrics.count (Metrics.resultLabel outcome) := by
      rw [Metrics.count, hcounts.results, Metrics.count]
    exact hcount.trans (h.count outcome)

theorem judged (h : t.Agrees) (v : Verdict) : (t.judged v).Agrees where
  sound := ⟨h.sound.accounted, h.sound.held_by⟩
  distinct := h.distinct.same ⟨rfl, rfl⟩
  isMeasured := h.isMeasured
  shown := h.shown
  gauge := h.gauge
  retries := h.retries
  total := (Metrics.total_record t.metrics v.outcome).trans (congrArg (· + 1) h.total)
  count outcome := by
    change (t.metrics.record v.outcome).count _ = (v :: t.passes).countP _
    rw [Metrics.count_record, h.count, List.countP_cons]
    simp [Metrics.resultLabel_inj, eq_comm]
  pending := List.cons_subset_cons v h.pending

theorem step? (h : t.Agrees) (ht : t.step? a = some t') : t'.Agrees := by
  cases a with
  | act a =>
    rw [Tally.step?] at ht
    split at ht
    · contradiction
    · exact h.act? ht
  | judge id ending =>
    obtain ⟨-, key, rfl⟩ := judge_eq_some ht
    exact h.judged _
  | reply id =>
    obtain ⟨v, -, -, hact⟩ := reply_eq_some ht
    have herased : Agrees { t with pending := t.pending.erase v } :=
      { h with pending := fun u hu ↦ h.pending (List.mem_of_mem_erase hu) }
    exact herased.act? hact

theorem run (h : t.Agrees) (ht : t.run actions = some t') : t'.Agrees := by
  induction actions generalizing t with
  | nil => exact Option.some.inj ht ▸ h
  | cons a rest ih =>
    obtain ⟨u, hu, hrest⟩ := Option.bind_eq_some_iff.1 ht
    exact ih (h.step? hu) hrest

end Agrees

/-- Each pass that can be retried was retried, or is about to be, and nothing else was. -/
def Balanced (t : Tally) : Prop :=
  t.handlings.countP Handling.isRetry + t.pending.countP (·.outcome = some .transient) =
    t.passes.countP (·.outcome = some .transient)

theorem countP_reply (s : Session) (v : Verdict) :
    (s.handling? v.reply).toList.countP Handling.isRetry =
      if v.outcome = some .transient then 1 else 0 := by
  unfold Verdict.reply
  cases v.outcome with
  | none => rfl
  | some severity => cases severity <;> rfl

theorem Balanced.reply {v : Verdict} (h : t.Balanced) (hmem : v ∈ t.pending)
    (ht : act? { t with pending := t.pending.erase v } v.reply = some t') : t'.Balanced := by
  obtain ⟨session, -, rfl⟩ := act?_eq_some ht
  have hpending := (List.perm_cons_erase hmem).countP_eq (·.outcome = some .transient)
  rw [List.countP_cons] at hpending
  unfold Balanced at h ⊢
  rw [List.countP_append, countP_reply]
  simp only [decide_eq_true_eq] at hpending ⊢
  omega

theorem Balanced.step? (h : t.Balanced) (ht : t.step? a = some t')
    (hne : ∀ key, a ≠ .act (.takes (.retryLater key))) : t'.Balanced := by
  cases a with
  | act a =>
    rw [Tally.step?] at ht
    split at ht
    · contradiction
    · obtain ⟨session, -, rfl⟩ := act?_eq_some ht
      have hretry : (t.session.handling? a).toList.countP Handling.isRetry = 0 :=
        Session.countP_handling?_of_ne fun key ha ↦ hne key (congrArg Action.act ha)
      unfold Balanced
      rw [List.countP_append, hretry, Nat.zero_add]
      exact h
  | judge id ending =>
    obtain ⟨-, key, rfl⟩ := judge_eq_some ht
    unfold Balanced at h ⊢
    simp only [judged, List.countP_cons]
    omega
  | reply id =>
    obtain ⟨v, hmem, -, hact⟩ := reply_eq_some ht
    exact h.reply hmem hact

theorem Balanced.run (h : t.Balanced) (ht : t.run actions = some t')
    (hne : ∀ key, .act (.takes (.retryLater key)) ∉ actions) : t'.Balanced := by
  induction actions generalizing t with
  | nil => exact Option.some.inj ht ▸ h
  | cons a rest ih =>
    obtain ⟨u, hu, hrest⟩ := Option.bind_eq_some_iff.1 ht
    refine ih (h.step? hu fun key ha ↦ ?_) hrest fun key hmem ↦ ?_
    · exact hne key (ha ▸ List.mem_cons_self)
    · exact hne key (List.mem_cons_of_mem _ hmem)

/-- What a worker does, or anybody else, if no worker is interrupted between counting a result and
its reply. -/
inductive Operation where
  | act (a : Session.Act)
  | conclude (id : Nat) (ending : Ending)
deriving DecidableEq, Repr

def Operation.parts : Operation → List Action
  | act a => [.act a]
  | conclude id ending => [.judge id ending, .reply id]

theorem pending_operation {o : Operation} (h : t.pending = []) (ht : t.run o.parts = some t') :
    t'.pending = [] := by
  cases o with
  | act a =>
    obtain ⟨u, hu, hrest⟩ := Option.bind_eq_some_iff.1 ht
    obtain rfl := Option.some.inj hrest
    rw [step?] at hu
    split at hu
    · contradiction
    · obtain ⟨session, -, rfl⟩ := act?_eq_some hu
      exact h
  | conclude id ending =>
    obtain ⟨u, hu, hrest⟩ := Option.bind_eq_some_iff.1 ht
    obtain ⟨u', hu', hlast⟩ := Option.bind_eq_some_iff.1 hrest
    obtain rfl := Option.some.inj hlast
    obtain ⟨-, key, rfl⟩ := judge_eq_some hu
    obtain ⟨v, hmem, -, hact⟩ := reply_eq_some hu'
    obtain ⟨session, -, rfl⟩ := act?_eq_some hact
    simp only [judged, h, List.mem_singleton] at hmem
    simp [judged, h, hmem]

theorem run_append (t : Tally) (first second : List Action) :
    t.run (first ++ second) = (t.run first).bind (·.run second) := by
  induction first generalizing t with
  | nil => rfl
  | cons a rest ih =>
    rw [List.cons_append, run, run, Option.bind_assoc]
    exact congrArg _ (funext fun u ↦ ih u)

theorem pending_operations {operations : List Operation} (h : t.pending = [])
    (ht : t.run (operations.flatMap Operation.parts) = some t') : t'.pending = [] := by
  induction operations generalizing t with
  | nil => exact Option.some.inj ht ▸ h
  | cons o rest ih =>
    rw [List.flatMap_cons, run_append] at ht
    obtain ⟨u, hu, hrest⟩ := Option.bind_eq_some_iff.1 ht
    exact ih (pending_operation h hu) hrest

/-- The worker's reply is the rest of what it does once its pass has ended. -/
theorem exists_reply (t : Tally) (v : Verdict) :
    ∃ t', (t.judged v).step? (.reply v.id) = some t' ∧
      t'.session = { t.session with work := t.work.conclude v.key v.ending.result } ∧
      t'.passes = v :: t.passes ∧ t'.pending = t.pending := by
  have hfound : (t.judged v).pending.find? (·.id = v.id) = some v :=
    List.find?_cons_of_pos (by simp)
  have hreply : (t.judged v).session.act? v.reply =
      some { t.session with work := t.work.conclude v.key v.ending.result } := by
    rw [WorkQueue.conclude_result, Verdict.reply]
    cases houtcome : v.outcome with
    | none => simp [judged, Session.act?, Session.step?, houtcome]
    | some severity => cases severity <;> simp [judged, Session.act?, Session.step?, houtcome]
  let replied : Tally :=
    { session := { t.session with work := t.work.conclude v.key v.ending.result }
      handlings := ((t.judged v).session.handling? v.reply).toList ++ t.handlings
      passes := v :: t.passes
      pending := t.pending }
  refine ⟨replied, ?_, rfl, rfl, rfl⟩
  rw [step?, hfound, Option.bind_some, act?]
  dsimp only
  rw [hreply, Option.map_some]
  simp [judged, replied]

/-- A worker can have its pass counted and then release its key, and so finishes with the key. -/
theorem exists_finish {id : Nat} {key : String} (h : t.Agrees)
    (hmem : (id, key) ∈ t.session.holders) (hnew : id ∉ t.passes.map Verdict.id)
    (ending : Ending) :
    ∃ t', t.run [.judge id ending, .reply id, .act (.takes (.release id))] = some t' ∧
      t'.work = t.work.finish key ending.result := by
  have hjudge : t.step? (.judge id ending) = some (t.judged ⟨id, key, ending⟩) := by
    rw [step?, if_neg hnew, h.distinct.find?_holders hmem]
    rfl
  obtain ⟨u, hreply, hsession, -, hpending⟩ := t.exists_reply ⟨id, key, ending⟩
  have hu := (h.step? hjudge).step? hreply
  have hfree : (u.pending.any fun v ↦ Session.Act.takes (.release id) = .takes (.release v.id)) =
      false := by
    rw [hpending, List.any_eq_false]
    intro v hv he
    have hid : id = v.id := by simpa using he
    exact hnew (List.mem_map.2 ⟨v, h.pending hv, hid.symm⟩)
  have hheld : (id, key) ∈ u.session.holders := by
    rw [hsession]
    exact hmem
  let released : Tally := { u with
    session := ⟨u.work.done key, u.session.holders.erase (id, key)⟩
    handlings := (u.session.handling? (.takes (.release id))).toList ++ u.handlings }
  have hrelease : u.step? (.act (.takes (.release id))) = some released := by
    have hact : u.session.act? (.takes (.release id)) = _ := hu.distinct.release_eq hheld
    rw [step?, hfree, if_neg Bool.false_ne_true, act?, hact]
    rfl
  refine ⟨released, ?_, ?_⟩
  · simp [run, hjudge, hreply, hrelease]
  · change u.work.done key = _
    rw [work, hsession]
    rfl

/-- Whatever happens at a queue whose collectors are new, the depth shown is that of the queue, the
retries are those that were asked for, and the results are those of the passes that have ended, each
with its own label. If nobody but the workers asks for retries, these are the failures for now, less
those whose worker has counted the result but has not replied; so they are equal if that is done in
one go. A worker whose pass ends can always go through with that. -/
theorem counts_agree {backoff : Backoff} (h : (start backoff).run actions = some t) :
    t.metrics.depth = t.queue.size ∧
    t.metrics.retries = t.handlings.countP Handling.isRetry ∧
    t.metrics.total = t.passes.length ∧
    t.metrics.count "success" = t.passes.countP (·.outcome = none) ∧
    t.metrics.count "transient" = t.passes.countP (·.outcome = some .transient) ∧
    t.metrics.count "terminal" = t.passes.countP (·.outcome = some .terminal) ∧
    ((∀ key, .act (.takes (.retryLater key)) ∉ actions) →
      t.metrics.retries + t.pending.countP (·.outcome = some .transient) =
        t.metrics.count "transient" ∧
      ∀ operations : List Operation, actions = operations.flatMap Operation.parts →
        t.metrics.retries = t.metrics.count "transient") ∧
    ∀ id key ending, (id, key) ∈ t.session.holders → id ∉ t.passes.map Verdict.id →
      ∃ t', t.run [.judge id ending, .reply id, .act (.takes (.release id))] = some t' ∧
        t'.work = t.work.finish key ending.result := by
  have hagrees := (Agrees.start backoff).run h
  have htransient := hagrees.count (some .transient)
  have hdepth : t.metrics.depth = t.queue.size :=
    hagrees.gauge.trans (congrArg Nat.cast hagrees.shown)
  refine ⟨hdepth, hagrees.retries, hagrees.total, hagrees.count none, htransient,
    hagrees.count (some .terminal), fun hworkers ↦ ?_,
    fun id key ending hmem hnew ↦ exists_finish hagrees hmem hnew ending⟩
  have hbalanced : t.Balanced := Balanced.run (t := start backoff) rfl h hworkers
  have hall : t.metrics.retries + t.pending.countP (·.outcome = some .transient) =
      t.metrics.count "transient" := by
    rw [hagrees.retries]
    exact hbalanced.trans htransient.symm
  refine ⟨hall, fun operations hactions ↦ ?_⟩
  have hnone : t.pending = [] := pending_operations (t := start backoff) rfl (hactions ▸ h)
  rwa [hnone, List.countP_nil, Nat.add_zero] at hall

/-- Two workers, one of whose passes breaks off while the other fails for good, and a key that waits
when the queue is shut down. -/
theorem counts_agree_of_crashed :
    ∃ t, (start ⟨1, 8⟩).run [.act (.takes (.add "ns/x")), .act (.takes (.add "ns/y")),
        .act (.takes (.add "ns/z")), .act (.takes .ask), .act (.takes .ask),
        .act (.takes (.request 0)), .act (.takes (.request 1)), .judge 0 (.crashed none), .reply 0,
        .act (.takes (.add "ns/x")), .judge 1 (.failed (.invalidSpec "no image")), .reply 1,
        .act (.takes (.release 0)), .act (.takes .shutDown), .act (.takes (.release 1))] = some t ∧
      t.queue.ready = ["ns/z", "ns/x"] ∧ t.metrics.depth = t.queue.size ∧
      t.metrics.retries = 1 ∧ t.metrics.total = 2 ∧ t.metrics.count "success" = 0 ∧
      t.metrics.count "terminal" = 1 ∧ t.metrics.retries = t.metrics.count "transient" := by
  obtain ⟨t, ht⟩ : ∃ t, (start ⟨1, 8⟩).run [.act (.takes (.add "ns/x")),
      .act (.takes (.add "ns/y")), .act (.takes (.add "ns/z")), .act (.takes .ask),
      .act (.takes .ask), .act (.takes (.request 0)), .act (.takes (.request 1)),
      .judge 0 (.crashed none), .reply 0, .act (.takes (.add "ns/x")),
      .judge 1 (.failed (.invalidSpec "no image")), .reply 1, .act (.takes (.release 0)),
      .act (.takes .shutDown), .act (.takes (.release 1))] = some t := ⟨_, rfl⟩
  obtain ⟨hdepth, hretries, htotal, hsuccess, -, hterminal, hworkers, -⟩ := counts_agree ht
  have hequal := (hworkers (by simp)).2 [.act (.takes (.add "ns/x")), .act (.takes (.add "ns/y")),
    .act (.takes (.add "ns/z")), .act (.takes .ask), .act (.takes .ask), .act (.takes (.request 0)),
    .act (.takes (.request 1)), .conclude 0 (.crashed none), .act (.takes (.add "ns/x")),
    .conclude 1 (.failed (.invalidSpec "no image")), .act (.takes (.release 0)),
    .act (.takes .shutDown), .act (.takes (.release 1))] rfl
  cases ht
  exact ⟨_, rfl, rfl, hdepth, hretries, htotal, hsuccess, hterminal, hequal⟩

end Tally

end Submarine
