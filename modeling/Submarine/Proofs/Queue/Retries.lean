import Mathlib.Data.List.Forall2
import Submarine.Proofs.Queue.Requests
import Submarine.Proofs.Queue.Wanting

namespace Submarine

namespace WorkQueue

variable {w w' : WorkQueue} {t : Timer} {key : String}

def goOff? (w : WorkQueue) (t : Timer) : Option WorkQueue :=
  if t ∈ w.timers ∧ t.due ≤ w.now then some ({ w with timers := w.timers.erase t }.add t.key)
  else none

theorem fire?_eq_goOff? {rest : List Timer} (h : w.timers = t :: rest) :
    w.fire? = goOff? { w with now := max w.now t.due } t := by
  have hdue : t.due ≤ max w.now t.due := Nat.le_max_right _ _
  simp [fire?, goOff?, h, hdue]

theorem goOff?_eq_some (h : w.goOff? t = some w') :
    (t ∈ w.timers ∧ t.due ≤ w.now) ∧ w' = { w with timers := w.timers.erase t }.add t.key := by
  unfold goOff? at h
  split at h
  · next hdue => exact ⟨hdue, (Option.some.inj h).symm⟩
  · contradiction

theorem le_wholeMillis (time : Nat) : time ≤ wholeMillis time := by
  unfold wholeMillis Time.nanosPerMilli
  omega

theorem Wants.goOff (h : w.Wants key) (hopen : w.queue.isShutDown = false) (t : Timer) :
    ({ w with timers := w.timers.erase t }.add t.key).Wants key := by
  by_cases hkey : t.key = key
  · rw [hkey]
    exact wants_add (by exact hopen) key
  · have hkept : Wants { w with timers := w.timers.erase t } key := by
      rcases h with hd | ⟨u, hu, hukey⟩
      · exact .inl hd
      · have hne : u ≠ t := by
          rintro rfl
          exact hkey hukey
        exact .inr ⟨u, (List.mem_erase_of_ne hne).2 hu, hukey⟩
    exact hkept.add t.key

end WorkQueue

namespace Session

/-- The action neither ends a pass, nor lets a timer go off, nor shuts the queue down. -/
def Action.isPlain : Action → Bool
  | .add _ | .ask | .request _ | .abandon _ | .signal | .wait _ => true
  | .signalAll | .release _ | .forget _ | .retryLater _ | .fire | .shutDown => false

variable {s s' : Session} {a : Action} {key : String}

theorem work_answered (s : Session) (id : Nat) (d : Dispenser) :
    (s.answered id d).work = s.work.follow d ∨
      (s.answered id d).work = s.work.follow (d.abandon id) := by
  unfold answered
  split
  · exact .inr rfl
  · exact .inl rfl

structure Alike (s s' : Session) : Prop where
  failures : s'.queue.failures = s.queue.failures
  isShutDown : s'.queue.isShutDown = s.queue.isShutDown
  timers : s'.work.timers = s.work.timers
  backoff : s'.work.backoff = s.work.backoff
  holders : s.holders ⊆ s'.holders

theorem alike_of_plain (h : s.step? a = some s') (ha : a.isPlain) : s.Alike s' := by
  have hholders := List.Subset.refl s.holders
  cases a with
  | add key =>
    obtain rfl := Option.some.inj h
    refine ⟨?_, Queue.isShutDown_add s.queue key, rfl, rfl, hholders⟩
    change (s.queue.add key).failures = s.queue.failures
    unfold Queue.add
    split_ifs <;> rfl
  | ask | wait =>
    obtain rfl := Option.some.inj h
    exact ⟨rfl, rfl, rfl, rfl, hholders⟩
  | request id =>
    obtain ⟨d, hd, rfl⟩ := Option.map_eq_some_iff.1 h
    have hfailures : d.queue.failures = s.queue.failures := by
      rcases Dispenser.queue_step? hd with ⟨-, hqueue⟩ | ⟨key, -, htake⟩
      · rw [hqueue]
      · obtain ⟨-, _, -, hqueue⟩ := Queue.take_eq_key htake
        rw [hqueue]
    refine ⟨?_, ?_, ?_, ?_, ?_⟩
    · rw [queue_answered, hfailures]
    · rw [queue_answered, Dispenser.isShutDown_step? hd]
    · rcases work_answered s id d with hw | hw <;> rw [hw] <;> rfl
    · rcases work_answered s id d with hw | hw <;> rw [hw] <;> rfl
    · rw [holders_answered]
      exact List.subset_append_right _ _
  | abandon id =>
    obtain ⟨_, -, rfl⟩ := Option.map_eq_some_iff.1 h
    exact ⟨rfl, rfl, rfl, rfl, hholders⟩
  | signal =>
    obtain ⟨d, hd, rfl⟩ := Option.map_eq_some_iff.1 h
    have hqueue := Dispenser.Accounted.queue_signal? hd
    exact ⟨congrArg Queue.failures hqueue, congrArg Queue.isShutDown hqueue, rfl, rfl, hholders⟩
  | signalAll | release | forget | retryLater | fire | shutDown => contradiction

/-- What is wanted stays wanted, unless it is handed to a worker that did not hold a key. -/
theorem wants_of_plain (hs : s.Sound) (hd : s.Distinct) (h : s.step? a = some s') (ha : a.isPlain)
    (hwants : s.work.Wants key) :
    s'.work.Wants key ∨ ∃ id, (id, key) ∈ s'.holders ∧ id ∉ s.holders.map Prod.fst := by
  have horderly := hs.accounted.toOrderly
  cases a with
  | add j =>
    obtain rfl := Option.some.inj h
    exact .inl (hwants.add j)
  | ask =>
    obtain rfl := Option.some.inj h
    exact .inl hwants.takeLater
  | wait =>
    obtain rfl := Option.some.inj h
    exact .inl hwants
  | request id =>
    obtain ⟨d, hstep, rfl⟩ := Option.map_eq_some_iff.1 h
    have hfollow : (s.work.follow d).Wants key := hwants.follow fun hw ↦ hw.step? horderly hstep
    unfold answered
    split
    · next key? hstage =>
      rcases hfollow with hw | htimer
      · rcases hw.abandon (hs.accounted.step? hstep).toOrderly hstage with hw | hkey
        · exact .inl (.inl hw)
        · obtain rfl : key? = some key := hkey
          obtain ⟨old, hold⟩ := Dispenser.stage?_of_step? hstep
          refine .inr ⟨id, List.mem_cons_self .., fun hmem ↦ ?_⟩
          obtain ⟨holder, hholder, rfl⟩ := List.mem_map.1 hmem
          exact hd.gone holder hholder (Dispenser.mem_ids_of_stage? hold)
      · exact .inl (.inr htimer)
    · exact .inl hfollow
  | abandon id =>
    obtain ⟨stage, hstage, rfl⟩ := Option.map_eq_some_iff.1 h
    refine .inl (hwants.follow fun hw ↦ (hw.abandon horderly hstage).resolve_right fun hkey ↦ ?_)
    have hmem : key ∈ s.work.dispenser.handed :=
      List.mem_filterMap.2 ⟨_, Dispenser.mem_takers_of_stage? hstage, hkey⟩
    simp [hs.handed_eq_nil] at hmem
  | signal =>
    obtain ⟨d, hsignal, rfl⟩ := Option.map_eq_some_iff.1 h
    exact .inl (hwants.follow fun hw ↦ hw.signal? horderly hsignal)
  | signalAll | release | forget | retryLater | fire | shutDown => contradiction

end Session

structure Attempt where
  key : String
  result : Except Failure Unit
  time : Nat

namespace Attempt

def isRetried (a : Attempt) : Bool :=
  match a.result with
  | .ok () => false
  | .error f => f.severity = .transient

theorem exists_failure {a : Attempt} (h : a.isRetried) :
    ∃ f, a.result = .error f ∧ f.severity = .transient := by
  unfold isRetried at h
  split at h
  · contradiction
  · next f hf => exact ⟨f, hf, of_decide_eq_true h⟩

def timer (a : Attempt) (backoff : Backoff) (failures : Nat) : Timer :=
  ⟨WorkQueue.wholeMillis (a.time + min (backoff.delay failures) WorkQueue.longestTimer), a.key⟩

theorem le_due_timer (a : Attempt) (backoff : Backoff) (failures : Nat) :
    a.time + min (backoff.delay failures) WorkQueue.longestTimer ≤ (a.timer backoff failures).due :=
  WorkQueue.le_wholeMillis _

end Attempt

namespace WorkQueue

theorem conclude_isRetried (w : WorkQueue) (key : String) (result : Except Failure Unit) :
    ∃ metrics, (⟨key, result, w.now⟩ : Attempt).isRetried ∧
        w.conclude key result = { w with metrics }.retryLater key ∨
      (⟨key, result, w.now⟩ : Attempt).isRetried = false ∧
        w.conclude key result = { w with metrics }.forget key := by
  obtain ⟨metrics, ⟨⟨f, rfl, hf⟩, hw⟩ | ⟨hf, hw⟩⟩ := w.conclude_cases key result
  · exact ⟨metrics, .inl ⟨by simp [Attempt.isRetried, hf], hw⟩⟩
  · refine ⟨metrics, .inr ⟨?_, hw⟩⟩
    cases result with
    | ok => rfl
    | error f => simp [Attempt.isRetried, hf f rfl]

theorem failureCount_conclude (w : WorkQueue) (key : String) (result : Except Failure Unit)
    (j : String) : (w.conclude key result).queue.failureCount j =
      if j = key then
        if (⟨key, result, w.now⟩ : Attempt).isRetried
        then min (w.queue.failureCount key + 1) Queue.maxFailures else 0
      else w.queue.failureCount j := by
  obtain ⟨metrics, ⟨hr, hw⟩ | ⟨hr, hw⟩⟩ := w.conclude_isRetried key result
  · rw [hw, hr]
    exact Queue.failureCount_countFailure w.queue key j
  · rw [hw, hr]
    exact Queue.failureCount_forget w.queue key j

theorem timers_conclude (w : WorkQueue) (key : String) (result : Except Failure Unit) :
    (w.conclude key result).timers =
      if (⟨key, result, w.now⟩ : Attempt).isRetried then
        insertTimer ((⟨key, result, w.now⟩ : Attempt).timer w.backoff (w.queue.failureCount key))
          w.timers
      else w.timers := by
  obtain ⟨metrics, ⟨hr, hw⟩ | ⟨hr, hw⟩⟩ := w.conclude_isRetried key result
  · rw [hw, hr]
    rfl
  · rw [hw, hr]
    rfl

theorem backoff_conclude (w : WorkQueue) (key : String) (result : Except Failure Unit) :
    (w.conclude key result).backoff = w.backoff := by
  obtain ⟨metrics, ⟨-, hw⟩ | ⟨-, hw⟩⟩ := w.conclude_cases key result <;> rw [hw] <;> rfl

theorem held_conclude (w : WorkQueue) (key : String) (result : Except Failure Unit) :
    (w.conclude key result).queue.held = w.queue.held := by
  obtain ⟨metrics, ⟨-, hw⟩ | ⟨-, hw⟩⟩ := w.conclude_cases key result <;> rw [hw] <;> rfl

theorem sameTakers_conclude (w : WorkQueue) (key : String) (result : Except Failure Unit) :
    w.dispenser.SameTakers (w.conclude key result).dispenser := by
  obtain ⟨metrics, ⟨-, hw⟩ | ⟨-, hw⟩⟩ := w.conclude_cases key result <;> rw [hw] <;> exact ⟨rfl, rfl⟩

end WorkQueue

/-- How many of the latest passes over a key are to be retried, one after another. The latest pass
comes first. -/
def failuresOf (key : String) (passes : List Attempt) : Nat :=
  ((passes.filter (·.key = key)).takeWhile Attempt.isRetried).length

/-- The passes that are to be retried, each with the failures that were counted before it. -/
def retried : List Attempt → List (Attempt × Nat)
  | [] => []
  | a :: older =>
    if a.isRetried then (a, min (failuresOf a.key older) Queue.maxFailures) :: retried older
    else retried older

variable {key : String} {a : Attempt} {passes : List Attempt}

theorem failuresOf_cons_of_ne (h : a.key ≠ key) : failuresOf key (a :: passes) = failuresOf key passes := by
  simp [failuresOf, h]

theorem failuresOf_cons_self (a : Attempt) (passes : List Attempt) :
    failuresOf a.key (a :: passes) = if a.isRetried then failuresOf a.key passes + 1 else 0 := by
  by_cases hr : a.isRetried <;> simp [failuresOf, hr]

theorem failuresOf_pos (h : passes.find? (·.key = key) = some a) (hr : a.isRetried) :
    0 < failuresOf key passes := by
  induction passes with
  | nil => contradiction
  | cons b older ih =>
    by_cases hb : b.key = key
    · obtain rfl : b = a := by simpa [List.find?_cons, hb] using h
      rw [← hb, failuresOf_cons_self, if_pos hr]
      omega
    · rw [failuresOf_cons_of_ne hb]
      exact ih (by simpa [List.find?_cons, hb] using h)

structure Crew where
  session : Session
  -- The requests on which a key is held whose pass has ended.
  ended : List Nat
  passes : List Attempt
  -- The timers that have gone off, and when, the latest first.
  fired : List (Timer × Nat)

namespace Crew

inductive Action where
  | plain (a : Session.Action)
  | goOff (t : Timer)
  -- The pass ends over the key that was handed out on the request, and its result is counted.
  | conclude (id : Nat) (result : Except Failure Unit)
  | release (id : Nat)

def start (backoff : Backoff) (isMeasured : Bool) : Crew := ⟨.start backoff isMeasured, [], [], []⟩

abbrev work (c : Crew) : WorkQueue := c.session.work

abbrev queue (c : Crew) : Queue := c.session.queue

def concluded (c : Crew) (id : Nat) (key : String) (result : Except Failure Unit) : Crew where
  session := { c.session with work := c.work.conclude key result }
  ended := id :: c.ended
  passes := ⟨key, result, c.work.now⟩ :: c.passes
  fired := c.fired

def step? (c : Crew) : Action → Option Crew
  | .plain a => if a.isPlain then (c.session.step? a).map fun session ↦ { c with session } else none
  | .goOff t =>
    (c.work.goOff? t).map fun work ↦
      { c with session := { c.session with work }, fired := (t, c.work.now) :: c.fired }
  | .conclude id result =>
    if id ∈ c.ended then none
    else (c.session.holders.find? (·.1 = id)).map fun h ↦ c.concluded id h.2 result
  | .release id =>
    if id ∈ c.ended then
      (c.session.step? (.release id)).map fun session ↦
        { c with session, ended := c.ended.filter (· ≠ id) }
    else none

def run (c : Crew) : List Action → Option Crew
  | [] => some c
  | a :: rest => (c.step? a).bind (·.run rest)

variable {c c' : Crew} {id : Nat} {result : Except Failure Unit}

theorem conclude_eq_some (h : c.step? (.conclude id result) = some c') :
    id ∉ c.ended ∧ ∃ key, (id, key) ∈ c.session.holders ∧ c' = c.concluded id key result := by
  rw [step?] at h
  split at h
  · contradiction
  · next hrunning =>
    obtain ⟨holder, hfound, rfl⟩ := Option.map_eq_some_iff.1 h
    have hid : holder.1 = id := by simpa using List.find?_some hfound
    subst hid
    exact ⟨hrunning, holder.2, List.mem_of_find?_eq_some hfound, rfl⟩

theorem release_eq_some (h : c.step? (.release id) = some c') :
    id ∈ c.ended ∧ ∃ key, (id, key) ∈ c.session.holders ∧
      c' = { c with
        session := ⟨c.work.done key, c.session.holders.erase (id, key)⟩
        ended := c.ended.filter (· ≠ id) } := by
  rw [step?] at h
  split at h
  · next hended =>
    obtain ⟨session, hsession, rfl⟩ := Option.map_eq_some_iff.1 h
    obtain ⟨holder, hfound, rfl⟩ := Option.map_eq_some_iff.1 hsession
    have hid : holder.1 = id := by simpa using List.find?_some hfound
    subst hid
    exact ⟨hended, holder.2, List.mem_of_find?_eq_some hfound, rfl⟩
  · contradiction

def Minds (c : Crew) (key : String) : Prop :=
  c.work.Wants key ∨ ∃ id, (id, key) ∈ c.session.holders ∧ id ∉ c.ended

structure Sound (backoff : Backoff) (c : Crew) : Prop where
  session : c.session.Sound
  distinct : c.session.Distinct
  isOpen : c.queue.isShutDown = false
  backoff_eq : c.work.backoff = backoff
  ended : ∀ id ∈ c.ended, id ∈ c.session.holders.map Prod.fst
  counted : ∀ key, c.queue.failureCount key = min (failuresOf key c.passes) Queue.maxFailures
  timers : ((retried c.passes).map fun r ↦ r.1.timer backoff r.2).Perm
    (c.fired.map Prod.fst ++ c.work.timers)
  punctual : ∀ f ∈ c.fired, f.1.due ≤ f.2
  minds : ∀ key, 0 < failuresOf key c.passes → c.Minds key

namespace Sound

variable {backoff : Backoff} {c c' : Crew} {key : String}

theorem plain {a : Session.Action} {session : Session} (h : c.Sound backoff)
    (hstep : c.session.step? a = some session) (ha : a.isPlain) :
    Sound backoff { c with session } := by
  have halike := Session.alike_of_plain hstep ha
  have hcount (key : String) : session.queue.failureCount key = c.queue.failureCount key := by
    rw [Queue.failureCount, halike.failures]
    rfl
  refine ⟨h.session.step? hstep, h.distinct.step? h.session hstep, halike.isShutDown.trans h.isOpen,
    halike.backoff.trans h.backoff_eq, fun id hid ↦ ?_, fun key ↦ (hcount key).trans (h.counted key),
    ?_, h.punctual, fun key hkey ↦ ?_⟩
  · exact List.map_subset _ halike.holders (h.ended id hid)
  · change List.Perm _ (_ ++ session.work.timers)
    rw [halike.timers]
    exact h.timers
  · rcases h.minds key hkey with hwants | ⟨id, hmem, hid⟩
    · refine (Session.wants_of_plain h.session h.distinct hstep ha hwants).imp_right ?_
      rintro ⟨id, hmem, hnew⟩
      exact ⟨id, hmem, fun hid ↦ hnew (h.ended id hid)⟩
    · exact .inr ⟨id, halike.holders hmem, hid⟩

theorem goOff {t : Timer} {work : WorkQueue} (h : c.Sound backoff)
    (hwork : c.work.goOff? t = some work) :
    Sound backoff { c with
      session := { c.session with work }, fired := (t, c.work.now) :: c.fired } := by
  obtain ⟨⟨hmem, hdue⟩, rfl⟩ := WorkQueue.goOff?_eq_some hwork
  let later : WorkQueue := { c.work with timers := c.work.timers.erase t }
  have hsession : Session.Sound { c.session with work := later } :=
    ⟨h.session.accounted, h.session.held_by⟩
  have hdistinct : Session.Distinct { c.session with work := later } := h.distinct.same ⟨rfl, rfl⟩
  have hadd : Session.step? { c.session with work := later } (.add t.key) =
      some { c.session with work := later.add t.key } := rfl
  have halike := Session.alike_of_plain hadd rfl
  have hcount (key : String) : (later.add t.key).queue.failureCount key = c.queue.failureCount key := by
    rw [Queue.failureCount, halike.failures]
    rfl
  refine ⟨hsession.step? hadd, hdistinct.step? hsession hadd, halike.isShutDown.trans h.isOpen,
    h.backoff_eq, h.ended, fun key ↦ (hcount key).trans (h.counted key), ?_, ?_, fun key hkey ↦ ?_⟩
  · have hmoved : (c.fired.map Prod.fst ++ c.work.timers).Perm
        (t :: c.fired.map Prod.fst ++ c.work.timers.erase t) :=
      ((List.perm_cons_erase hmem).append_left _).trans List.perm_middle
    exact h.timers.trans hmoved
  · intro f hf
    rcases List.mem_cons.1 hf with rfl | hf
    · exact hdue
    · exact h.punctual f hf
  · exact (h.minds key hkey).imp_left fun hwants ↦ hwants.goOff h.isOpen t

theorem counted_concluded {id : Nat} {result : Except Failure Unit} (h : c.Sound backoff)
    (j : String) : (c.concluded id key result).queue.failureCount j =
      min (failuresOf j (c.concluded id key result).passes) Queue.maxFailures := by
  let a : Attempt := ⟨key, result, c.work.now⟩
  have hcount := WorkQueue.failureCount_conclude c.work key result j
  change (c.work.conclude key result).queue.failureCount j =
    min (failuresOf j (a :: c.passes)) Queue.maxFailures
  by_cases hj : j = key
  · subst hj
    have hfailures : failuresOf j (a :: c.passes) =
        if a.isRetried then failuresOf j c.passes + 1 else 0 := failuresOf_cons_self a c.passes
    have hold : c.work.queue.failureCount j = min (failuresOf j c.passes) Queue.maxFailures :=
      h.counted j
    rw [hcount, if_pos rfl, hold, hfailures]
    change (if a.isRetried then _ else _) = _
    split <;> omega
  · have hne : a.key ≠ j := fun he ↦ hj he.symm
    rw [hcount, if_neg hj, failuresOf_cons_of_ne hne]
    exact h.counted j

theorem timers_concluded {id : Nat} {result : Except Failure Unit} (h : c.Sound backoff) :
    ((retried (c.concluded id key result).passes).map fun r ↦ r.1.timer backoff r.2).Perm
      (c.fired.map Prod.fst ++ (c.concluded id key result).work.timers) := by
  let a : Attempt := ⟨key, result, c.work.now⟩
  have hstarted := WorkQueue.timers_conclude c.work key result
  rw [h.backoff_eq, h.counted key] at hstarted
  change ((retried (a :: c.passes)).map fun r ↦ r.1.timer backoff r.2).Perm
    (_ ++ (c.work.conclude key result).timers)
  rw [hstarted, retried]
  split
  · have hinsert := WorkQueue.insertTimer_perm
      (a.timer backoff (min (failuresOf key c.passes) Queue.maxFailures)) c.work.timers
    exact (h.timers.cons _).trans (List.perm_middle.symm.trans (hinsert.symm.append_left _))
  · exact h.timers

theorem minds_concluded {id : Nat} {j : String} {result : Except Failure Unit} (h : c.Sound backoff)
    (hmem : (id, key) ∈ c.session.holders)
    (hpos : 0 < failuresOf j (c.concluded id key result).passes) :
    (c.concluded id key result).Minds j := by
  let a : Attempt := ⟨key, result, c.work.now⟩
  change 0 < failuresOf j (a :: c.passes) at hpos
  by_cases hj : a.key = j
  · subst hj
    rw [failuresOf_cons_self] at hpos
    have hr : a.isRetried := by
      by_contra hr
      rw [if_neg hr] at hpos
      contradiction
    obtain ⟨f, hf, hsevere⟩ := a.exists_failure hr
    obtain rfl : result = .error f := hf
    exact .inl (WorkQueue.wants_conclude hsevere c.work key)
  · rw [failuresOf_cons_of_ne hj] at hpos
    rcases h.minds j hpos with hwants | ⟨other, hother, hrunning⟩
    · exact .inl (hwants.conclude key result)
    · -- No other worker has ended its pass by this.
      refine .inr ⟨other, hother, fun hended ↦ ?_⟩
      rcases List.mem_cons.1 hended with rfl | hended
      · exact hj (congrArg Prod.snd (h.distinct.eq_of_fst_eq hmem hother rfl))
      · exact hrunning hended

theorem concluded {id : Nat} {result : Except Failure Unit} (h : c.Sound backoff)
    (hmem : (id, key) ∈ c.session.holders) : (c.concluded id key result).Sound backoff where
  session := by
    refine ⟨WorkQueue.accounted_conclude h.session.accounted key result, fun j hj ↦ ?_⟩
    change j ∈ (c.work.conclude key result).queue.held at hj
    rw [WorkQueue.held_conclude] at hj
    exact h.session.held_by j hj
  distinct := h.distinct.same (WorkQueue.sameTakers_conclude c.work key result)
  isOpen := (WorkQueue.isShutDown_conclude c.work key result).trans h.isOpen
  backoff_eq := (WorkQueue.backoff_conclude c.work key result).trans h.backoff_eq
  ended := by
    intro i hi
    rcases List.mem_cons.1 hi with rfl | hi
    · exact List.mem_map_of_mem hmem
    · exact h.ended i hi
  counted := h.counted_concluded
  timers := h.timers_concluded
  punctual := h.punctual
  minds _ := h.minds_concluded hmem

theorem release {id : Nat} (h : c.Sound backoff) (hmem : (id, key) ∈ c.session.holders)
    (hended : id ∈ c.ended) :
    Sound backoff { c with
      session := ⟨c.work.done key, c.session.holders.erase (id, key)⟩
      ended := c.ended.filter (· ≠ id) } where
  session := h.session.release hmem
  distinct := @Session.Distinct.release c.session (id, key) h.distinct
  isOpen := h.isOpen
  backoff_eq := h.backoff_eq
  ended := by
    intro i hi
    obtain ⟨hi, hne⟩ := List.mem_filter.1 hi
    obtain ⟨holder, hholder, rfl⟩ := List.mem_map.1 (h.ended i hi)
    have hother : holder ≠ (id, key) := by
      rintro rfl
      simp at hne
    exact List.mem_map_of_mem ((List.mem_erase_of_ne hother).2 hholder)
  counted := h.counted
  timers := h.timers
  punctual := h.punctual
  minds j hpos := by
    rcases h.minds j hpos with hwants | ⟨other, hother, hrunning⟩
    · exact .inl (hwants.done key)
    · refine .inr ⟨other, (List.mem_erase_of_ne ?_).2 hother, fun hended ↦ ?_⟩
      · intro he
        obtain ⟨rfl, -⟩ := Prod.mk.inj he
        exact hrunning hended
      · exact hrunning (List.mem_filter.1 hended).1

theorem start (backoff : Backoff) (isMeasured : Bool) :
    (Crew.start backoff isMeasured).Sound backoff where
  session := Session.sound_start backoff isMeasured
  distinct := Session.distinct_start backoff isMeasured
  isOpen := rfl
  backoff_eq := rfl
  ended := by simp [Crew.start]
  counted _ := rfl
  timers := .refl _
  punctual := by simp [Crew.start]
  minds _ hpos := absurd hpos (Nat.lt_irrefl 0)

theorem step? {a : Action} (h : c.Sound backoff) (hstep : c.step? a = some c') :
    c'.Sound backoff := by
  cases a with
  | plain a =>
    rw [Crew.step?] at hstep
    split at hstep
    · next ha =>
      obtain ⟨session, hsession, rfl⟩ := Option.map_eq_some_iff.1 hstep
      exact h.plain hsession ha
    · contradiction
  | goOff t =>
    obtain ⟨work, hwork, rfl⟩ := Option.map_eq_some_iff.1 hstep
    exact h.goOff hwork
  | conclude id result =>
    obtain ⟨-, key, hmem, rfl⟩ := conclude_eq_some hstep
    exact h.concluded hmem
  | release id =>
    obtain ⟨hended, key, hmem, rfl⟩ := release_eq_some hstep
    exact h.release hmem hended

theorem run {actions : List Action} (h : c.Sound backoff) (hrun : c.run actions = some c') :
    c'.Sound backoff := by
  induction actions generalizing c with
  | nil => exact Option.some.inj hrun ▸ h
  | cons a rest ih =>
    obtain ⟨d, hd, hrest⟩ := Option.bind_eq_some_iff.1 hrun
    exact ih (h.step? hd) hrest

theorem queued_held_or_timed {a : Attempt} (h : c.Sound backoff)
    (hlast : c.passes.find? (·.key = key) = some a) (hr : a.isRetried) :
    key ∈ c.queue.ready ∨ key ∈ c.queue.held ∨ ∃ t ∈ c.work.timers, t.key = key := by
  rcases h.minds key (failuresOf_pos hlast hr) with
    ((hdirty | hhanded) | htimer) | ⟨id, hmem, -⟩
  · exact (h.session.accounted.coherent.ready_or_held h.isOpen key hdirty).imp_right .inl
  · simp [h.session.handed_eq_nil] at hhanded
  · exact .inr (.inr htimer)
  · exact .inr (.inl ((h.session.mem_held key).2 (List.mem_map_of_mem hmem)))

theorem release_of_conclude {id : Nat} {result : Except Failure Unit} (h : c.Sound backoff)
    (hmem : (id, key) ∈ c.session.holders) (hrunning : id ∉ c.ended) :
    ∃ c₁ c₂, c.step? (.conclude id result) = some c₁ ∧ c₁.step? (.release id) = some c₂ := by
  have hconclude : c.step? (.conclude id result) = some (c.concluded id key result) := by
    rw [Crew.step?, if_neg hrunning, h.distinct.find?_holders hmem]
    rfl
  have hrelease : ((c.concluded id key result).step? (.release id)).isSome := by
    have hended : id ∈ (c.concluded id key result).ended := List.mem_cons_self ..
    rw [Crew.step?, if_pos hended, (h.step? hconclude).distinct.release_eq hmem]
    rfl
  obtain ⟨c₂, hc₂⟩ := Option.isSome_iff_exists.1 hrelease
  exact ⟨_, c₂, hconclude, hc₂⟩

theorem not_held_of_release {id : Nat} (h : c.Sound backoff)
    (hmem : (id, key) ∈ c.session.holders) (hstep : c.step? (.release id) = some c') :
    (∀ j, (id, j) ∉ c'.session.holders) ∧ key ∉ c'.queue.held := by
  obtain ⟨-, k, hk, rfl⟩ := release_eq_some hstep
  obtain rfl : key = k := congrArg Prod.snd (h.distinct.eq_of_fst_eq hmem hk rfl)
  refine ⟨fun j hj ↦ ?_, fun hheld ↦ (Queue.mem_held_done.1 hheld).2 rfl⟩
  have hnodup : c.session.holders.Nodup := h.distinct.nodup.of_map
  obtain ⟨hne, hold⟩ := hnodup.mem_erase_iff.1 hj
  exact hne (h.distinct.eq_of_fst_eq hold hmem rfl)

end Sound

/-- The failures of a key that are counted are the passes to be retried since the last that was not.
If the last pass over a key is to be retried, the key is ready, held, or has a timer. Every pass that
is to be retried, and no other, starts one timer, which runs for as long as the backoff says, but for
thirty years at most; the timers that were started are those that went off, each adding its key as it
did, and those that still run. And a worker whose pass ends can release its key, and then does not
hold it any more. -/
theorem retries_follow_failures {backoff : Backoff} {isMeasured : Bool} {actions : List Action}
    {c : Crew} (h : (start backoff isMeasured).run actions = some c) (key : String) :
    c.queue.failureCount key = min (failuresOf key c.passes) Queue.maxFailures ∧
    (∀ a, c.passes.find? (·.key = key) = some a → a.isRetried →
      key ∈ c.queue.ready ∨ key ∈ c.queue.held ∨ ∃ t ∈ c.work.timers, t.key = key) ∧
    (∃ started : List Timer,
      List.Forall₂ (fun r t ↦ t.key = r.1.key ∧
        r.1.time + min (backoff.delay r.2) WorkQueue.longestTimer ≤ t.due)
        (retried c.passes) started ∧
      started.Perm (c.fired.map Prod.fst ++ c.work.timers)) ∧
    (∀ t time, (t, time) ∈ c.fired → t.due ≤ time) ∧
    (∀ t c', c.step? (.goOff t) = some c' →
      c'.queue = c.queue.add t.key ∧ c'.fired = (t, c.work.now) :: c.fired) ∧
    (∀ id result, (id, key) ∈ c.session.holders → id ∉ c.ended →
      ∃ c₁ c₂, c.step? (.conclude id result) = some c₁ ∧ c₁.step? (.release id) = some c₂) ∧
    ∀ id c', (id, key) ∈ c.session.holders → c.step? (.release id) = some c' →
      (∀ j, (id, j) ∉ c'.session.holders) ∧ key ∉ c'.queue.held := by
  have hsound := (Sound.start backoff isMeasured).run h
  refine ⟨hsound.counted key, fun a ↦ hsound.queued_held_or_timed, ⟨_, ?_, hsound.timers⟩,
    fun t time ↦ hsound.punctual (t, time), fun t c' hstep ↦ ?_,
    fun id result ↦ hsound.release_of_conclude, fun id c' ↦ hsound.not_held_of_release⟩
  · rw [List.forall₂_map_right_iff, List.forall₂_same]
    exact fun r _ ↦ ⟨rfl, r.1.le_due_timer backoff r.2⟩
  · obtain ⟨work, hwork, rfl⟩ := Option.map_eq_some_iff.1 hstep
    obtain ⟨-, rfl⟩ := WorkQueue.goOff?_eq_some hwork
    exact ⟨rfl, rfl⟩

/-- A key whose pass failed and was retried, and whose second pass broke off. -/
theorem retries_follow_failures_of_crashed :
    ∃ c, (start ⟨5000000, 1000000000⟩ true).run [.plain (.add "ns/x"), .plain .ask,
        .plain (.request 0), .conclude 0 (.error (.watch "closed")), .release 0,
        .plain (.wait 5000000), .goOff ⟨5000000, "ns/x"⟩, .plain .ask, .plain (.request 1),
        .conclude 1 (.error (.crashed "out of bounds"))] = some c ∧
      failuresOf "ns/x" c.passes = 2 ∧ c.queue.failureCount "ns/x" = min 2 Queue.maxFailures ∧
      c.fired = [(⟨5000000, "ns/x"⟩, 5000000)] ∧ c.work.timers = [⟨15000000, "ns/x"⟩] ∧
      ∃ started : List Timer, started.length = 2 ∧
        started.Perm (c.fired.map Prod.fst ++ c.work.timers) := by
  obtain ⟨c, hc⟩ : ∃ c, (start ⟨5000000, 1000000000⟩ true).run [.plain (.add "ns/x"), .plain .ask,
      .plain (.request 0), .conclude 0 (.error (.watch "closed")), .release 0,
      .plain (.wait 5000000), .goOff ⟨5000000, "ns/x"⟩, .plain .ask, .plain (.request 1),
      .conclude 1 (.error (.crashed "out of bounds"))] = some c := ⟨_, rfl⟩
  have h := retries_follow_failures hc "ns/x"
  obtain ⟨started, hall, hperm⟩ := h.2.2.1
  have hfailures := h.1
  cases hc
  exact ⟨_, rfl, rfl, hfailures, rfl, rfl, started, hall.length_eq.symm, hperm⟩

/-- After a delay of forty years a key would come back too early. -/
theorem retried_after_thirty_years :
    ∃ c, (start ⟨40 * 365 * 86400 * 1000000000, 60 * 365 * 86400 * 1000000000⟩ false).run
        [.plain (.add "ns/x"), .plain .ask, .plain (.request 0),
          .conclude 0 (.error (.watch "closed")), .release 0,
          .plain (.wait (30 * 365 * 86400 * 1000000000)),
          .goOff ⟨30 * 365 * 86400 * 1000000000, "ns/x"⟩] = some c ∧
      c.passes = [⟨"ns/x", .error (.watch "closed"), 0⟩] ∧
      retried c.passes = [(⟨"ns/x", .error (.watch "closed"), 0⟩, 0)] ∧
      c.fired = [(⟨30 * 365 * 86400 * 1000000000, "ns/x"⟩, 30 * 365 * 86400 * 1000000000)] ∧
      c.queue.ready = ["ns/x"] ∧
      30 * 365 * 86400 * 1000000000 < 0 + Backoff.delay
        ⟨40 * 365 * 86400 * 1000000000, 60 * 365 * 86400 * 1000000000⟩ 0 := by
  exact ⟨_, rfl, rfl, rfl, rfl, rfl, by decide⟩

end Crew

end Submarine
