import Submarine.Proofs.Queue.Handling

namespace Submarine

namespace Queue

/-- What a queue knows of a key: how often it waits, whether it is marked, whether it is held, and
how many of its failures are counted. -/
structure View where
  waiting : Nat
  isDirty : Bool
  isHeld : Bool
  failures : Nat
deriving DecidableEq, Repr

namespace View

def initial : View := ⟨0, false, false, 0⟩

def added (v : View) : View :=
  if v.isDirty then v
  else if v.isHeld then { v with isDirty := true }
  else { v with waiting := v.waiting + 1, isDirty := true }

def released (v : View) : View :=
  { v with isHeld := false, waiting := if v.isDirty then v.waiting + 1 else v.waiting }

def after (v : View) : Handling → View
  | .added _ | .timedOut _ => v.added
  | .handedOut _ => { v with waiting := v.waiting - 1, isDirty := false, isHeld := true }
  | .released _ => v.released
  | .forgotten _ => { v with failures := 0 }
  | .retried _ => { v with failures := min (v.failures + 1) maxFailures }

end View

def view (q : Queue) (key : String) : View :=
  ⟨q.ready.count key, q.dirty.contains key, q.held.contains key, q.failureCount key⟩

variable {q q' : Queue} {key j : String}

theorem view_eq_iff : q.view key = q'.view key ↔
    q.ready.count key = q'.ready.count key ∧ (key ∈ q.dirty ↔ key ∈ q'.dirty) ∧
      (key ∈ q.held ↔ key ∈ q'.held) ∧ q.failureCount key = q'.failureCount key := by
  simp only [view, View.mk.injEq, ← List.contains_iff_mem, Bool.coe_iff_coe]

theorem failureCount_add (q : Queue) (j key : String) :
    (q.add j).failureCount key = q.failureCount key := by
  unfold add
  split_ifs <;> rfl

theorem view_add_self (hopen : q.isShutDown = false) :
    (q.add key).view key = (q.view key).added := by
  by_cases hdirty : key ∈ q.dirty
  · simp [add, view, View.added, hdirty]
  · by_cases hheld : key ∈ q.held
    · simp [add, view, View.added, failureCount, hopen, hdirty, hheld]
    · simp [add, view, View.added, failureCount, hopen, hdirty, hheld]

theorem view_add_of_ne (hne : j ≠ key) : (q.add j).view key = q.view key := by
  have hkey : key ≠ j := hne.symm
  unfold view
  rw [failureCount_add, held_add]
  unfold add
  split_ifs <;> simp [hne, hkey]

theorem take_of_ready {rest : List String} (hopen : q.isShutDown = false)
    (hready : q.ready = key :: rest) :
    q.take = (.key key, { q with
      ready := rest, dirty := q.dirty.filter (· != key), held := q.held.insert key }) := by
  unfold take
  simp [hopen, hready]

theorem view_take_self (htake : q.take = (.key key, q')) :
    q'.view key = (q.view key).after (.handedOut key) := by
  obtain ⟨-, rest, hready, rfl⟩ := take_eq_key htake
  simp [view, View.after, failureCount, hready]

theorem view_take_of_ne (hne : j ≠ key) (htake : q.take = (.key j, q')) :
    q'.view key = q.view key := by
  have hkey : key ≠ j := hne.symm
  obtain ⟨-, rest, hready, rfl⟩ := take_eq_key htake
  simp [view, failureCount, hready, hne, hkey]

theorem view_done_self (hopen : q.isShutDown = false) :
    (q.done key).view key = (q.view key).released := by
  by_cases hdirty : key ∈ q.dirty
  · simp [done, view, View.released, readmits, failureCount, hopen, hdirty]
  · simp [done, view, View.released, readmits, failureCount, hdirty]

theorem view_done_of_ne (hne : j ≠ key) : (q.done j).view key = q.view key := by
  have hkey : key ≠ j := hne.symm
  have hready : (q.done j).ready.count key = q.ready.count key := by
    unfold done
    split <;> simp [hne]
  unfold view
  rw [hready]
  simp [done, failureCount, hkey]

theorem view_forget_self (q : Queue) (key : String) :
    (q.forget key).view key = (q.view key).after (.forgotten key) := by
  unfold view
  rw [failureCount_forget, if_pos rfl]
  rfl

theorem view_forget_of_ne (hne : j ≠ key) : (q.forget j).view key = q.view key := by
  unfold view
  rw [failureCount_forget, if_neg hne.symm]
  rfl

theorem view_countFailure_self (q : Queue) (key : String) :
    (q.countFailure key).view key = (q.view key).after (.retried key) := by
  unfold view
  rw [failureCount_countFailure, if_pos rfl]
  rfl

theorem view_countFailure_of_ne (hne : j ≠ key) : (q.countFailure j).view key = q.view key := by
  unfold view
  rw [failureCount_countFailure, if_neg hne.symm]
  rfl

end Queue

namespace WorkQueue

open Queue (View)

variable {w w' : WorkQueue} {key : String}

namespace Undergoes

variable {handling : Handling} {handling? : Option Handling}

theorem view_self (h : w.Undergoes (some handling) w') (hopen : w.queue.isShutDown = false) :
    w'.queue.view handling.key = (w.queue.view handling.key).after handling := by
  cases h with
  | added | timedOut => exact Queue.view_add_self hopen
  | handedOut take _ => exact Queue.view_take_self take
  | released => exact Queue.view_done_self hopen
  | forgotten key => exact w.queue.view_forget_self key
  | retried key => exact w.queue.view_countFailure_self key

theorem view_of_ne (h : w.Undergoes (some handling) w') (hne : handling.key ≠ key) :
    w'.queue.view key = w.queue.view key := by
  cases h with
  | added | timedOut => exact Queue.view_add_of_ne hne
  | handedOut take _ => exact Queue.view_take_of_ne hne take
  | released => exact Queue.view_done_of_ne hne
  | forgotten => exact Queue.view_forget_of_ne hne
  | retried => exact Queue.view_countFailure_of_ne hne

/-- What is known of a key changes as the key is handled, and in no other way. -/
theorem view (h : w.Undergoes handling? w') (hopen : w.queue.isShutDown = false) (key : String) :
    w'.queue.view key =
      (handling?.toList.filter (·.key = key)).foldl View.after (w.queue.view key) := by
  cases handling? with
  | none =>
    cases h with
    | waited => rfl
    | untouched same _ => exact congrArg (Queue.view · key) same
  | some handling =>
    by_cases hkey : handling.key = key
    · subst hkey
      simpa using h.view_self hopen
    · simpa [hkey] using h.view_of_ne hkey

end Undergoes

end WorkQueue

namespace Session

open Queue (View)

variable {s s' t t' : Session} {acts own : List Act} {key : String}

/-- What is known of a key after a run follows from what was done with it. -/
theorem view_actAll? (hs : s.Sound) (ha : s.actAll? acts = some s')
    (hstays : .takes .shutDown ∉ acts) (hopen : s.queue.isShutDown = false) (key : String) :
    s'.queue.view key =
      ((s.handlings acts).filter (·.key = key)).foldl View.after (s.queue.view key) := by
  induction acts generalizing s with
  | nil =>
    obtain rfl := Option.some.inj ha
    rfl
  | cons a rest ih =>
    obtain ⟨u, hu, hrest⟩ := Option.bind_eq_some_iff.1 ha
    obtain ⟨hne, hlater⟩ := not_or.1 (List.mem_cons.not.1 hstays)
    have hundergoes := undergoes_of_act? hs hu (Ne.symm hne)
    rw [ih (hs.act? hu) hrest hlater (hundergoes.isShutDown.trans hopen), handlings_cons hu,
      List.filter_append, List.foldl_append, hundergoes.view hopen key]

def Leads (s : Session) (handlings : List Handling) (s' : Session) : Prop :=
  ∃ acts, s.actAll? acts = some s' ∧ .takes .shutDown ∉ acts ∧ s.handlings acts = handlings

namespace Leads

variable {u : Session} {before after : List Handling}

theorem refl (s : Session) : s.Leads [] s := ⟨[], rfl, List.not_mem_nil, rfl⟩

theorem act? {a : Act} (ha : s.act? a = some s') (hopen : a ≠ .takes .shutDown) :
    s.Leads (s.handling? a).toList s' := by
  refine ⟨[a], ?_, by simpa using hopen.symm, ?_⟩
  · rw [actAll?, ha]
    rfl
  · rw [handlings_cons ha]
    exact List.append_nil _

theorem trans (h : s.Leads before s') (h' : s'.Leads after u) : s.Leads (before ++ after) u := by
  obtain ⟨first, hfirst, hstays, rfl⟩ := h
  obtain ⟨second, hsecond, hstays', rfl⟩ := h'
  refine ⟨first ++ second, (actAll?_append hfirst).trans hsecond, ?_, handlings_append hfirst⟩
  rw [List.mem_append, not_or]
  exact ⟨hstays, hstays'⟩

theorem view {handlings : List Handling} (h : s.Leads handlings s') (hs : s.Sound)
    (hopen : s.queue.isShutDown = false) (key : String) :
    s'.queue.view key = (handlings.filter (·.key = key)).foldl View.after (s.queue.view key) := by
  obtain ⟨acts, hrun, hstays, rfl⟩ := h
  exact view_actAll? hs hrun hstays hopen key

end Leads

/-- A request that is made while a key is ready can be answered with that key at once. -/
theorem leads_of_ready {rest : List String} (hs : s.Sound) (hopen : s.queue.isShutDown = false)
    (hready : s.queue.ready = key :: rest) :
    ∃ s', s.Leads [.handedOut key] s' ∧ s'.work.now = s.work.now ∧
      s'.work.timers = s.work.timers := by
  let asked : Session := { s with work := s.work.takeLater.2 }
  let id := s.work.dispenser.nextId
  have hask : s.act? (.takes .ask) = some asked := rfl
  have hmem : ⟨id, .looking s.work.dispenser.gate.round⟩ ∈ asked.work.dispenser.takers :=
    List.mem_append_right _ (List.mem_singleton_self _)
  have hstage : asked.work.dispenser.stage? id = some (.looking s.work.dispenser.gate.round) :=
    (hs.act? hask).accounted.toOrderly.stage?_of_mem hmem
  obtain ⟨queue, htake⟩ : ∃ queue, asked.work.dispenser.queue.take = (.key key, queue) :=
    ⟨_, Queue.take_of_ready hopen hready⟩
  let d := asked.work.dispenser.look id s.work.dispenser.gate.round
  have hstep : asked.work.dispenser.step? id = some d := by
    rw [Dispenser.step?, hstage]
  have hfinished : d.stage? id = some (.finished (some key)) := by
    simp only [d, Dispenser.look, htake]
    exact Dispenser.stage?_setStage_self hstage
  have hrequest : asked.act? (.takes (.request id)) = some (asked.answered id d) := by
    rw [Session.act?, step?, hstep]
    rfl
  have hhanded : asked.handling? (.takes (.request id)) = some (.handedOut key) := by
    rw [handling?, hstep, Option.bind_some, Dispenser.handed?, hfinished]
    rfl
  have hleads := (Leads.act? hask (by simp)).trans (Leads.act? hrequest (by simp))
  rw [hhanded] at hleads
  refine ⟨asked.answered id d, hleads, ?_, ?_⟩
  · rcases asked.work_answered id d with hw | hw <;> rw [hw] <;> rfl
  · rcases asked.work_answered id d with hw | hw <;> rw [hw] <;> rfl

/-- The session has nothing but the key, and has it as the work queue does, at the same time. -/
structure Isolates (key : String) (w : WorkQueue) (t : Session) : Prop where
  sound : t.Sound
  distinct : t.Distinct
  isOpen : t.queue.isShutDown = false
  view : t.queue.view key = w.queue.view key
  alone : ∀ j ≠ key, t.queue.view j = .initial
  backoff : t.work.backoff = w.backoff
  now : t.work.now = w.now
  timers : t.work.timers.Perm (w.timers.filter (·.key = key))

/-- The session can do the same with the key, and nothing else, and comes to the time and to the
timers of the work queue. -/
def Follows (key : String) (handling? : Option Handling) (w : WorkQueue) (t : Session) : Prop :=
  ∃ t', t.Leads (handling?.toList.filter (·.key = key)) t' ∧ t'.work.now = w.now ∧
    t'.work.timers.Perm (w.timers.filter (·.key = key))

theorem Follows.act? {w : WorkQueue} {a : Act} {handling : Handling} (ha : t.act? a = some t')
    (hopen : a ≠ .takes .shutDown) (hsame : t.handling? a = some handling)
    (hnow : t'.work.now = w.now)
    (htimers : t'.work.timers.Perm (w.timers.filter (·.key = handling.key))) :
    Follows handling.key (some handling) w t := by
  refine ⟨t', ?_, hnow, htimers⟩
  have hleads := Leads.act? ha hopen
  rw [hsame] at hleads
  simpa using hleads

namespace Isolates

variable {w w' : WorkQueue} {handling? : Option Handling} {u : Timer}

theorem start (backoff : Backoff) (isMeasured : Bool) (key : String) :
    Isolates key (start backoff isMeasured).work (start backoff isMeasured) where
  sound := sound_start backoff isMeasured
  distinct := distinct_start backoff isMeasured
  isOpen := rfl
  view := rfl
  alone _ _ := rfl
  backoff := rfl
  now := rfl
  timers := .refl _

/-- Nothing is to be done about another key, if neither time nor the timers of the key move. -/
theorem stays (h : Isolates key w t) (hother : ∀ handling ∈ handling?, handling.key ≠ key)
    (hnow : w'.now = w.now)
    (htimers : (w.timers.filter (·.key = key)).Perm (w'.timers.filter (·.key = key))) :
    Follows key handling? w' t := by
  refine ⟨t, ?_, h.now.trans hnow.symm, h.timers.trans htimers⟩
  have hnone : handling?.toList.filter (·.key = key) = [] := by
    rw [List.filter_eq_nil_iff]
    intro handling hmem
    simpa using hother handling (Option.mem_toList.1 hmem)
  rw [hnone]
  exact .refl t

theorem mem_held (h : Isolates key w t) (hheld : key ∈ w.queue.held) : key ∈ t.queue.held := by
  have hsame : t.queue.held.contains key = w.queue.held.contains key := congrArg View.isHeld h.view
  simpa [hheld] using hsame

theorem ready_eq (h : Isolates key w t) (hready : key ∈ w.queue.ready) :
    ∃ rest, t.queue.ready = key :: rest := by
  have hcount : t.queue.ready.count key = w.queue.ready.count key := congrArg View.waiting h.view
  have hmem : key ∈ t.queue.ready := by
    rw [← List.count_pos_iff, hcount, List.count_pos_iff]
    exact hready
  cases hall : t.queue.ready with
  | nil => simp [hall] at hmem
  | cons j rest =>
    -- No other key is there to stand before it.
    by_cases hj : j = key
    · exact ⟨rest, by rw [hj]⟩
    · have hnone : t.queue.ready.count j = 0 := congrArg View.waiting (h.alone j hj)
      simp [hall] at hnone

theorem handsOut (h : Isolates key w t) {d : Dispenser}
    (htake : w.queue.take = (.key key, d.queue)) :
    Follows key (some (.handedOut key)) (w.follow d) t := by
  obtain ⟨-, rest, hready, -⟩ := Queue.take_eq_key htake
  have hwaits : key ∈ w.queue.ready := by simp [hready]
  obtain ⟨rest, hready⟩ := h.ready_eq hwaits
  obtain ⟨t', hleads, hnow, htimers⟩ := leads_of_ready h.sound h.isOpen hready
  exact ⟨t', by simpa [Handling.key] using hleads, hnow.trans h.now, htimers ▸ h.timers⟩

theorem releases (h : Isolates key w t) (hheld : key ∈ w.queue.held) :
    Follows key (some (.released key)) (w.done key) t := by
  obtain ⟨⟨id, j⟩, hmem, rfl⟩ := List.mem_map.1 ((h.sound.mem_held key).1 (h.mem_held hheld))
  have hrelease : t.act? (.takes (.release id)) = some ⟨t.work.done j, t.holders.erase (id, j)⟩ :=
    h.distinct.release_eq hmem
  refine .act? hrelease (by simp) ?_ h.now h.timers
  rw [handling?, h.distinct.find?_holders hmem]
  rfl

theorem filter_insertTimer_self {timers : List Timer} (hu : u.key = key) :
    ((WorkQueue.insertTimer u timers).filter (·.key = key)).Perm
      (u :: timers.filter (·.key = key)) := by
  have hperm := (WorkQueue.insertTimer_perm u timers).filter (·.key = key)
  simpa [hu] using hperm

theorem filter_insertTimer_of_ne {timers : List Timer} (hu : u.key ≠ key) :
    ((WorkQueue.insertTimer u timers).filter (·.key = key)).Perm
      (timers.filter (·.key = key)) := by
  have hperm := (WorkQueue.insertTimer_perm u timers).filter (·.key = key)
  simpa [hu] using hperm

theorem retries (h : Isolates key w t) :
    Follows key (some (.retried key)) (w.retryLater key) t := by
  have hfailures : t.queue.failureCount key = w.queue.failureCount key :=
    congrArg View.failures h.view
  have hretry : t.act? (.takes (.retryLater key)) =
      some { t with work := t.work.retryLater key } := rfl
  refine .act? hretry (by simp) rfl h.now ?_
  change (WorkQueue.insertTimer ⟨WorkQueue.wholeMillis (t.work.now + min (t.work.backoff.delay
    (t.queue.failureCount key)) WorkQueue.longestTimer), key⟩ t.work.timers).Perm _
  rw [hfailures, h.backoff, h.now]
  exact (WorkQueue.insertTimer_perm _ _).trans
    ((h.timers.cons _).trans (filter_insertTimer_self rfl).symm)

theorem waits (h : Isolates key w t) (span : Nat) :
    Follows key none { w with now := w.now + span } t := by
  have hwait : t.act? (.takes (.wait span)) =
      some { t with work := { t.work with now := t.work.now + span } } := rfl
  exact ⟨_, .act? hwait (by simp), congrArg (· + span) h.now, h.timers⟩

/-- As much time passes as until the timer went off. -/
theorem awaits (h : Isolates key w t) (u : Timer) :
    ∃ t', t.Leads [] t' ∧ t'.work.now = max w.now u.due ∧
      t'.work.timers.Perm (w.timers.filter (·.key = key)) := by
  obtain ⟨t', hleads, hnow, htimers⟩ := h.waits (u.due - w.now)
  refine ⟨t', hleads, hnow.trans ?_, htimers⟩
  change w.now + (u.due - w.now) = max w.now u.due
  omega

theorem outlasts (h : Isolates key w t) (hmem : u ∈ w.timers) (hkey : u.key ≠ key) :
    Follows key (some (.timedOut u.key))
      ({ w with now := max w.now u.due, timers := w.timers.erase u }.add u.key) t := by
  obtain ⟨t', hleads, hnow, htimers⟩ := h.awaits u
  have hothers : (w.timers.filter (·.key = key)).Perm
      ((w.timers.erase u).filter (·.key = key)) := by
    simpa [hkey] using (List.perm_cons_erase hmem).filter (·.key = key)
  exact ⟨t', by simpa [Handling.key, hkey] using hleads, hnow, htimers.trans hothers⟩

theorem timesOut (h : Isolates u.key w t) (hmem : u ∈ w.timers) :
    Follows u.key (some (.timedOut u.key))
      ({ w with now := max w.now u.due, timers := w.timers.erase u }.add u.key) t := by
  obtain ⟨waited, hleads, hnow, htimers⟩ := h.awaits u
  have hours : waited.work.timers.Perm (u :: (w.timers.erase u).filter (·.key = u.key)) := by
    refine htimers.trans ?_
    simpa using (List.perm_cons_erase hmem).filter (·.key = u.key)
  have hdue : u ∈ waited.work.timers ∧ u.due ≤ waited.work.now :=
    ⟨hours.mem_iff.2 (List.mem_cons_self ..), hnow ▸ Nat.le_max_right _ _⟩
  let gone : Session :=
    { waited with work := { waited.work with timers := waited.work.timers.erase u }.add u.key }
  have hgoes : waited.act? (.goesOff u) = some gone := by
    rw [Session.act?, WorkQueue.goOff?, if_pos hdue]
    rfl
  have hall := hleads.trans (Leads.act? hgoes (by simp))
  have hleft := hours.erase u
  rw [List.erase_cons_head] at hleft
  exact ⟨gone, by simpa [handling?, Handling.key] using hall, hnow, hleft⟩

theorem follows (h : Isolates key w t) (hw : w.Undergoes handling? w') :
    Follows key handling? w' t := by
  cases hw with
  | added j =>
    by_cases hj : j = key
    · subst hj
      have hadd : t.act? (.takes (.add j)) = some { t with work := t.work.add j } := rfl
      exact .act? hadd (by simp) rfl h.now h.timers
    · exact h.stays (by simpa [Handling.key] using hj) rfl (.refl _)
  | @handedOut j _ take _ =>
    by_cases hj : j = key
    · subst hj
      exact h.handsOut take
    · exact h.stays (by simpa [Handling.key] using hj) rfl (.refl _)
  | @released j held =>
    by_cases hj : j = key
    · subst hj
      exact h.releases held
    · exact h.stays (by simpa [Handling.key] using hj) rfl (.refl _)
  | forgotten j =>
    by_cases hj : j = key
    · subst hj
      have hforget : t.act? (.takes (.forget j)) = some { t with work := t.work.forget j } := rfl
      exact .act? hforget (by simp) rfl h.now h.timers
    · exact h.stays (by simpa [Handling.key] using hj) rfl (.refl _)
  | retried j =>
    by_cases hj : j = key
    · subst hj
      exact h.retries
    · exact h.stays (by simpa [Handling.key] using hj) rfl (filter_insertTimer_of_ne hj).symm
  | @timedOut u mem =>
    by_cases hu : u.key = key
    · subst hu
      exact h.timesOut mem
    · exact h.outlasts mem hu
  | waited span => exact h.waits span
  | untouched => exact h.stays (by simp) rfl (.refl _)

/-- The session keeps up with the work queue. -/
theorem next (h : Isolates key w t) (hopen : w.queue.isShutDown = false)
    (hw : w.Undergoes handling? w') :
    ∃ t', t.Leads (handling?.toList.filter (·.key = key)) t' ∧ Isolates key w' t' := by
  obtain ⟨t', hleads, hnow, htimers⟩ := h.follows hw
  have hview (j : String) := hleads.view h.sound h.isOpen j
  have hours (j : String) (hj : j ≠ key) :
      (handling?.toList.filter (·.key = key)).filter (·.key = j) = [] := by
    rw [List.filter_eq_nil_iff]
    intro handling hmem
    have hkey : handling.key = key := by simpa using (List.mem_filter.1 hmem).2
    simpa [hkey] using hj.symm
  refine ⟨t', hleads, ?_⟩
  obtain ⟨acts, hrun, hstays, -⟩ := hleads
  refine ⟨h.sound.actAll? hrun, h.distinct.actAll? h.sound hrun,
    isOpen_actAll? h.sound hrun hstays h.isOpen, ?_, fun j hj ↦ ?_, ?_, hnow, htimers⟩
  · rw [hview key, hw.view hopen key, h.view, List.filter_filter]
    simp
  · rw [hview j, hours j hj]
    exact h.alone j hj
  · rw [backoff_actAll? h.sound hrun hstays, h.backoff, hw.backoff]

/-- A run can be cut down to what it does with one key. -/
theorem cutDown (h : Isolates key s.work t) (hs : s.Sound) (hopen : s.queue.isShutDown = false)
    (ha : s.actAll? acts = some s') (hstays : .takes .shutDown ∉ acts) :
    ∃ t', t.Leads ((s.handlings acts).filter (·.key = key)) t' ∧ Isolates key s'.work t' := by
  induction acts generalizing s t with
  | nil =>
    obtain rfl := Option.some.inj ha
    exact ⟨t, .refl t, h⟩
  | cons a rest ih =>
    obtain ⟨u, hu, hrest⟩ := Option.bind_eq_some_iff.1 ha
    obtain ⟨hne, hlater⟩ := not_or.1 (List.mem_cons.not.1 hstays)
    have hundergoes := undergoes_of_act? hs hu (Ne.symm hne)
    obtain ⟨t₁, hfirst, h₁⟩ := h.next hopen hundergoes
    obtain ⟨t', hlast, h'⟩ :=
      ih h₁ (hs.act? hu) (hundergoes.isShutDown.trans hopen) hrest hlater
    refine ⟨t', ?_, h'⟩
    rw [handlings_cons hu, List.filter_append]
    exact hfirst.trans hlast

end Isolates

/-- A run can be cut down to what it does with one key, at the same times, and leaves that key as
the cut-down run does, and with the same timers. So does any run that does the same with the key,
whatever both do with others: the key is ready as often, marked and held alike, and has the same
failures counted and so the same delay ahead. In particular nothing that is done with other keys
changes any of this. -/
theorem keys_keep_apart {backoff : Backoff} {isMeasured : Bool}
    (ha : (start backoff isMeasured).actAll? acts = some s) (hstays : .takes .shutDown ∉ acts)
    (key : String) :
    (∃ own t, (start backoff isMeasured).actAll? own = some t ∧ .takes .shutDown ∉ own ∧
      (start backoff isMeasured).handlings own =
        ((start backoff isMeasured).handlings acts).filter (·.key = key) ∧
      t.queue.view key = s.queue.view key ∧ t.work.now = s.work.now ∧
      t.work.timers.Perm (s.work.timers.filter (·.key = key))) ∧
    (∀ other t, (start backoff isMeasured).actAll? other = some t → .takes .shutDown ∉ other →
      ((start backoff isMeasured).handlings other).filter (·.key = key) =
        ((start backoff isMeasured).handlings acts).filter (·.key = key) →
      (t.queue.ready.count key = s.queue.ready.count key ∧
        (key ∈ t.queue.dirty ↔ key ∈ s.queue.dirty) ∧ (key ∈ t.queue.held ↔ key ∈ s.queue.held) ∧
        t.queue.failureCount key = s.queue.failureCount key) ∧
      t.work.backoff.delay (t.queue.failureCount key) =
        s.work.backoff.delay (s.queue.failureCount key)) ∧
    ∀ a t, s.act? a = some t → a ≠ .takes .shutDown →
      (∀ handling ∈ s.handling? a, handling.key ≠ key) →
      t.queue.view key = s.queue.view key ∧
        t.work.backoff.delay (t.queue.failureCount key) =
          s.work.backoff.delay (s.queue.failureCount key) := by
  have hstart := sound_start backoff isMeasured
  have hsound := hstart.actAll? ha
  refine ⟨?_, fun other t hother hstays' hsame ↦ ?_, fun a t hact hne hothers ↦ ?_⟩
  · obtain ⟨t, ⟨own, hrun, hstays', hsame⟩, h⟩ :=
      (Isolates.start backoff isMeasured key).cutDown hstart rfl ha hstays
    exact ⟨own, t, hrun, hstays', hsame, h.view, h.now, h.timers⟩
  · have hview : t.queue.view key = s.queue.view key := by
      rw [view_actAll? hstart hother hstays' rfl, view_actAll? hstart ha hstays rfl, hsame]
    have hbackoff : t.work.backoff = s.work.backoff :=
      (backoff_actAll? hstart hother hstays').trans (backoff_actAll? hstart ha hstays).symm
    have hfailures : t.queue.failureCount key = s.queue.failureCount key :=
      congrArg View.failures hview
    exact ⟨Queue.view_eq_iff.1 hview, by rw [hfailures, hbackoff]⟩
  · have hopen := isOpen_actAll? hstart ha hstays rfl
    have hundergoes := undergoes_of_act? hsound hact hne
    have hnone : (s.handling? a).toList.filter (·.key = key) = [] := by
      rw [List.filter_eq_nil_iff]
      exact fun handling hmem ↦ by simpa using hothers handling (Option.mem_toList.1 hmem)
    have hview : t.queue.view key = s.queue.view key := by
      rw [hundergoes.view hopen key, hnone]
      rfl
    have hfailures : t.queue.failureCount key = s.queue.failureCount key :=
      congrArg View.failures hview
    exact ⟨hview, by rw [hfailures, hundergoes.backoff]⟩

/-- Two keys whose passes fail. The timer of the first goes off before that of the second, and with
it the first is ready again. -/
theorem keys_keep_apart_of_two :
    ∃ s own t, (start ⟨1, 8⟩ true).actAll? [.takes (.add "ns/x"), .takes (.add "ns/y"), .takes .ask,
        .takes .ask, .takes (.request 1), .takes (.request 0), .takes (.add "ns/y"),
        .takes (.retryLater "ns/x"), .takes (.retryLater "ns/y"), .takes (.release 1),
        .takes (.release 0), .takes (.wait 1000000), .goesOff ⟨1000000, "ns/x"⟩] = some s ∧
      s.queue.ready = ["ns/y", "ns/x"] ∧ s.work.timers = [⟨1000000, "ns/y"⟩] ∧
      (start ⟨1, 8⟩ true).actAll? own = some t ∧
      (start ⟨1, 8⟩ true).handlings own = [.added "ns/y", .handedOut "ns/y", .added "ns/y",
        .retried "ns/y", .released "ns/y"] ∧
      t.queue.view "ns/y" = ⟨1, true, false, 1⟩ ∧ t.work.now = 1000000 ∧
      t.work.timers = [⟨1000000, "ns/y"⟩] := by
  obtain ⟨s, hs⟩ : ∃ s, (start ⟨1, 8⟩ true).actAll? [.takes (.add "ns/x"), .takes (.add "ns/y"),
      .takes .ask, .takes .ask, .takes (.request 1), .takes (.request 0), .takes (.add "ns/y"),
      .takes (.retryLater "ns/x"), .takes (.retryLater "ns/y"), .takes (.release 1),
      .takes (.release 0), .takes (.wait 1000000), .goesOff ⟨1000000, "ns/x"⟩] = some s := ⟨_, rfl⟩
  obtain ⟨own, t, hrun, -, hsame, hview, hnow, htimers⟩ :=
    (keys_keep_apart hs (by decide) "ns/y").1
  cases hs
  exact ⟨_, own, t, rfl, rfl, by decide +kernel, hrun, hsame, hview, hnow,
    List.perm_singleton.1 htimers⟩

end Session

end Submarine
