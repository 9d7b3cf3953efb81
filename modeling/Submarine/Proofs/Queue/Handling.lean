import Submarine.Proofs.Queue.Retries

namespace Submarine

inductive Handling where
  | added (key : String)
  | handedOut (key : String)
  | released (key : String)
  | forgotten (key : String)
  | retried (key : String)
  | timedOut (key : String)
deriving DecidableEq, Repr

namespace Handling

def key : Handling → String
  | added key | handedOut key | released key | forgotten key | retried key | timedOut key => key

def isRetry : Handling → Bool
  | retried _ => true
  | added _ | handedOut _ | released _ | forgotten _ | timedOut _ => false

end Handling

namespace WorkQueue

/-- What a handling makes of a work queue that is not shut down by it. Nobody releases a key that is
not held, and the depth is reported where a key is handed out. -/
inductive Undergoes (w : WorkQueue) : Option Handling → WorkQueue → Prop where
  | added (key : String) : w.Undergoes (some (.added key)) (w.add key)
  | handedOut {key : String} {d : Dispenser} (take : w.queue.take = (.key key, d.queue))
      (reported : d.depth = d.queue.size) : w.Undergoes (some (.handedOut key)) (w.follow d)
  | released {key : String} (held : key ∈ w.queue.held) :
      w.Undergoes (some (.released key)) (w.done key)
  | forgotten (key : String) : w.Undergoes (some (.forgotten key)) (w.forget key)
  | retried (key : String) : w.Undergoes (some (.retried key)) (w.retryLater key)
  | timedOut {t : Timer} (mem : t ∈ w.timers) :
      w.Undergoes (some (.timedOut t.key))
        ({ w with now := max w.now t.due, timers := w.timers.erase t }.add t.key)
  | waited (span : Nat) : w.Undergoes none { w with now := w.now + span }
  | untouched {d : Dispenser} (same : d.queue = w.queue)
      (unreported : d.depth = w.dispenser.depth) : w.Undergoes none (w.follow d)

variable {w w' : WorkQueue} {handling? : Option Handling}

namespace Undergoes

theorem isShutDown (h : w.Undergoes handling? w') : w'.queue.isShutDown = w.queue.isShutDown := by
  cases h with
  | added key | timedOut => exact Queue.isShutDown_add w.queue _
  | @handedOut _ d take _ =>
    obtain ⟨-, _, -, hqueue⟩ := Queue.take_eq_key take
    change d.queue.isShutDown = w.queue.isShutDown
    rw [hqueue]
  | untouched same _ => exact congrArg Queue.isShutDown same
  | released | forgotten | retried | waited => rfl

theorem backoff (h : w.Undergoes handling? w') : w'.backoff = w.backoff := by
  cases h <;> rfl

end Undergoes

end WorkQueue

namespace Session

inductive Act where
  | takes (a : Action)
  | goesOff (t : Timer)
deriving DecidableEq, Repr

def act? (s : Session) : Act → Option Session
  | .takes a => s.step? a
  | .goesOff t => (s.work.goOff? t).map fun work ↦ { s with work }

def actAll? (s : Session) : List Act → Option Session
  | [] => some s
  | a :: rest => (s.act? a).bind (·.actAll? rest)

def handling? (s : Session) : Act → Option Handling
  | .takes (.add key) => some (.added key)
  | .takes (.request id) => ((s.work.dispenser.step? id).bind (·.handed? id)).map .handedOut
  | .takes (.release id) => (s.holders.find? (·.1 = id)).map fun h ↦ .released h.2
  | .takes (.forget key) => some (.forgotten key)
  | .takes (.retryLater key) => some (.retried key)
  | .takes .fire => s.work.timers.head?.map fun t ↦ .timedOut t.key
  | .goesOff t => some (.timedOut t.key)
  | .takes .ask | .takes (.abandon _) | .takes .signal | .takes .signalAll | .takes (.wait _)
  | .takes .shutDown => none

def handlings (s : Session) : List Act → List Handling
  | [] => []
  | a :: rest => (s.handling? a).toList ++ ((s.act? a).map fun t ↦ handlings t rest).getD []

variable {s s' : Session} {a : Act} {acts more : List Act}

theorem handlings_cons (h : s.act? a = some s') :
    s.handlings (a :: acts) = (s.handling? a).toList ++ s'.handlings acts := by
  rw [handlings, h]
  rfl

theorem actAll?_append (h : s.actAll? acts = some s') :
    s.actAll? (acts ++ more) = s'.actAll? more := by
  induction acts generalizing s with
  | nil => rw [List.nil_append, Option.some.inj h]
  | cons a rest ih =>
    obtain ⟨t, ht, hrest⟩ := Option.bind_eq_some_iff.1 h
    rw [List.cons_append, actAll?, ht]
    exact ih hrest

theorem handlings_append (h : s.actAll? acts = some s') :
    s.handlings (acts ++ more) = s.handlings acts ++ s'.handlings more := by
  induction acts generalizing s with
  | nil =>
    obtain rfl := Option.some.inj h
    rfl
  | cons a rest ih =>
    obtain ⟨t, ht, hrest⟩ := Option.bind_eq_some_iff.1 h
    rw [List.cons_append, handlings_cons ht, handlings_cons ht, ih hrest, List.append_assoc]

theorem Sound.act? (h : s.Sound) (ha : s.act? a = some s') : s'.Sound := by
  cases a with
  | takes a => exact h.step? ha
  | goesOff t =>
    obtain ⟨work, hwork, rfl⟩ := Option.map_eq_some_iff.1 ha
    obtain ⟨-, rfl⟩ := WorkQueue.goOff?_eq_some hwork
    let later : WorkQueue := { s.work with timers := s.work.timers.erase t }
    have hlater : Sound { s with work := later } := ⟨h.accounted, h.held_by⟩
    exact hlater.step? (a := .add t.key) rfl

theorem Distinct.act? (h : s.Distinct) (hs : s.Sound) (ha : s.act? a = some s') :
    s'.Distinct := by
  cases a with
  | takes a => exact h.step? hs ha
  | goesOff t =>
    obtain ⟨work, hwork, rfl⟩ := Option.map_eq_some_iff.1 ha
    obtain ⟨-, rfl⟩ := WorkQueue.goOff?_eq_some hwork
    exact h.same ⟨rfl, rfl⟩

theorem Sound.actAll? (h : s.Sound) (ha : s.actAll? acts = some s') : s'.Sound := by
  induction acts generalizing s with
  | nil => exact Option.some.inj ha ▸ h
  | cons a rest ih =>
    obtain ⟨t, ht, hrest⟩ := Option.bind_eq_some_iff.1 ha
    exact ih (h.act? ht) hrest

theorem Distinct.actAll? (h : s.Distinct) (hs : s.Sound) (ha : s.actAll? acts = some s') :
    s'.Distinct := by
  induction acts generalizing s with
  | nil => exact Option.some.inj ha ▸ h
  | cons a rest ih =>
    obtain ⟨t, ht, hrest⟩ := Option.bind_eq_some_iff.1 ha
    exact ih (h.act? hs ht) (hs.act? ht) hrest

/-- An act does to the queue what its handling says. Only the shutdown does more. -/
theorem undergoes_of_act? (hs : s.Sound) (ha : s.act? a = some s')
    (hopen : a ≠ .takes .shutDown) : s.work.Undergoes (s.handling? a) s'.work := by
  cases a with
  | goesOff t =>
    obtain ⟨work, hwork, rfl⟩ := Option.map_eq_some_iff.1 ha
    obtain ⟨⟨hmem, hdue⟩, rfl⟩ := WorkQueue.goOff?_eq_some hwork
    have h := WorkQueue.Undergoes.timedOut hmem
    rw [Nat.max_eq_left hdue] at h
    exact h
  | takes a =>
    cases a with
    | add key =>
      obtain rfl := Option.some.inj ha
      exact .added key
    | ask =>
      obtain rfl := Option.some.inj ha
      exact .untouched rfl rfl
    | wait span =>
      obtain rfl := Option.some.inj ha
      exact .waited span
    | forget key =>
      obtain rfl := Option.some.inj ha
      exact .forgotten key
    | retryLater key =>
      obtain rfl := Option.some.inj ha
      exact .retried key
    | request id =>
      obtain ⟨d, hd, rfl⟩ := Option.map_eq_some_iff.1 ha
      rw [handling?, hd, Option.bind_some]
      have hdepth := Dispenser.depth_step? hd
      rcases Dispenser.queue_step? hd with ⟨hnone, hqueue⟩ | ⟨key, hkey, htake⟩
      · rw [hnone] at hdepth ⊢
        rcases work_answered s id d with hw | hw <;> rw [hw] <;> exact .untouched hqueue hdepth
      · rw [hkey] at hdepth ⊢
        rcases work_answered s id d with hw | hw <;> rw [hw] <;> exact .handedOut htake hdepth
    | abandon id =>
      obtain ⟨_, -, rfl⟩ := Option.map_eq_some_iff.1 ha
      exact .untouched rfl rfl
    | signal =>
      obtain ⟨d, hd, rfl⟩ := Option.map_eq_some_iff.1 ha
      exact .untouched (Dispenser.Accounted.queue_signal? hd)
        (Dispenser.Accounted.depth_signal? hd)
    | signalAll =>
      obtain ⟨d, hd, rfl⟩ := Option.map_eq_some_iff.1 ha
      exact .untouched (Dispenser.Accounted.queue_signalAll? hd)
        (Dispenser.Accounted.depth_signalAll? hd)
    | release id =>
      obtain ⟨holder, hfound, rfl⟩ := Option.map_eq_some_iff.1 ha
      have hmem : holder.2 ∈ s.keys := List.mem_map_of_mem (List.mem_of_find?_eq_some hfound)
      rw [handling?, hfound]
      exact .released ((hs.mem_held holder.2).2 hmem)
    | fire =>
      obtain ⟨work, hwork, rfl⟩ := Option.map_eq_some_iff.1 ha
      obtain ⟨t, rest, htimers, rfl⟩ := WorkQueue.fire?_eq_some hwork
      have hmem : t ∈ s.work.timers := by simp [htimers]
      have h := WorkQueue.Undergoes.timedOut hmem
      have hrest : s.work.timers.erase t = rest := by simp [htimers]
      rw [hrest] at h
      rw [handling?, htimers]
      exact h
    | shutDown => contradiction

theorem isOpen_actAll? (hs : s.Sound) (ha : s.actAll? acts = some s')
    (hstays : .takes .shutDown ∉ acts) (hopen : s.queue.isShutDown = false) :
    s'.queue.isShutDown = false := by
  induction acts generalizing s with
  | nil => exact Option.some.inj ha ▸ hopen
  | cons a rest ih =>
    obtain ⟨t, ht, hrest⟩ := Option.bind_eq_some_iff.1 ha
    obtain ⟨hne, hlater⟩ := not_or.1 (List.mem_cons.not.1 hstays)
    have hundergoes := undergoes_of_act? hs ht (Ne.symm hne)
    exact ih (hs.act? ht) hrest hlater (hundergoes.isShutDown.trans hopen)

theorem backoff_actAll? (hs : s.Sound) (ha : s.actAll? acts = some s')
    (hstays : .takes .shutDown ∉ acts) : s'.work.backoff = s.work.backoff := by
  induction acts generalizing s with
  | nil => exact Option.some.inj ha ▸ rfl
  | cons a rest ih =>
    obtain ⟨t, ht, hrest⟩ := Option.bind_eq_some_iff.1 ha
    obtain ⟨hne, hlater⟩ := not_or.1 (List.mem_cons.not.1 hstays)
    exact (ih (hs.act? ht) hrest hlater).trans (undergoes_of_act? hs ht (Ne.symm hne)).backoff

end Session

end Submarine
