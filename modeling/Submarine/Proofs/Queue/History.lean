import Submarine.Proofs.Queue.Requests

namespace Submarine

inductive Occurrence where
  | added (key : String)
  | handedOut (key : String)
deriving DecidableEq, Repr

def Occurrence.handedOut? : Occurrence → Option String
  | added _ => none
  | handedOut key => some key

def handouts (history : List Occurrence) : List String := history.filterMap Occurrence.handedOut?

def Awaits (key : String) (history : List Occurrence) : Prop :=
  ∃ before after, history = before ++ .added key :: after ∧ .handedOut key ∉ after

variable {key : String} {o : Occurrence} {o? : Option Occurrence} {os : List Occurrence}

theorem awaits_cons : Awaits key (o :: os) ↔ Awaits key os ∨ o = .added key ∧ .handedOut key ∉ os := by
  constructor
  · rintro ⟨before, after, hos, hafter⟩
    cases before with
    | nil =>
      obtain ⟨rfl, rfl⟩ := List.cons.inj hos
      exact .inr ⟨rfl, hafter⟩
    | cons first before =>
      obtain ⟨-, rfl⟩ := List.cons.inj hos
      exact .inl ⟨before, after, rfl, hafter⟩
  · rintro (⟨before, after, rfl, hafter⟩ | ⟨rfl, hos⟩)
    · exact ⟨o :: before, after, rfl, hafter⟩
    · exact ⟨[], os, rfl, hos⟩

theorem not_awaits_nil : ¬ Awaits key [] := by
  rintro ⟨before, after, hos, -⟩
  have hlength := congrArg List.length hos
  simp at hlength

namespace Queue

variable {q q' : Queue}

/-- One step of a run, and what it does to a key. Nobody releases a key that is not held. -/
inductive Steps (q : Queue) : Option Occurrence → Queue → Prop where
  | adds (key : String) : q.Steps (some (.added key)) (q.add key)
  | handsOut {key : String} {q' : Queue} (take : q.take = (.key key, q')) :
      q.Steps (some (.handedOut key)) q'
  | releases {key : String} (held : key ∈ q.held) : q.Steps none (q.done key)
  | keeps (failures : Table String Nat) : q.Steps none { q with failures }

def newlyReady (q q' : Queue) : List String := q'.ready.filter (· ∉ q.ready)

theorem filter_not_mem_self (keys : List String) : keys.filter (· ∉ keys) = [] := by
  rw [List.filter_eq_nil_iff]
  intro key hkey
  simpa using hkey

theorem newlyReady_of_append (hready : q'.ready = q.ready ++ [key]) (hkey : key ∉ q.ready) :
    q.newlyReady q' = [key] := by
  rw [newlyReady, hready, List.filter_append, filter_not_mem_self]
  simp [hkey]

theorem newlyReady_of_subset (hready : q'.ready ⊆ q.ready) : q.newlyReady q' = [] := by
  rw [newlyReady, List.filter_eq_nil_iff]
  intro key hkey
  simpa using hready hkey

theorem not_ready_of_not_dirty (hq : q.Coherent) (hkey : key ∉ q.dirty) : key ∉ q.ready := by
  intro hready
  exact hkey (hq.dirty_of_ready key hready)

theorem not_ready_of_held (hq : q.Coherent) (hkey : key ∈ q.held) : key ∉ q.ready := by
  intro hready
  exact hq.not_held_of_ready key hready hkey

namespace Steps

theorem isShutDown (h : q.Steps o? q') : q'.isShutDown = q.isShutDown := by
  cases h with
  | adds key => exact isShutDown_add q key
  | handsOut take =>
    obtain ⟨-, _, -, rfl⟩ := take_eq_key take
    rfl
  | releases | keeps => rfl

theorem coherent (h : q.Steps o? q') (hq : q.Coherent) : q'.Coherent := by
  cases h with
  | adds key => exact hq.add key
  | handsOut take => exact hq.take take
  | releases held => exact hq.done held
  | keeps => exact ⟨hq.ready_nodup, hq.dirty_of_ready, hq.not_held_of_ready, hq.ready_or_held⟩

theorem mem_dirty_iff (h : q.Steps o? q') (hopen : q.isShutDown = false) :
    key ∈ q'.dirty ↔ o? = some (.added key) ∨ key ∈ q.dirty ∧ o? ≠ some (.handedOut key) := by
  cases h with
  | adds j =>
    have hsymm : key = j ↔ j = key := eq_comm
    rw [mem_dirty_add hopen, hsymm]
    simp
  | @handsOut j _ take =>
    obtain ⟨-, rest, -, rfl⟩ := take_eq_key take
    have hsymm : key = j ↔ j = key := eq_comm
    simp [hsymm]
  | releases held =>
    have hdirty (j : String) : (q.done j).dirty = q.dirty := rfl
    simp [hdirty]
  | keeps => simp

theorem mem_dirty_of_handedOut (h : q.Steps (some (.handedOut key)) q') (hq : q.Coherent) :
    key ∈ q.dirty := by
  cases h with
  | handsOut take =>
    obtain ⟨-, rest, hready, -⟩ := take_eq_key take
    exact hq.dirty_of_ready key (by simp [hready])

/-- Whatever was ready, or becomes ready at the end of the queue, is handed out or is ready still, in
the same order. -/
theorem ready_append (h : q.Steps o? q') (hq : q.Coherent) :
    q.ready ++ q.newlyReady q' = (o?.bind Occurrence.handedOut?).toList ++ q'.ready := by
  have hkept {q' : Queue} (hready : q'.ready = q.ready) :
      q.ready ++ q.newlyReady q' = q'.ready := by
    rw [newlyReady_of_subset (by rw [hready]; exact List.Subset.refl _), List.append_nil, hready]
  have hgrown {q' : Queue} {j : String} (hready : q'.ready = q.ready ++ [j]) (hj : j ∉ q.ready) :
      q.ready ++ q.newlyReady q' = q'.ready := by
    rw [newlyReady_of_append hready hj, hready]
  cases h with
  | adds j =>
    change q.ready ++ q.newlyReady (q.add j) = (q.add j).ready
    by_cases hdone : q.isShutDown ∨ j ∈ q.dirty
    · exact hkept (by rw [add, if_pos hdone])
    · obtain ⟨-, hdirty⟩ := not_or.1 hdone
      by_cases hheld : j ∈ q.held
      · exact hkept (by rw [add, if_neg hdone, if_pos hheld])
      · exact hgrown (by rw [add, if_neg hdone, if_neg hheld]) (not_ready_of_not_dirty hq hdirty)
  | @handsOut j _ take =>
    obtain ⟨-, rest, hready, rfl⟩ := take_eq_key take
    have hsub : rest ⊆ q.ready := by
      rw [hready]
      exact List.subset_cons_self j rest
    rw [newlyReady_of_subset hsub, List.append_nil, hready]
    rfl
  | @releases j held =>
    change q.ready ++ q.newlyReady (q.done j) = (q.done j).ready
    by_cases hre : q.readmits j
    · exact hgrown (by rw [done, if_pos hre]) (not_ready_of_held hq held)
    · exact hkept (by rw [done, if_neg hre])
  | keeps failures => exact hkept rfl

theorem count_le (h : q.Steps o? q') (hq : q.Coherent) (hopen : q.isShutDown = false)
    (key : String) :
    o?.toList.count (.handedOut key) + (if key ∈ q'.dirty then 1 else 0) ≤
      o?.toList.count (.added key) + (if key ∈ q.dirty then 1 else 0) := by
  have hiff : key ∈ q'.dirty ↔ _ := h.mem_dirty_iff hopen
  cases o? with
  | none => simp [hiff]
  | some o =>
    cases o with
    | added j =>
      by_cases hj : j = key
      · subst hj
        simp [hiff]
      · simp [hiff, hj]
    | handedOut j =>
      by_cases hj : j = key
      · subst hj
        simp [hiff, h.mem_dirty_of_handedOut hq]
      · simp [hiff, hj]

end Steps

/-- A run, with what happens to keys and which keys become ready in its course. -/
inductive Runs : Queue → List Occurrence → List String → Queue → Prop where
  | done (q : Queue) : Runs q [] [] q
  | step {q q₁ q' : Queue} {o? : Option Occurrence} {os : List Occurrence} {ready : List String}
      (first : q.Steps o? q₁) (rest : Runs q₁ os ready q') :
      Runs q (o?.toList ++ os) (q.newlyReady q₁ ++ ready) q'

namespace Runs

variable {ready : List String}

theorem isShutDown (h : Runs q os ready q') : q'.isShutDown = q.isShutDown := by
  induction h with
  | done => rfl
  | step first _ ih => rw [ih, first.isShutDown]

theorem coherent (h : Runs q os ready q') (hq : q.Coherent) : q'.Coherent := by
  induction h with
  | done => exact hq
  | step first _ ih => exact ih (first.coherent hq)

theorem mem_dirty_iff (h : Runs q os ready q') (hopen : q.isShutDown = false) :
    key ∈ q'.dirty ↔ Awaits key os ∨ key ∈ q.dirty ∧ .handedOut key ∉ os := by
  induction h with
  | done => simp [not_awaits_nil]
  | @step q q₁ q' o? os ready first rest ih =>
    have hfirst : key ∈ q₁.dirty ↔ _ := first.mem_dirty_iff hopen
    rw [ih (first.isShutDown.trans hopen), hfirst]
    cases o? with
    | none => simp
    | some o =>
      simp only [Option.toList_some, List.cons_append, List.nil_append, awaits_cons,
        List.mem_cons, Option.some.injEq]
      grind

theorem ready_append (h : Runs q os ready q') (hq : q.Coherent) :
    q.ready ++ ready = handouts os ++ q'.ready := by
  induction h with
  | done => simp [handouts]
  | @step q q₁ q' o? os ready first rest ih =>
    have hfirst := first.ready_append hq
    have hsplit : handouts (o?.toList ++ os) =
        (o?.bind Occurrence.handedOut?).toList ++ handouts os := by
      cases o? with
      | none => rfl
      | some o => cases o <;> rfl
    calc q.ready ++ (q.newlyReady q₁ ++ ready)
      _ = (o?.bind Occurrence.handedOut?).toList ++ (q₁.ready ++ ready) := by
        rw [← List.append_assoc, hfirst, List.append_assoc]
      _ = handouts (o?.toList ++ os) ++ q'.ready := by
        rw [ih (first.coherent hq), hsplit, List.append_assoc]

theorem count_le (h : Runs q os ready q') (hq : q.Coherent) (hopen : q.isShutDown = false)
    (key : String) :
    os.count (.handedOut key) + (if key ∈ q'.dirty then 1 else 0) ≤
      os.count (.added key) + (if key ∈ q.dirty then 1 else 0) := by
  induction h with
  | done => simp
  | step first _ ih =>
    have hrest := ih (first.coherent hq) (first.isShutDown.trans hopen)
    have hstep := first.count_le hq hopen key
    rw [List.count_append, List.count_append]
    omega

theorem split {before after : List Occurrence} (h : Runs q (before ++ o :: after) ready q') :
    ∃ q₁ q₂ ready₁ ready₂, Runs q before ready₁ q₁ ∧ q₁.Steps (some o) q₂ ∧
      Runs q₂ after ready₂ q' := by
  generalize hos : before ++ o :: after = os at h
  induction h generalizing before with
  | done => simp at hos
  | @step q q₁ q' o? os ready first rest ih =>
    cases o? with
    | none =>
      obtain ⟨q₂, q₃, ready₁, ready₂, hbefore, hstep, hafter⟩ := ih hos
      exact ⟨q₂, q₃, _, ready₂, .step first hbefore, hstep, hafter⟩
    | some u =>
      cases before with
      | nil =>
        obtain ⟨rfl, rfl⟩ := List.cons.inj hos
        exact ⟨q, q₁, _, ready, .done q, first, rest⟩
      | cons v before =>
        obtain ⟨rfl, htail⟩ := List.cons.inj hos
        obtain ⟨q₂, q₃, ready₁, ready₂, hbefore, hstep, hafter⟩ := ih htail
        exact ⟨q₂, q₃, _, ready₂, .step first hbefore, hstep, hafter⟩

theorem added_between {before between after : List Occurrence}
    (h : Runs q (before ++ .handedOut key :: (between ++ .handedOut key :: after)) ready q')
    (hq : q.Coherent) (hopen : q.isShutDown = false) : .added key ∈ between := by
  obtain ⟨q₁, q₂, _, _, hbefore, hfirst, hrest⟩ := h.split
  obtain ⟨q₃, q₄, _, _, hbetween, hsecond, -⟩ := hrest.split
  have hq₂ : q₂.Coherent := hfirst.coherent (hbefore.coherent hq)
  have hopen₁ : q₁.isShutDown = false := hbefore.isShutDown.trans hopen
  have hopen₂ : q₂.isShutDown = false := hfirst.isShutDown.trans hopen₁
  -- The first handout leaves the key unmarked, and the second one finds it marked.
  have hclean : key ∉ q₂.dirty := by
    rw [hfirst.mem_dirty_iff hopen₁]
    simp
  have hmarked : key ∈ q₃.dirty := hsecond.mem_dirty_of_handedOut (hbetween.coherent hq₂)
  rcases (hbetween.mem_dirty_iff hopen₂).1 hmarked with ⟨_, _, rfl, -⟩ | ⟨hdirty, -⟩
  · simp
  · exact absurd hdirty hclean

/-- The key in a place of the queue is handed out after as many others as stand before it. -/
theorem getElem?_handouts {i : Nat} (h : Runs q os ready q') (hq : q.Coherent)
    (hi : q.ready[i]? = some key) (hlt : i < (handouts os).length) :
    (handouts os)[i]? = some key ∧ ∀ j < i, (handouts os)[j]? ≠ some key := by
  have hlaw := h.ready_append hq
  obtain ⟨hbound, -⟩ := List.getElem?_eq_some_iff.1 hi
  have hsame {j : Nat} (hj : j ≤ i) : (handouts os)[j]? = q.ready[j]? := by
    have hleft : (q.ready ++ ready)[j]? = q.ready[j]? := List.getElem?_append_left (by omega)
    have hright : (handouts os ++ q'.ready)[j]? = (handouts os)[j]? :=
      List.getElem?_append_left (by omega)
    rw [← hright, ← hlaw, hleft]
  refine ⟨(hsame (Nat.le_refl i)).trans hi, fun j hj hkey ↦ ?_⟩
  have hj' : q.ready[i]? = q.ready[j]? := by
    rw [hi, ← hsame (Nat.le_of_lt hj), hkey]
  have hij : i = j := (List.getElem?_inj hbound hq.ready_nodup).1 hj'
  omega

end Runs

end Queue

namespace Session

variable {s s' : Session} {a : Action} {actions : List Action}

def occurrence? (s : Session) : Action → Option Occurrence
  | .add key => some (.added key)
  | .fire => s.work.timers.head?.map fun t ↦ .added t.key
  | .request id => ((s.work.dispenser.step? id).bind (·.handed? id)).map .handedOut
  | .ask | .abandon _ | .signal | .signalAll | .release _ | .forget _ | .retryLater _ | .wait _
  | .shutDown => none

def history (s : Session) : List Action → List Occurrence
  | [] => []
  | a :: rest => (s.occurrence? a).toList ++ ((s.step? a).map fun t ↦ history t rest).getD []

def readied (s : Session) : List Action → List String
  | [] => []
  | a :: rest => ((s.step? a).map fun t ↦ s.queue.newlyReady t.queue ++ readied t rest).getD []

theorem queueSteps_of_step? (h : s.step? a = some s') (hs : s.Sound) (ha : a ≠ .shutDown) :
    s.queue.Steps (s.occurrence? a) s'.queue := by
  have hkeeps : s.queue.Steps none s.queue := .keeps s.queue.failures
  cases a with
  | add key =>
    obtain rfl := Option.some.inj h
    exact .adds key
  | ask | wait =>
    obtain rfl := Option.some.inj h
    exact hkeeps
  | forget | retryLater =>
    obtain rfl := Option.some.inj h
    exact .keeps _
  | request id =>
    obtain ⟨d, hd, rfl⟩ := Option.map_eq_some_iff.1 h
    rw [queue_answered, occurrence?, hd]
    rcases Dispenser.queue_step? hd with ⟨hnone, hqueue⟩ | ⟨key, hkey, htake⟩
    · rw [hqueue, Option.bind_some, hnone]
      exact hkeeps
    · rw [Option.bind_some, hkey]
      exact .handsOut htake
  | abandon id =>
    obtain ⟨_, -, rfl⟩ := Option.map_eq_some_iff.1 h
    exact hkeeps
  | signal =>
    obtain ⟨d, hd, rfl⟩ := Option.map_eq_some_iff.1 h
    change s.queue.Steps none d.queue
    rw [Dispenser.Accounted.queue_signal? hd]
    exact hkeeps
  | signalAll =>
    obtain ⟨d, hd, rfl⟩ := Option.map_eq_some_iff.1 h
    change s.queue.Steps none d.queue
    rw [Dispenser.Accounted.queue_signalAll? hd]
    exact hkeeps
  | release id =>
    obtain ⟨holder, hfound, rfl⟩ := Option.map_eq_some_iff.1 h
    have hmem : holder.2 ∈ s.keys := List.mem_map_of_mem (List.mem_of_find?_eq_some hfound)
    exact .releases ((hs.mem_held holder.2).2 hmem)
  | fire =>
    obtain ⟨work, hw, rfl⟩ := Option.map_eq_some_iff.1 h
    obtain ⟨t, rest, htimers, rfl⟩ := WorkQueue.fire?_eq_some hw
    rw [occurrence?, htimers]
    exact .adds t.key
  | shutDown => contradiction

theorem runs_of_run (hs : s.Sound) (h : s.run actions = some s') (hopen : .shutDown ∉ actions) :
    s.queue.Runs (s.history actions) (s.readied actions) s'.queue := by
  induction actions generalizing s with
  | nil =>
    obtain rfl := Option.some.inj h
    exact .done s.queue
  | cons a rest ih =>
    obtain ⟨t, ht, hrest⟩ := Option.bind_eq_some_iff.1 h
    obtain ⟨hne, hstill⟩ : a ≠ .shutDown ∧ .shutDown ∉ rest := by
      simpa [eq_comm] using hopen
    rw [history, readied, ht]
    exact .step (queueSteps_of_step? ht hs hne) (ih (hs.step? ht) hrest hstill)

theorem Distinct.run (h : s.Distinct) (hs : s.Sound) (hrun : s.run actions = some s') :
    s'.Distinct := by
  induction actions generalizing s with
  | nil => exact Option.some.inj hrun ▸ h
  | cons a rest ih =>
    obtain ⟨t, ht, hrest⟩ := Option.bind_eq_some_iff.1 hrun
    exact ih (h.step? hs ht) (hs.step? ht) hrest

theorem ready_or_readied_of_dirty {key : String} (hs : s.Sound) (hd : s.Distinct)
    (hopen : s.queue.isShutDown = false) (hkey : key ∈ s.queue.dirty) :
    key ∈ s.queue.ready ∨ ∃ id s', (id, key) ∈ s.holders ∧
      s.step? (.release id) = some s' ∧ key ∈ s'.queue.ready := by
  rcases hs.accounted.coherent.ready_or_held hopen key hkey with hready | hheld
  · exact .inl hready
  · obtain ⟨⟨id, j⟩, hmem, rfl⟩ := List.mem_map.1 ((hs.mem_held key).1 hheld)
    refine .inr ⟨id, _, hmem, hd.release_eq hmem, ?_⟩
    have hre : s.queue.readmits j := by simp [Queue.readmits, hopen, hkey]
    change j ∈ (s.queue.done j).ready
    rw [Queue.done, if_pos hre]
    simp

/-- As long as the queue is open: a key that was added and not handed out since is ready, or becomes
so when its holder releases it; between two handouts of a key it was added, so it is handed out at
most as often as it was added; and what becomes ready is handed out in this order, the key in place
`i` of the queue by the handout that comes after `i` others. -/
theorem handouts_follow_adds {backoff : Backoff} {isMeasured : Bool} {actions : List Action}
    (h : (start backoff isMeasured).run actions = some s) (hopen : .shutDown ∉ actions)
    (key : String) :
    (∀ before after, (start backoff isMeasured).history actions = before ++ .added key :: after →
      .handedOut key ∉ after →
        key ∈ s.queue.ready ∨ ∃ id s', (id, key) ∈ s.holders ∧
          s.step? (.release id) = some s' ∧ key ∈ s'.queue.ready) ∧
    (∀ before between after, (start backoff isMeasured).history actions =
      before ++ .handedOut key :: (between ++ .handedOut key :: after) → .added key ∈ between) ∧
    ((start backoff isMeasured).history actions).count (.handedOut key) ≤
      ((start backoff isMeasured).history actions).count (.added key) ∧
    ∀ more s', s.run more = some s' → .shutDown ∉ more →
      s.queue.ready ++ s.readied more = handouts (s.history more) ++ s'.queue.ready ∧
        ∀ i, s.queue.ready[i]? = some key → i < (handouts (s.history more)).length →
          (handouts (s.history more))[i]? = some key ∧
            ∀ j < i, (handouts (s.history more))[j]? ≠ some key := by
  have hstart := sound_start backoff isMeasured
  have hsound := hstart.run h
  have hdistinct := (distinct_start backoff isMeasured).run hstart h
  have hruns := runs_of_run hstart h hopen
  have hempty : (start backoff isMeasured).queue.Coherent := hstart.accounted.coherent
  have hisOpen : s.queue.isShutDown = false := hruns.isShutDown
  refine ⟨fun before after hhistory hafter ↦ ?_, fun before between after hhistory ↦ ?_, ?_,
    fun more s' hmore hstill ↦ ?_⟩
  · have hawaits : Awaits key ((start backoff isMeasured).history actions) :=
      ⟨before, after, hhistory, hafter⟩
    exact ready_or_readied_of_dirty hsound hdistinct hisOpen
      ((hruns.mem_dirty_iff rfl).2 (.inl hawaits))
  · rw [hhistory] at hruns
    exact hruns.added_between hempty rfl
  · have hcount := hruns.count_le hempty rfl key
    have hnone : key ∉ (start backoff isMeasured).queue.dirty := by
      intro hmem
      contradiction
    rw [if_neg hnone] at hcount
    omega
  · have hmoreRuns := runs_of_run hsound hmore hstill
    refine ⟨hmoreRuns.ready_append hsound.accounted.coherent, fun i hi hlt ↦ ?_⟩
    exact hmoreRuns.getElem?_handouts hsound.accounted.coherent hi hlt

/-- Of two keys one was added again while it was held, and is handed out again after its release. -/
theorem handouts_follow_adds_of_readded :
    ∃ s s', (start ⟨1, 8⟩ true).run [.add "ns/x", .add "ns/y", .ask, .request 0, .add "ns/x",
        .add "ns/x"] = some s ∧
      (start ⟨1, 8⟩ true).history [.add "ns/x", .add "ns/y", .ask, .request 0, .add "ns/x",
        .add "ns/x"] = [.added "ns/x", .added "ns/y", .handedOut "ns/x", .added "ns/x",
          .added "ns/x"] ∧
      s.holders = [(0, "ns/x")] ∧ s.queue.ready = ["ns/y"] ∧
      (∃ id t, (id, "ns/x") ∈ s.holders ∧ s.step? (.release id) = some t ∧ "ns/x" ∈ t.queue.ready) ∧
      s.run [.ask, .request 1, .release 0, .ask, .request 2] = some s' ∧
      handouts (s.history [.ask, .request 1, .release 0, .ask, .request 2]) = ["ns/y", "ns/x"] ∧
      s.queue.ready ++ s.readied [.ask, .request 1, .release 0, .ask, .request 2] =
        handouts (s.history [.ask, .request 1, .release 0, .ask, .request 2]) ++ s'.queue.ready := by
  obtain ⟨s, hs⟩ : ∃ s, (start ⟨1, 8⟩ true).run [.add "ns/x", .add "ns/y", .ask, .request 0,
      .add "ns/x", .add "ns/x"] = some s := ⟨_, rfl⟩
  obtain ⟨s', hs'⟩ : ∃ s', s.run [.ask, .request 1, .release 0, .ask, .request 2] = some s' := by
    cases hs
    exact ⟨_, rfl⟩
  have h := handouts_follow_adds hs (by decide) "ns/x"
  have hnotReady : "ns/x" ∉ s.queue.ready := by
    cases hs
    decide
  have hwaits := (h.1 [.added "ns/x", .added "ns/y", .handedOut "ns/x"] [.added "ns/x"] rfl
    (by decide)).resolve_left hnotReady
  have hlaw := (h.2.2.2 _ s' hs' (by decide)).1
  cases hs
  cases hs'
  exact ⟨_, _, rfl, rfl, rfl, rfl, hwaits, rfl, rfl, hlaw⟩

end Session

end Submarine
