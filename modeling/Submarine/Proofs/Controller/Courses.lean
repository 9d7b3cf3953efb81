import Submarine.Proofs.Controller.Turns
import Submarine.Proofs.Watch.Following
import Mathlib.Data.List.Pairwise

namespace Submarine

theorem Cache.relistDone_mem_of_synced {k : Kind} {cache : Cache k} {es : List (WatchEvent k)}
    (h : (cache.applyAll es).1.synced) (hunsynced : cache.synced = false) : .relistDone ∈ es := by
  induction es generalizing cache with
  | nil =>
    have hsynced : cache.synced = true := h
    rw [hunsynced] at hsynced
    contradiction
  | cons e rest ih =>
    by_cases he : e = .relistDone
    · exact he ▸ List.mem_cons_self
    · have hsynced := cache.synced_apply e
      rw [hunsynced, Bool.false_or, beq_eq_false_iff_ne.2 he] at hsynced
      exact List.mem_cons_of_mem _ (ih h hsynced)

def World.reply (w : World) (r : Request) : Except (Option String) r.Answer :=
  match (w.serve r).1 with
  | some answer => .ok answer
  | none => .error none

theorem World.step_reply {α : Type} (w : World) (r : Request) (next : r.Answer → Pass α) :
    (w.step (.ask r next)).1 = .resume next (w.reply r) := by
  simp only [World.step, World.reply]
  rcases w.serve r with ⟨_ | answer, w'⟩ <;> rfl

inductive Deed where
  | handed (key : String)
  | asked (key : String) (request : Request) (answer : Except (Option String) request.Answer)
  | ended (key : String) (result : Except Failure Unit)
  | released (key : String)

namespace Deed

def key : Deed → String
  | handed key | asked key _ _ | ended key _ | released key => key

def isHanded : Deed → Bool
  | handed _ => true
  | asked _ _ _ | ended _ _ | released _ => false

def isEnded : Deed → Bool
  | ended _ _ => true
  | handed _ | asked _ _ _ | released _ => false

def isReleased : Deed → Bool
  | released _ => true
  | handed _ | asked _ _ _ | ended _ _ => false

end Deed

variable {i : Nat} {key : String}

/-- Where a key is in its course. -/
inductive Standing where
  | free
  -- It was handed out, and so much of the pass over it is still to come.
  | held (rest : Pass Unit)
  -- The pass has ended; the key is still to be released.
  | spent

/-- The deeds lead the key from one standing to another: every pass over it is the whole pass,
with the answers that its requests were given, and the key is released once for each. -/
inductive Course (key : String) : Standing → List Deed → Standing → Prop where
  | refl (st : Standing) : Course key st [] st
  | handed {ds : List Deed} {st : Standing} (rest : Course key (.held (reconcile key)) ds st) :
      Course key .free (.handed key :: ds) st
  | asked {r : Request} {next : r.Answer → Pass Unit} {ds : List Deed} {st : Standing}
      (answer : Except (Option String) r.Answer)
      (rest : Course key (.held (.resume next answer)) ds st) :
      Course key (.held (.ask r next)) (.asked key r answer :: ds) st
  | succeeded {ds : List Deed} {st : Standing} (rest : Course key .spent ds st) :
      Course key (.held (.done ())) (.ended key (.ok ()) :: ds) st
  | failed {f : Failure} {ds : List Deed} {st : Standing} (rest : Course key .spent ds st) :
      Course key (.held (.fail f)) (.ended key (.error f) :: ds) st
  | released {ds : List Deed} {st : Standing} (rest : Course key .free ds st) :
      Course key .spent (.released key :: ds) st

namespace Standing

def unended : Standing → Nat
  | held _ => 1
  | free | spent => 0

def unreleased : Standing → Nat
  | held _ | spent => 1
  | free => 0

@[simp] theorem unended_free : free.unended = 0 := rfl
@[simp] theorem unended_held (rest : Pass Unit) : (held rest).unended = 1 := rfl
@[simp] theorem unended_spent : spent.unended = 0 := rfl
@[simp] theorem unreleased_free : free.unreleased = 0 := rfl
@[simp] theorem unreleased_held (rest : Pass Unit) : (held rest).unreleased = 1 := rfl
@[simp] theorem unreleased_spent : spent.unreleased = 1 := rfl

end Standing

namespace Course

variable {st mid st' : Standing} {ds ds' : List Deed}

theorem trans (h : Course key st ds mid) (h' : Course key mid ds' st') :
    Course key st (ds ++ ds') st' := by
  induction h with
  | refl => exact h'
  | handed _ ih => exact .handed (ih h')
  | asked answer _ ih => exact .asked answer (ih h')
  | succeeded _ ih => exact .succeeded (ih h')
  | failed _ ih => exact .failed (ih h')
  | released _ ih => exact .released (ih h')

theorem balance (h : Course key st ds st') :
    ds.countP Deed.isHanded + st.unended = ds.countP Deed.isEnded + st'.unended ∧
      ds.countP Deed.isHanded + st.unreleased = ds.countP Deed.isReleased + st'.unreleased := by
  induction h with
  | refl => exact ⟨by simp, by simp⟩
  | handed _ ih | asked _ _ ih | succeeded _ ih | failed _ ih | released _ ih =>
    simp [List.countP_cons, Deed.isHanded, Deed.isEnded, Deed.isReleased] at ih ⊢
    omega

end Course

namespace Worker

def deed? (w : Worker) (answer : (r : Request) → Except (Option String) r.Answer) : Option Deed :=
  match w with
  | .passing key (.ask r _) => some (.asked key r (answer r))
  | .passing key (.done ()) => some (.ended key (.ok ()))
  | .passing key (.fail f) => some (.ended key (.error f))
  | .releasing key => some (.released key)
  | .asking _ | .exited => none

end Worker

namespace Controller

variable {s s' : Controller} {t : Turn} {turns : List Turn} {st st' : Standing}

def deed? (s : Controller) : Turn → Option Deed
  | .move (.act (.taker id)) =>
    ((s.work.dispenser.step? id).bind (·.handed? id)).map .handed
  | .move (.act (.worker i)) => s.workers[i]?.bind (·.deed? s.world.reply)
  | .answer i answer => s.workers[i]?.bind (·.deed? answer)
  | .move _ | .deliver _ _ | .overlook => none

/-- What is done about keys in the course of the turns, in order. -/
def deeds (s : Controller) : List Turn → List Deed
  | [] => []
  | t :: rest => (s.deed? t).toList ++ ((s.turn? t).map (·.deeds rest)).getD []

def deedsOn (s : Controller) (key : String) (turns : List Turn) : List Deed :=
  (s.deeds turns).filter (·.key = key)

inductive Stands (s : Controller) (key : String) : Standing → Prop where
  | free (h : key ∉ s.work.queue.held) : Stands s key .free
  | handed (h : key ∈ s.work.queue.held) (waits : ∀ w ∈ s.workers, w.key? ≠ some key) :
      Stands s key (.held (reconcile key))
  | passing {rest : Pass Unit} (h : Worker.passing key rest ∈ s.workers) :
      Stands s key (.held rest)
  | releasing (h : Worker.releasing key ∈ s.workers) : Stands s key .spent

theorem Serves.held_of_worker {w : Worker} (h : s.Serves) (hw : w ∈ s.workers)
    (hkey : w.key? = some key) : key ∈ s.work.queue.held :=
  (h.accounted.mem_held key).2 (List.mem_append_right _ (List.mem_filterMap.2 ⟨w, hw, hkey⟩))

theorem Serves.eq_of_key? {v w : Worker} (h : s.Serves) (hv : v ∈ s.workers) (hw : w ∈ s.workers)
    (hvkey : v.key? = some key) (hwkey : w.key? = some key) : v = w := by
  by_contra hne
  have hnodup := (List.nodup_append.1 h.accounted.nodup).2.1
  have hpairwise := List.pairwise_filterMap.1 hnodup
  have : Std.Symm fun v w : Worker ↦ ∀ b, v.key? = some b → ∀ b', w.key? = some b' → b ≠ b' :=
    ⟨fun v w hvw b hb b' hb' he ↦ hvw b' hb' b hb he.symm⟩
  exact hpairwise.forall hv hw hne key hvkey key hwkey rfl

theorem Stands.unique (h : s.Stands key st) (hs : s.Serves) (h' : s.Stands key st') :
    st = st' := by
  cases h with
  | free h =>
    cases h' with
    | free => rfl
    | handed h' => exact absurd h' h
    | passing h' | releasing h' => exact absurd (hs.held_of_worker h' rfl) h
  | handed h waits =>
    cases h' with
    | free h' => exact absurd h h'
    | handed => rfl
    | passing h' | releasing h' => exact absurd rfl (waits _ h')
  | passing h =>
    cases h' with
    | free h' => exact absurd (hs.held_of_worker h rfl) h'
    | handed _ waits => exact absurd rfl (waits _ h)
    | passing h' =>
      obtain ⟨-, rfl⟩ := Worker.passing.inj (hs.eq_of_key? h h' rfl rfl)
      rfl
    | releasing h' =>
      have hsame := hs.eq_of_key? h h' rfl rfl
      contradiction
  | releasing h =>
    cases h' with
    | free h' => exact absurd (hs.held_of_worker h rfl) h'
    | handed _ waits => exact absurd rfl (waits _ h)
    | passing h' =>
      have hsame := hs.eq_of_key? h h' rfl rfl
      contradiction
    | releasing => rfl

theorem Stands.frame (h : s.Stands key st)
    (hheld : key ∈ s'.work.queue.held ↔ key ∈ s.work.queue.held)
    (hworkers : ∀ w, w.key? = some key → (w ∈ s'.workers ↔ w ∈ s.workers)) :
    s'.Stands key st := by
  cases h with
  | free h => exact .free fun hmem ↦ h (hheld.1 hmem)
  | handed h waits =>
    exact .handed (hheld.2 h) fun w hw hkey ↦ waits w ((hworkers w hkey).1 hw) hkey
  | passing h => exact .passing ((hworkers _ rfl).2 h)
  | releasing h => exact .releasing ((hworkers _ rfl).2 h)

theorem mem_set_iff_of_ne {w v v' : Worker} {workers : List Worker} (hv : workers[i]? = some v)
    (hne : w ≠ v) (hne' : w ≠ v') : w ∈ workers.set i v' ↔ w ∈ workers := by
  simp only [List.mem_iff_getElem?, getElem?_set_of_some hv]
  refine exists_congr fun j ↦ ?_
  split
  · next hij =>
    subst hij
    rw [hv]
    exact ⟨fun h ↦ absurd (Option.some.inj h).symm hne',
      fun h ↦ absurd (Option.some.inj h).symm hne⟩
  · rfl

/-- A worker that was and is not about this key goes over to another state. -/
theorem Stands.set {v v' : Worker} (h : s.Stands key st) (hv : s.workers[i]? = some v)
    (hset : s'.workers = s.workers.set i v') (hkey : v.key? ≠ some key) (hkey' : v'.key? ≠ some key)
    (hheld : key ∈ s'.work.queue.held ↔ key ∈ s.work.queue.held) : s'.Stands key st := by
  refine h.frame hheld fun w hw ↦ hset ▸ mem_set_iff_of_ne hv ?_ ?_
  · rintro rfl
    exact hkey hw
  · rintro rfl
    exact hkey' hw

theorem Stands.hireMany {count : Nat} (h : s.Stands key st) : (s.hireMany count).Stands key st := by
  induction count generalizing s with
  | zero => exact h
  | succ count ih =>
    refine ih (s := s.hire) (h.frame Iff.rfl fun w hw ↦ ?_)
    change w ∈ s.workers ++ [.asking s.work.takeLater.1] ↔ _
    rw [List.mem_append, List.mem_singleton, or_iff_left]
    rintro rfl
    contradiction

def deedOn (key : String) (deed? : Option Deed) : List Deed :=
  deed?.toList.filter (·.key = key)

def Advanced (s : Controller) (key : String) (st : Standing) (deed? : Option Deed) : Prop :=
  ∃ st', s.Stands key st' ∧ Course key st (deedOn key deed?) st'

theorem Advanced.aside {deed? : Option Deed} (h : s.Stands key st)
    (hdeed : ∀ deed ∈ deed?, deed.key ≠ key) : s.Advanced key st deed? := by
  refine ⟨st, h, ?_⟩
  have hnone : deedOn key deed? = [] := by
    refine List.filter_eq_nil_iff.2 fun deed hmem ↦ ?_
    simpa using hdeed deed (Option.mem_toList.1 hmem)
  rw [hnone]
  exact .refl st

theorem Stands.takes {id : Nat} {d : Dispenser} (h : s.Stands key st) (hs : s.Serves)
    (hd : s.work.dispenser.step? id = some d) :
    (s.withWork (s.work.follow d)).Advanced key st ((d.handed? id).map .handed) := by
  rcases Dispenser.queue_step? hd with ⟨hnone, hqueue⟩ | ⟨j, hhanded, htake⟩
  · rw [hnone]
    refine .aside (h.frame ?_ fun w _ ↦ Iff.rfl) (by simp)
    change key ∈ d.queue.held ↔ _
    rw [hqueue]
  · rw [hhanded]
    have hfree : j ∉ s.work.queue.held := hs.accounted.coherent.not_held_of_take htake
    obtain ⟨-, _, -, hqueue⟩ := Queue.take_eq_key htake
    have hheld : key ∈ d.queue.held ↔ key = j ∨ key ∈ s.work.queue.held := by
      rw [hqueue]
      exact List.mem_insert_iff
    by_cases hkey : key = j
    · subst hkey
      obtain rfl := h.unique hs (.free hfree)
      refine ⟨.held (reconcile key), .handed (hheld.2 (.inl rfl)) fun w hw hwkey ↦ ?_, ?_⟩
      · exact hfree (hs.held_of_worker hw hwkey)
      · simpa [deedOn, Deed.key] using Course.handed (.refl _)
    · refine .aside (h.frame ?_ fun w _ ↦ Iff.rfl) fun deed hdeed ↦ ?_
      · exact hheld.trans (or_iff_right hkey)
      · obtain rfl := Option.some.inj hdeed
        exact fun he ↦ hkey he.symm

/-- A worker does something about its key, and no other key is concerned. -/
theorem Stands.acts {j : String} {deed : Deed} {v v' : Worker} {old new : Standing}
    (h : s.Stands key st) (hs : s.Serves) (hw : s.workers[i]? = some v)
    (hset : s'.workers = s.workers.set i v') (hv : ∀ key, v.key? = some key → j = key)
    (hv' : ∀ key, v'.key? = some key → j = key)
    (hheld : key ≠ j → (key ∈ s'.work.queue.held ↔ key ∈ s.work.queue.held))
    (hdeed : deed.key = j) (hold : s.Stands j old) (hnew : s'.Stands j new)
    (hcourse : Course j old [deed] new) : s'.Advanced key st (some deed) := by
  by_cases hkey : j = key
  · subst hkey
    obtain rfl := h.unique hs hold
    refine ⟨new, hnew, ?_⟩
    simpa [deedOn, hdeed] using hcourse
  · refine .aside (h.set hw hset (fun he ↦ hkey (hv key he)) (fun he ↦ hkey (hv' key he)) ?_) ?_
    · exact hheld fun he ↦ hkey he.symm
    · intro deed' hdeed'
      obtain rfl := Option.some.inj hdeed'
      exact hdeed ▸ hkey

/-- The worker of a pass goes on with the answer to its request. -/
theorem Stands.asks (world : World) {j : String} {r : Request} {next : r.Answer → Pass Unit}
    {answer : Except (Option String) r.Answer} (h : s.Stands key st) (hs : s.Serves)
    (hw : s.workers[i]? = some (.passing j (.ask r next))) :
    ((s.withWorld world).withWorker i (.passing j (.resume next answer))).Advanced key st
      (some (.asked j r answer)) := by
  have hkey (rest : Pass Unit) (key : String) (he : (Worker.passing j rest).key? = some key) :
      j = key := Option.some.inj he
  exact h.acts hs hw rfl (hkey _) (hkey _) (fun _ ↦ Iff.rfl) rfl
    (.passing (List.mem_of_getElem? hw))
    (.passing (List.mem_of_getElem? (getElem?_set_self_of_some hw _))) (.asked answer (.refl _))

theorem Stands.ends {j : String} {rest : Pass Unit} {result : Except Failure Unit}
    (h : s.Stands key st) (hs : s.Serves) (hw : s.workers[i]? = some (.passing j rest))
    (hcourse : Course j (.held rest) [.ended j result] .spent) :
    ((s.withWork (s.work.conclude j result)).withWorker i (.releasing j)).Advanced key st
      (some (.ended j result)) := by
  have hheld : (s.work.conclude j result).queue.held = s.work.queue.held :=
    WorkQueue.held_conclude ..
  exact h.acts hs hw rfl (fun _ he ↦ Option.some.inj he) (fun _ he ↦ Option.some.inj he)
    (fun _ ↦ iff_of_eq (congrArg (key ∈ ·) hheld)) rfl (.passing (List.mem_of_getElem? hw))
    (.releasing (List.mem_of_getElem? (getElem?_set_self_of_some hw _))) hcourse

theorem Stands.releases {j : String} (h : s.Stands key st) (hs : s.Serves)
    (hw : s.workers[i]? = some (.releasing j)) :
    ((s.withWork (s.work.done j).takeLater.2).withWorker i
      (.asking (s.work.done j).takeLater.1)).Advanced key st (some (.released j)) := by
  have hheld (key : String) : key ∈ (s.work.done j).takeLater.2.queue.held ↔
      key ∈ s.work.queue.held ∧ key ≠ j := Queue.mem_held_done
  exact h.acts hs hw rfl (fun _ he ↦ Option.some.inj he) (by simp [Worker.key?])
    (fun hne ↦ (hheld key).trans (and_iff_left hne)) rfl (.releasing (List.mem_of_getElem? hw))
    (.free fun hmem ↦ ((hheld j).1 hmem).2 rfl) (.released (.refl _))

theorem Stands.works (h : s.Stands key st) (hs : s.Serves) (hstep : s.WorkerSteps i s') :
    s'.Advanced key st (s.workers[i]?.bind (·.deed? s.world.reply)) := by
  cases hstep with
  | @takes taker j worker stage =>
    rw [worker]
    refine .aside ?_ (by simp [Worker.deed?])
    by_cases hkey : key = j
    · subst hkey
      have hhanded : key ∈ s.work.dispenser.handed :=
        List.mem_filterMap.2 ⟨_, Dispenser.mem_takers_of_stage? stage, rfl⟩
      have hwaits : s.Stands key (.held (reconcile key)) := by
        refine .handed ((hs.accounted.mem_held key).2 (List.mem_append_left _ hhanded)) ?_
        intro w hw hwkey
        have hout : key ∈ s.workers.filterMap Worker.key? := List.mem_filterMap.2 ⟨w, hw, hwkey⟩
        exact (List.nodup_append.1 hs.accounted.nodup).2.2 key hhanded key hout rfl
      obtain rfl := h.unique hs hwaits
      exact .passing (List.mem_of_getElem? (getElem?_set_self_of_some worker _))
    · refine h.set worker rfl (by simp [Worker.key?]) (fun he ↦ hkey ?_) Iff.rfl
      exact (Option.some.inj he).symm
  | @leaves taker worker stage =>
    rw [worker]
    exact .aside (h.set worker rfl (by simp [Worker.key?]) (by simp [Worker.key?]) Iff.rfl)
      (by simp [Worker.deed?])
  | asks worker =>
    rw [worker, World.step_reply]
    exact h.asks _ hs worker
  | ends worker =>
    rw [worker]
    exact h.ends hs worker (.succeeded (.refl _))
  | fails worker =>
    rw [worker]
    exact h.ends hs worker (.failed (.refl _))
  | releases worker =>
    rw [worker]
    exact h.releases hs worker

theorem Stands.proceeds (h : s.Stands key st) (hstep : s.Proceeds s') : s'.Stands key st := by
  cases hstep with
  | giveUp | stops | loses | leaves => exact h.frame Iff.rfl fun w _ ↦ Iff.rfl
  | hires => exact h.hireMany.frame Iff.rfl fun w _ ↦ Iff.rfl

theorem Stands.turn (h : s.Stands key st) (hs : s.Serves) (hstep : s.TurnSteps t s') :
    s'.Advanced key st (s.deed? t) := by
  have hnothing {deed? : Option Deed} (hnone : deed? = none) :
      ∀ deed ∈ deed?, deed.key ≠ key := by
    simp [hnone]
  cases hstep with
  | watches step =>
    obtain ⟨_, _, _, key?, -, -, rfl⟩ := Watchers.step?_eq_some step
    refine .aside (h.frame ?_ fun w _ ↦ Iff.rfl) (hnothing rfl)
    cases key? with
    | none => rfl
    | some j =>
      change key ∈ (s.work.queue.add j).held ↔ _
      rw [Queue.held_add]
  | connects opened =>
    obtain ⟨_, _, -, -, rfl⟩ := Watchers.open?_eq_some opened
    exact .aside (h.frame Iff.rfl fun w _ ↦ Iff.rfl) (hnothing rfl)
  | delivers | waits | requests =>
    exact .aside (h.frame Iff.rfl fun w _ ↦ Iff.rfl) (hnothing rfl)
  | @changes m world roots outer =>
    refine .aside (h.frame Iff.rfl fun w _ ↦ Iff.rfl) (hnothing ?_)
    cases m with
    | act a => exact absurd rfl (outer a)
    | connect | operate | crash | setClock | wait | requestShutdown => rfl
  | works step => exact h.works hs step
  | @answers j key' r next answer worker =>
    have hdeed : s.deed? (.answer j answer) = some (.asked key' r (answer r)) := by
      rw [deed?, worker]
      rfl
    rw [hdeed]
    exact h.asks s.world hs worker
  | @takes id d step =>
    have hdeed : s.deed? (.move (.act (.taker id))) = (d.handed? id).map .handed := by
      rw [deed?, step]
      rfl
    rw [hdeed]
    exact h.takes hs step
  | signals step =>
    refine .aside (h.frame ?_ fun w _ ↦ Iff.rfl) (hnothing rfl)
    exact iff_of_eq (congrArg (key ∈ Queue.held ·) (Dispenser.Accounted.queue_signal? step))
  | signalsAll step =>
    refine .aside (h.frame ?_ fun w _ ↦ Iff.rfl) (hnothing rfl)
    exact iff_of_eq (congrArg (key ∈ Queue.held ·) (Dispenser.Accounted.queue_signalAll? step))
  | fires fired =>
    obtain ⟨timer, rest, -, rfl⟩ := WorkQueue.fire?_eq_some fired
    refine .aside (h.frame ?_ fun w _ ↦ Iff.rfl) (hnothing rfl)
    change key ∈ (s.work.queue.add timer.key).held ↔ _
    rw [Queue.held_add]
  | proceeds step turn =>
    refine .aside (h.proceeds step) (hnothing ?_)
    rcases turn with rfl | rfl <;> rfl

theorem Stands.runs (h : s.Stands key st) (hs : s.Serves) (hruns : s.runs? turns = some s') :
    ∃ st', s'.Stands key st' ∧ Course key st (s.deedsOn key turns) st' := by
  induction turns generalizing s st with
  | nil =>
    obtain rfl := Option.some.inj hruns
    exact ⟨st, h, .refl st⟩
  | cons t rest ih =>
    obtain ⟨u, hu, hrest⟩ := Option.bind_eq_some_iff.1 hruns
    have hstep := steps_of_turn? hu
    obtain ⟨mid, hmid, hfirst⟩ := h.turn hs hstep
    obtain ⟨st', hst', hlater⟩ := ih hmid (hs.turn hstep) hrest
    refine ⟨st', hst', ?_⟩
    have hsplit : s.deedsOn key (t :: rest) = deedOn key (s.deed? t) ++ u.deedsOn key rest := by
      rw [deedsOn, deeds, hu, Option.map_some, Option.getD_some, List.filter_append]
      rfl
    rw [hsplit]
    exact hfirst.trans hlater

/-- Behind everything that is done about a key there is a worker. -/
theorem Ordered.synced_of_deed? {deed : Deed} (h : s.Ordered) (hdeed : s.deed? t = some deed) :
    s.world.roots.synced := by
  have hworker : s.workers ≠ [] := by
    intro hnobody
    cases t with
    | move m =>
      cases m with
      | act a =>
        cases a with
        | taker id =>
          obtain ⟨key, hhanded, -⟩ := Option.map_eq_some_iff.1 hdeed
          obtain ⟨d, hd, -⟩ := Option.bind_eq_some_iff.1 hhanded
          obtain ⟨stage, hstage⟩ := Dispenser.stage?_of_step? hd
          have hwaits := h.serves.waiting.mem_iff.1 (Dispenser.mem_ids_of_stage? hstage)
          rw [hnobody] at hwaits
          contradiction
        | worker j =>
          obtain ⟨w, hw, -⟩ := Option.bind_eq_some_iff.1 hdeed
          rw [hnobody] at hw
          contradiction
        | watch | signal | signalAll | fire | proceed => contradiction
      | connect | operate | crash | setClock | wait | requestShutdown => contradiction
    | answer j answer =>
      obtain ⟨w, hw, -⟩ := Option.bind_eq_some_iff.1 hdeed
      rw [hnobody] at hw
      contradiction
    | deliver | overlook => contradiction
  have hgrounded := h.grounded
  unfold Grounded at hgrounded
  cases hphase : s.phase with
  | syncing =>
    rw [hphase] at hgrounded
    exact absurd hgrounded hworker
  | running =>
    rw [hphase] at hgrounded
    exact hgrounded
  | leaving why =>
    rw [hphase] at hgrounded
    exact hgrounded.1
  | left why =>
    rw [hphase] at hgrounded
    exact hgrounded.1.resolve_left fun hnobody ↦ hworker hnobody.2

theorem isOpen_of_handed {deed : Deed} (hdeed : s.deed? t = some deed) (hhanded : deed.isHanded) :
    s.work.queue.isShutDown = false := by
  have hworker {w : Option Worker} {answer : (r : Request) → Except (Option String) r.Answer}
      (h : w.bind (·.deed? answer) = some deed) : False := by
    obtain ⟨w, -, hw⟩ := Option.bind_eq_some_iff.1 h
    unfold Worker.deed? at hw
    split at hw
    · obtain rfl := Option.some.inj hw
      contradiction
    · obtain rfl := Option.some.inj hw
      contradiction
    · obtain rfl := Option.some.inj hw
      contradiction
    · obtain rfl := Option.some.inj hw
      contradiction
    · contradiction
    · contradiction
  unfold deed? at hdeed
  split at hdeed
  · obtain ⟨key, hkey, -⟩ := Option.map_eq_some_iff.1 hdeed
    obtain ⟨d, hd, hstage⟩ := Option.bind_eq_some_iff.1 hkey
    rcases Dispenser.queue_step? hd with ⟨hnone, -⟩ | ⟨j, -, htake⟩
    · rw [hnone] at hstage
      contradiction
    · exact (Queue.take_eq_key htake).1
  · exact (hworker hdeed).elim
  · exact (hworker hdeed).elim
  all_goals contradiction

/-- Once the controller has left, nobody holds a key. -/
theorem Ordered.held_eq_nil (h : s.Ordered) (hleft : s.hasLeft) : s.work.queue.held = [] := by
  have hexited : ∀ w ∈ s.workers, w = .exited := by
    have hgrounded := h.grounded
    unfold Grounded at hgrounded
    unfold hasLeft at hleft
    split at hleft
    · next why hphase =>
      rw [hphase] at hgrounded
      exact hgrounded.2.1
    · contradiction
  have hnone {α : Type} {f : Worker → Option α} (hf : f .exited = none) :
      s.workers.filterMap f = [] :=
    List.filterMap_eq_nil_iff.2 fun w hw ↦ hexited w hw ▸ hf
  have htakers : s.work.dispenser.takers = [] := by
    have hids := h.serves.waiting
    rw [hnone rfl] at hids
    exact List.map_eq_nil_iff.1 hids.eq_nil
  refine List.eq_nil_iff_forall_not_mem.2 fun key hheld ↦ ?_
  have hmem := (h.serves.accounted.mem_held key).1 hheld
  rw [hnone rfl, List.append_nil, Dispenser.handed, htakers] at hmem
  contradiction

variable {settings : Settings} {cluster : Cluster} {clock : Time.Instant}
  {feed : (k : Kind) → Feed k}

/-- In every run: whenever a key is handed out, or a pass makes a request, ends or releases its key,
the loop of the installations has applied a whole listing before, and a key is handed out only as
long as the queue is not shut down. When the controller has left, every key has come to the end of
its course: each time that it was handed out the pass over it has run to its result, and then the
key was released, once. -/
theorem every_pass_is_finished
    (hruns : (new settings (.new cluster clock) feed).runs? turns = some s) :
    (∀ t deed, s.deed? t = some deed →
      (∃ es, .relistDone ∈ es ∧ s.world.roots = (Cache.empty.applyAll es).1) ∧
        (deed.isHanded → s.work.queue.isShutDown = false)) ∧
    (s.hasLeft → ∀ key, ∃ deeds,
      deeds = (new settings (.new cluster clock) feed).deedsOn key turns ∧
      Course key .free deeds .free ∧
      deeds.countP Deed.isHanded = deeds.countP Deed.isEnded ∧
      deeds.countP Deed.isHanded = deeds.countP Deed.isReleased) := by
  have hbegin := ordered_new settings cluster clock feed
  have hordered := hbegin.runs hruns
  refine ⟨fun t deed hdeed ↦ ⟨?_, isOpen_of_handed hdeed⟩, fun hleft key ↦ ?_⟩
  · obtain ⟨es, hes⟩ := hordered.filled
    have hsynced := hordered.synced_of_deed? hdeed
    rw [hes] at hsynced
    exact ⟨es, Cache.relistDone_mem_of_synced hsynced rfl, hes⟩
  · have hfree : (new settings (.new cluster clock) feed).Stands key .free :=
      .free List.not_mem_nil
    obtain ⟨st, hst, hcourse⟩ := hfree.runs hbegin.serves hruns
    have hend : s.Stands key .free := .free (by simp [hordered.held_eq_nil hleft])
    obtain rfl := hst.unique hordered.serves hend
    have hbalance := hcourse.balance
    exact ⟨_, rfl, hcourse, hbalance.1, hbalance.2⟩

def sampleTurns : List Turn :=
  [.move (.act (.watch 0)), .move (.act (.watch 0)), .move (.act (.watch 0)),
    .move (.act (.watch 0)), .move (.act .proceed), .move (.act (.taker 0)),
    .move (.act (.worker 0)), .answer 0 fun _ ↦ .error (some "boom"), .move .requestShutdown,
    .move (.act .proceed), .move (.act (.worker 0)), .move (.act (.worker 0)),
    .move (.act (.taker 1)), .move (.act (.worker 0)), .move (.act .proceed)]

theorem every_pass_is_finished_of_shutdown :
    ∃ s, (new { workers := 1 } (.new .empty ⟨0, 0⟩) sampleFeed).runs? sampleTurns = some s ∧
      s.hasLeft ∧ ∃ deeds,
        deeds = (new { workers := 1 } (.new .empty ⟨0, 0⟩) sampleFeed).deedsOn "default/demo"
          sampleTurns ∧
        deeds.length = 4 ∧ Course "default/demo" .free deeds .free ∧
        deeds.countP Deed.isHanded = deeds.countP Deed.isReleased := by
  obtain ⟨s, hruns, hleft, hlength⟩ :
      ∃ s, (new { workers := 1 } (.new .empty ⟨0, 0⟩) sampleFeed).runs? sampleTurns = some s ∧
        s.hasLeft ∧ ((new { workers := 1 } (.new .empty ⟨0, 0⟩) sampleFeed).deedsOn "default/demo"
          sampleTurns).length = 4 := ⟨_, rfl, rfl, rfl⟩
  obtain ⟨deeds, rfl, hcourse, -, hreleased⟩ :=
    (every_pass_is_finished hruns).2 hleft "default/demo"
  exact ⟨s, hruns, hleft, _, rfl, hlength, hcourse, hreleased⟩

end Controller

end Submarine
