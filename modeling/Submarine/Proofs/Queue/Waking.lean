import Submarine.Proofs.Queue.Requests
import Submarine.Proofs.Queue.Wanting

namespace Submarine

namespace Stage

def isLively : Stage → Bool
  | looking _ | woken true => true
  | parking _ | sleeping | woken false | finished _ => false

def isDrowsy : Stage → Bool
  | parking _ | sleeping => true
  | looking _ | woken _ | finished _ => false

def isWaiting : Stage → Bool
  | sleeping | woken _ => true
  | looking _ | parking _ | finished _ => false

end Stage

namespace Dispenser

variable {d d' : Dispenser} {id : Nat} {old stage : Stage}

/-- A signal is under way, by which somebody will come to look into the queue. -/
def Alert (d : Dispenser) : Prop :=
  0 < d.owed ∨ d.gate.permit ∨ ∃ t ∈ d.takers, t.stage.isLively

structure Vigilant (d : Dispenser) : Prop where
  listed : ∀ t ∈ d.takers, t.stage = .sleeping → t.id ∈ d.gate.sleepers
  present : ∀ i ∈ d.gate.sleepers, i ∈ d.ids
  permit : d.gate.permit → d.gate.sleepers = []
  ticket_le : ∀ t ∈ d.takers, ∀ n, t.stage = .parking n ∨ t.stage = .looking n → n ≤ d.gate.round
  closing : d.closing → d.queue.isShutDown
  alert : d.queue.isShutDown = false → d.queue.ready ≠ [] →
    d.Alert ∨ ∀ t ∈ d.takers, t.stage.isDrowsy = false
  closed : d.queue.isShutDown → d.closing ∨ ∀ t ∈ d.takers, t.stage ≠ .sleeping ∧
    ∀ n, t.stage = .parking n → n < d.gate.round

theorem mem_setStage_of_ne {t : Taker} (ht : t ∈ d.takers) (hne : t.id ≠ id) :
    t ∈ (d.setStage id stage).takers :=
  List.mem_map.2 ⟨t, ht, if_neg hne⟩

theorem mem_setStage_self (hid : id ∈ d.ids) : ⟨id, stage⟩ ∈ (d.setStage id stage).takers := by
  obtain ⟨t, ht, rfl⟩ := List.mem_map.1 hid
  exact List.mem_map.2 ⟨t, ht, if_pos rfl⟩

theorem mem_wakeAll {ids : List Nat} {t : Taker}
    (ht : t ∈ (ids.foldl (fun d id ↦ d.setStage id (.woken false)) d).takers) :
    t.stage = .woken false ∨ t ∈ d.takers ∧ t.id ∉ ids := by
  induction ids generalizing d with
  | nil => exact .inr ⟨ht, by simp⟩
  | cons i rest ih =>
    rcases ih ht with hwoken | ⟨hmem, hrest⟩
    · exact .inl hwoken
    · rcases mem_takers_setStage hmem with rfl | ⟨hold, hne⟩
      · exact .inl rfl
      · exact .inr ⟨hold, by simp [hne, hrest]⟩

theorem wakeAll_eq (d : Dispenser) (ids : List Nat) :
    ids.foldl (fun d id ↦ d.setStage id (.woken false)) d =
      { d with takers := (ids.foldl (fun d id ↦ d.setStage id (.woken false)) d).takers } := by
  induction ids generalizing d with
  | nil => rfl
  | cons i rest ih =>
    rw [List.foldl_cons, ih]
    rfl

namespace Vigilant

theorem empty : empty.Vigilant where
  listed _ ht := absurd ht List.not_mem_nil
  present _ hi := absurd hi List.not_mem_nil
  permit _ := rfl
  ticket_le _ ht := absurd ht List.not_mem_nil
  closing h := by contradiction
  alert _ hready := absurd rfl hready
  closed h := by contradiction

theorem withQueue {queue : Queue} {owed depth : Nat} (h : d.Vigilant)
    (hshut : queue.isShutDown = d.queue.isShutDown)
    (hready : queue.ready = d.queue.ready ∧ owed = d.owed ∨ 0 < owed) :
    Vigilant { d with queue, owed, depth } where
  listed := h.listed
  present := h.present
  permit := h.permit
  ticket_le := h.ticket_le
  closing hclosing := hshut.trans (h.closing hclosing)
  alert hopen hne := by
    rcases hready with ⟨hsame, rfl⟩ | howed
    · rw [hshut] at hopen
      dsimp only at hne
      rw [hsame] at hne
      exact h.alert hopen hne
    · exact .inl (.inl howed)
  closed hclosed := h.closed (hshut.symm.trans hclosed)

theorem add (h : d.Vigilant) (key : String) : (d.add key).Vigilant := by
  refine h.withQueue (Queue.isShutDown_add d.queue key) ?_
  cases hadmits : d.queue.admits key with
  | true => exact .inr (by simp)
  | false =>
    refine .inl ⟨?_, by simp⟩
    unfold Queue.add
    unfold Queue.admits at hadmits
    split
    · rfl
    · next hfresh =>
      split
      · rfl
      · next hfree =>
        rw [not_or] at hfresh
        simp [hfresh.1, hfresh.2, hfree] at hadmits

theorem done (h : d.Vigilant) (key : String) : (d.done key).Vigilant := by
  refine h.withQueue rfl ?_
  cases hreadmits : d.queue.readmits key with
  | true => exact .inr (by simp)
  | false => exact .inl ⟨by simp [Queue.done, hreadmits], by simp⟩

theorem shutDown (h : d.Vigilant) : d.shutDown.Vigilant where
  listed := h.listed
  present := h.present
  permit := h.permit
  ticket_le := h.ticket_le
  closing _ := rfl
  alert hopen := by contradiction
  closed _ := .inl rfl

theorem ask (h : d.Vigilant) : d.ask.2.Vigilant where
  listed t ht hs := by
    rcases List.mem_append.1 ht with hold | hnew
    · exact h.listed t hold hs
    · obtain rfl := List.mem_singleton.1 hnew
      contradiction
  present i hi := by
    rw [ids_ask]
    exact List.mem_append_left _ (h.present i hi)
  permit := h.permit
  ticket_le t ht n hn := by
    rcases List.mem_append.1 ht with hold | hnew
    · exact h.ticket_le t hold n hn
    · obtain rfl := List.mem_singleton.1 hnew
      rcases hn with hn | hn
      · contradiction
      · exact Nat.le_of_eq (Stage.looking.inj hn).symm
  closing := h.closing
  alert _ _ := .inl (.inr (.inr ⟨_, List.mem_append_right _ (List.mem_singleton_self _), rfl⟩))
  closed hclosed := (h.closed hclosed).imp_right fun hawake t ht ↦ by
    rcases List.mem_append.1 ht with hold | hnew
    · exact hawake t hold
    · obtain rfl := List.mem_singleton.1 hnew
      exact ⟨by simp, by simp⟩

/-- A taker goes over to a stage in which it is not asleep. -/
theorem setStage {gate : Gate} {queue : Queue} {owed depth : Nat} (h : d.Vigilant)
    (hs : d.stage? id = some old) (hstage : stage ≠ .sleeping)
    (hsleepers : gate.sleepers = d.gate.sleepers) (hround : gate.round = d.gate.round)
    (hpermit : gate.permit → d.gate.permit) (hshut : queue.isShutDown = d.queue.isShutDown)
    (hticket : ∀ n, stage = .parking n → n ≤ d.gate.round ∧ queue.isShutDown = false)
    (hlook : ∀ n, stage = .looking n → n ≤ d.gate.round)
    (halert : queue.isShutDown = false → queue.ready ≠ [] → stage.isLively ∨ 0 < owed) :
    Vigilant ({ d with gate, queue, owed, depth }.setStage id stage) where
  listed t ht hsleeps := by
    change t.id ∈ gate.sleepers
    rw [hsleepers]
    rcases mem_takers_setStage ht with rfl | ⟨hmem, -⟩
    · exact absurd hsleeps hstage
    · exact h.listed t hmem hsleeps
  present i hi := by
    rw [ids, ids_setStage]
    change i ∈ gate.sleepers at hi
    rw [hsleepers] at hi
    exact h.present i hi
  permit hkept := by
    change gate.sleepers = []
    rw [hsleepers]
    exact h.permit (hpermit hkept)
  ticket_le t ht n hn := by
    change n ≤ gate.round
    rw [hround]
    rcases mem_takers_setStage ht with rfl | ⟨hmem, -⟩
    · rcases hn with hn | hn
      · exact (hticket n hn).1
      · exact hlook n hn
    · exact h.ticket_le t hmem n hn
  closing hclosing := hshut.trans (h.closing hclosing)
  alert hopen hne := by
    rcases halert hopen hne with hlively | howed
    · exact .inl (.inr (.inr ⟨_, mem_setStage_self (mem_ids_of_stage? hs), hlively⟩))
    · exact .inl (.inl howed)
  closed hclosed := (h.closed (hshut.symm.trans hclosed)).imp_right fun hawake t ht ↦ by
    change t.stage ≠ .sleeping ∧ ∀ n, t.stage = .parking n → n < gate.round
    rw [hround]
    rcases mem_takers_setStage ht with rfl | ⟨hmem, -⟩
    · refine ⟨hstage, fun n hn ↦ ?_⟩
      change queue.isShutDown = true at hclosed
      rw [(hticket n hn).2] at hclosed
      contradiction
    · exact hawake t hmem

theorem look {ticket : Nat} (h : d.Vigilant) (hs : d.stage? id = some (.looking ticket)) :
    (d.look id ticket).Vigilant := by
  have hticket : ticket ≤ d.gate.round :=
    h.ticket_le _ (mem_takers_of_stage? hs) ticket (.inr rfl)
  unfold Dispenser.look
  unfold Queue.take
  split
  · next hq =>
    split at hq
    · next hshut =>
      refine h.setStage hs (by simp) rfl rfl (fun hkept ↦ hkept) rfl (by simp) (by simp) ?_
      intro hopen
      rw [hopen] at hshut
      contradiction
    · split at hq <;> simp at hq
  · next hq =>
    split at hq
    · simp at hq
    · next hopen =>
      split at hq
      · next hready =>
        have hopen : d.queue.isShutDown = false := by simpa using hopen
        refine h.setStage hs (by simp) rfl rfl (fun hkept ↦ hkept) rfl ?_ (by simp) ?_
        · intro n hn
          obtain rfl := Stage.parking.inj hn
          exact ⟨hticket, hopen⟩
        · intro _ hne
          exact absurd hready hne
      · simp at hq
  · next key queue hq =>
    split at hq
    · simp at hq
    · split at hq
      · simp at hq
      · obtain ⟨-, rfl⟩ := Prod.mk.inj hq
        refine h.setStage hs (by simp) rfl rfl (fun hkept ↦ hkept) rfl (by simp) (by simp) ?_
        intro _ hne
        right
        rw [if_neg]
        · exact Nat.succ_pos _
        · simpa [Queue.isEmpty] using hne

theorem park {ticket : Nat} (h : d.Vigilant) (ho : d.Orderly)
    (hs : d.stage? id = some (.parking ticket)) :
    Vigilant ({ d with gate := (d.gate.park id ticket).1 }.setStage id
      (if (d.gate.park id ticket).2 then .looking (d.gate.park id ticket).1.round
        else .sleeping)) := by
  have hgoesOn : ∀ gate : Gate, gate.sleepers = d.gate.sleepers → gate.round = d.gate.round →
      (gate.permit → d.gate.permit) →
        Vigilant ({ d with gate }.setStage id (.looking gate.round)) := by
    intro gate hsleepers hround hpermit
    refine h.setStage hs (by simp) hsleepers hround hpermit rfl (by simp) ?_ ?_
    · intro n hn
      exact Nat.le_of_eq ((Stage.looking.inj hn).symm.trans hround)
    · exact fun _ _ ↦ .inl rfl
  unfold Gate.park
  split
  · exact hgoesOn _ rfl rfl (by simp)
  · next hkept =>
    split
    · exact hgoesOn _ rfl rfl fun hkept ↦ hkept
    · next hround =>
      have hmem := mem_takers_of_stage? hs
      refine ⟨fun t ht hsleeps ↦ ?_, fun i hi ↦ ?_, fun hpermit ↦ absurd hpermit hkept,
        fun t ht n hn ↦ ?_, h.closing, fun hopen hne ↦ .inl ?_, fun hclosed ↦ .inl ?_⟩
      · rcases mem_takers_setStage ht with rfl | ⟨hold, -⟩
        · exact List.mem_append_right _ (List.mem_singleton_self _)
        · exact List.mem_append_left _ (h.listed t hold hsleeps)
      · rw [ids, ids_setStage]
        rcases List.mem_append.1 hi with hold | hnew
        · exact h.present i hold
        · rw [List.mem_singleton.1 hnew]
          exact mem_ids_of_stage? hs
      · rcases mem_takers_setStage ht with rfl | ⟨hold, -⟩
        · simp at hn
        · exact h.ticket_le t hold n hn
      · -- Who was about to sleep was drowsy, so somebody else is on the way.
        rcases h.alert hopen hne with (howed | hpermit | ⟨t, ht, hlively⟩) | hawake
        · exact .inl howed
        · exact absurd hpermit hkept
        · refine .inr (.inr ⟨t, mem_setStage_of_ne ht fun hid ↦ ?_, hlively⟩)
          rw [ho.eq_of_stage? hs ht hid] at hlively
          contradiction
        · have hdrowsy := hawake _ hmem
          contradiction
      · refine (h.closed hclosed).resolve_right fun hawake ↦ ?_
        have hlt := (hawake _ hmem).2 ticket rfl
        omega

theorem step? (h : d.Vigilant) (ho : d.Orderly) (hd : d.step? id = some d') : d'.Vigilant := by
  unfold Dispenser.step? at hd
  split at hd
  · next ticket hs =>
    obtain rfl := Option.some.inj hd
    exact h.look hs
  · next ticket hs =>
    obtain rfl := Option.some.inj hd
    exact h.park ho hs
  · next bySignal hs =>
    obtain rfl := Option.some.inj hd
    refine h.setStage hs (by simp) rfl rfl (fun hkept ↦ hkept) rfl (by simp) ?_ ?_
    · intro n hn
      exact Nat.le_of_eq (Stage.looking.inj hn).symm
    · exact fun _ _ ↦ .inl rfl
  all_goals contradiction

theorem signal? (h : d.Vigilant) (hd : d.signal? = some d') : d'.Vigilant := by
  unfold Dispenser.signal? at hd
  split at hd
  · contradiction
  · next owed _ =>
    cases hsleepers : d.gate.sleepers with
    | nil =>
      simp only [Gate.signal, hsleepers, Option.some.injEq] at hd
      subst hd
      refine ⟨fun t ht hs ↦ ?_, by simp, fun _ ↦ rfl, h.ticket_le, h.closing,
        fun _ _ ↦ .inl (.inr (.inl rfl)), h.closed⟩
      have hmem := h.listed t ht hs
      rwa [hsleepers] at hmem
    | cons i rest =>
      simp only [Gate.signal, hsleepers, Option.some.injEq] at hd
      subst hd
      have hi : i ∈ d.ids := h.present i (by simp [hsleepers])
      refine ⟨fun t ht hs ↦ ?_, fun j hj ↦ ?_, fun hpermit ↦ ?_, fun t ht n hn ↦ ?_, h.closing,
        fun _ _ ↦ .inl (.inr (.inr ⟨_, mem_setStage_self hi, rfl⟩)), fun hclosed ↦ ?_⟩
      · rcases mem_takers_setStage ht with rfl | ⟨hold, hne⟩
        · contradiction
        · have hmem := h.listed t hold hs
          rw [hsleepers] at hmem
          exact (List.mem_cons.1 hmem).resolve_left hne
      · rw [ids, ids_setStage]
        change j ∈ rest at hj
        exact h.present j (by simp [hsleepers, hj])
      · have hnone := h.permit hpermit
        rw [hsleepers] at hnone
        contradiction
      · rcases mem_takers_setStage ht with rfl | ⟨hold, -⟩
        · simp at hn
        · exact h.ticket_le t hold n hn
      · refine (h.closed hclosed).imp_right fun hawake t ht ↦ ?_
        rcases mem_takers_setStage ht with rfl | ⟨hold, -⟩
        · exact ⟨by simp, by simp⟩
        · exact hawake t hold

theorem signalAll? (h : d.Vigilant) (hd : d.signalAll? = some d') : d'.Vigilant := by
  unfold Dispenser.signalAll? at hd
  split at hd
  · next hclosing =>
    obtain rfl := Option.some.inj hd
    -- Who was not woken was awake, and drew its ticket before this signal.
    have hcases : ∀ t ∈ (d.gate.sleepers.foldl (fun (d : Dispenser) i ↦ d.setStage i (.woken false))
        { d with gate := ⟨d.gate.permit, d.gate.round + 1, []⟩, closing := false }).takers,
        t.stage = .woken false ∨ t ∈ d.takers ∧ t.stage ≠ .sleeping := by
      intro t ht
      refine (mem_wakeAll ht).imp_right fun ⟨hold, hawake⟩ ↦ ⟨hold, fun hs ↦ ?_⟩
      exact hawake (h.listed t hold hs)
    rw [wakeAll_eq]
    have hshut := h.closing hclosing
    refine ⟨fun t ht hs ↦ ?_, by simp, fun _ ↦ rfl, fun t ht n hn ↦ ?_, by simp,
      fun hopen ↦ ?_, fun _ ↦ .inr fun t ht ↦ ?_⟩
    · rcases hcases t ht with hwoken | ⟨-, hawake⟩
      · rw [hwoken] at hs
        contradiction
      · exact absurd hs hawake
    · rcases hcases t ht with hwoken | ⟨hold, -⟩
      · rw [hwoken] at hn
        simp at hn
      · exact Nat.le_succ_of_le (h.ticket_le t hold n hn)
    · change d.queue.isShutDown = false at hopen
      rw [hshut] at hopen
      contradiction
    · rcases hcases t ht with hwoken | ⟨hold, hawake⟩
      · rw [hwoken]
        exact ⟨by simp, by simp⟩
      · exact ⟨hawake, fun n hn ↦ Nat.lt_succ_of_le (h.ticket_le t hold n (.inl hn))⟩
  · contradiction

/-- A signal that reached a taker which goes away is owed again. -/
theorem abandon (h : d.Vigilant) (ho : d.Orderly) (hs : d.stage? id = some stage)
    (hidle : stage.isLively → stage = .woken true) : (d.abandon id).Vigilant where
  listed t ht hsleeps := by
    obtain ⟨hold, hne⟩ := List.mem_filter.1 ht
    exact List.mem_filter.2 ⟨h.listed t hold hsleeps, by simpa using hne⟩
  present i hi := by
    obtain ⟨hold, hne⟩ := List.mem_filter.1 hi
    obtain ⟨t, ht, rfl⟩ := List.mem_map.1 (h.present i hold)
    exact List.mem_map.2 ⟨t, List.mem_filter.2 ⟨ht, by simpa using hne⟩, rfl⟩
  permit hkept := by
    have hnone : d.gate.sleepers = [] := h.permit hkept
    simp [Dispenser.abandon, Gate.leave, hnone]
  ticket_le t ht := h.ticket_le t (List.mem_filter.1 ht).1
  closing := h.closing
  alert hopen hne := by
    rcases h.alert hopen hne with (howed | hkept | ⟨t, ht, hlively⟩) | hawake
    · refine .inl (.inl ?_)
      change 0 < if d.stage? id = some (.woken true) then d.owed + 1 else d.owed
      split <;> omega
    · exact .inl (.inr (.inl hkept))
    · by_cases hid : t.id = id
      · rw [ho.eq_of_stage? hs ht hid] at hlively
        refine .inl (.inl ?_)
        change 0 < if d.stage? id = some (.woken true) then d.owed + 1 else d.owed
        rw [if_pos (hs.trans (congrArg some (hidle hlively)))]
        exact Nat.succ_pos _
      · exact .inl (.inr (.inr ⟨t, List.mem_filter.2 ⟨ht, by simpa using hid⟩, hlively⟩))
    · exact .inr fun t ht ↦ hawake t (List.mem_filter.1 ht).1
  closed hclosed := (h.closed hclosed).imp_right fun hawake t ht ↦
    hawake t (List.mem_filter.1 ht).1

end Vigilant

theorem mem_takers_step? {t : Taker} (hd : d.step? id = some d') (ht : t ∈ d'.takers) :
    t = ⟨id, t.stage⟩ ∨ t ∈ d.takers ∧ t.id ≠ id := by
  have hset : ∀ {e : Dispenser} {stage : Stage}, t ∈ (e.setStage id stage).takers →
      t = ⟨id, t.stage⟩ ∨ t ∈ e.takers ∧ t.id ≠ id := by
    intro e stage ht
    refine (mem_takers_setStage ht).imp_left ?_
    rintro rfl
    rfl
  unfold step? at hd
  split at hd
  · obtain rfl := Option.some.inj hd
    unfold look at ht
    split at ht
    · exact hset ht
    · exact hset ht
    · exact hset ht
  · obtain rfl := Option.some.inj hd
    exact hset ht
  · obtain rfl := Option.some.inj hd
    exact hset ht
  all_goals contradiction

theorem mem_takers_signal? {t : Taker} (hd : d.signal? = some d') (ht : t ∈ d'.takers) :
    t.stage = .woken true ∨ t ∈ d.takers := by
  unfold signal? at hd
  split at hd
  · contradiction
  · rcases hgate : d.gate.signal with ⟨gate, _ | i⟩ <;> rw [hgate] at hd <;>
      obtain rfl := Option.some.inj hd
    · exact .inr ht
    · rcases mem_takers_setStage ht with rfl | ⟨hold, -⟩
      · exact .inl rfl
      · exact .inr hold

theorem mem_takers_signalAll? {t : Taker} (hd : d.signalAll? = some d') (ht : t ∈ d'.takers) :
    t.stage = .woken false ∨ t ∈ d.takers := by
  unfold signalAll? at hd
  split at hd
  · obtain rfl := Option.some.inj hd
    exact (mem_wakeAll ht).imp_right And.left
  · contradiction

/-- Once the queue is shut down, a taker that comes to its end comes away with nothing. -/
theorem key?_of_step? (hshut : d.queue.isShutDown) (hd : d.step? id = some d') {key? : Option String}
    (hs : d'.stage? id = some (.finished key?)) : key? = none := by
  have hhanded : d'.handed? id = key? := by
    rw [handed?, hs]
    rfl
  rcases queue_step? hd with ⟨hnone, -⟩ | ⟨key, -, htake⟩
  · exact hhanded.symm.trans hnone
  · have hclosed : d.queue.take = (.closed, d.queue) := if_pos hshut
    rw [hclosed] at htake
    simp at htake

end Dispenser

namespace Session

variable {s s' : Session} {a : Action} {id : Nat}

abbrev waiting (s : Session) : List Nat := s.work.dispenser.ids

/-- A request is given up only while it waits at the gate: once it has been woken and has begun to
look, it goes on until it sleeps again or has its answer. -/
def Action.IsTimely (a : Action) (s : Session) : Prop :=
  match a with
  | .abandon id => ∀ stage ∈ s.work.dispenser.stage? id, stage.isWaiting
  | .add _ | .ask | .request _ | .signal | .signalAll | .release _ | .forget _ | .retryLater _
  | .fire | .wait _ | .shutDown => True

instance : (a : Action) → (s : Session) → Decidable (a.IsTimely s)
  | .abandon id, s =>
    inferInstanceAs (Decidable (∀ stage ∈ s.work.dispenser.stage? id, stage.isWaiting))
  | .add _, _ | .ask, _ | .request _, _ | .signal, _ | .signalAll, _ | .release _, _
  | .forget _, _ | .retryLater _, _ | .fire, _ | .wait _, _ | .shutDown, _ => .isTrue trivial

def Timely (s : Session) : List Action → Prop
  | [] => True
  | a :: rest => a.IsTimely s ∧ ∀ t ∈ s.step? a, t.Timely rest

instance decidableTimely (s : Session) : (actions : List Action) → Decidable (s.Timely actions)
  | [] => .isTrue trivial
  | a :: rest =>
    have (t : Session) := decidableTimely t rest
    inferInstanceAs (Decidable (a.IsTimely s ∧ ∀ t ∈ s.step? a, t.Timely rest))

def answer? (s : Session) : Action → Option (Nat × Option String)
  | .request id =>
    match (s.work.dispenser.step? id).bind (·.stage? id) with
    | some (.finished key?) => some (id, key?)
    | _ => none
  | _ => none

def answers (s : Session) : List Action → List (Nat × Option String)
  | [] => []
  | a :: rest => (s.answer? a).toList ++ ((s.step? a).map (·.answers rest)).getD []

structure Watchful (s : Session) : Prop where
  vigilant : s.work.dispenser.Vigilant
  unanswered : ∀ t ∈ s.work.dispenser.takers, ∀ key?, t.stage ≠ .finished key?

namespace Watchful

theorem start (backoff : Backoff) (isMeasured : Bool) : (start backoff isMeasured).Watchful :=
  ⟨.empty, fun _ ht ↦ absurd ht List.not_mem_nil⟩

theorem answered {d : Dispenser} (h : s.Watchful) (hs : s.Sound)
    (hd : s.work.dispenser.step? id = some d) : (s.answered id d).Watchful := by
  have horderly := hs.accounted.toOrderly
  have hvigilant := h.vigilant.step? horderly hd
  have horderly' := (hs.accounted.step? hd).toOrderly
  unfold Session.answered
  split
  · next key? hstage =>
    refine ⟨hvigilant.abandon horderly' hstage (by simp [Stage.isLively]), fun t ht ↦ ?_⟩
    obtain ⟨hmem, hne⟩ := List.mem_filter.1 ht
    rcases Dispenser.mem_takers_step? hd hmem with heq | ⟨hold, -⟩
    · rw [heq] at hne
      simp at hne
    · exact h.unanswered t hold
  · next hstage =>
    refine ⟨hvigilant, fun t ht key? hfinished ↦ ?_⟩
    rcases Dispenser.mem_takers_step? hd ht with heq | ⟨hold, -⟩
    · have hid := horderly'.stage?_of_mem ht
      rw [heq, hfinished] at hid
      exact hstage key? hid
    · exact h.unanswered t hold key? hfinished

theorem step? (h : s.Watchful) (hsound : s.Sound) (htimely : a.IsTimely s)
    (hs : s.step? a = some s') : s'.Watchful := by
  have horderly := hsound.accounted.toOrderly
  cases a with
  | add key =>
    obtain rfl := Option.some.inj hs
    exact ⟨h.vigilant.add key, h.unanswered⟩
  | ask =>
    obtain rfl := Option.some.inj hs
    refine ⟨h.vigilant.ask, fun t ht key? ↦ ?_⟩
    rcases List.mem_append.1 ht with hold | hnew
    · exact h.unanswered t hold key?
    · obtain rfl := List.mem_singleton.1 hnew
      simp
  | request id =>
    obtain ⟨d, hd, rfl⟩ := Option.map_eq_some_iff.1 hs
    exact h.answered hsound hd
  | abandon id =>
    obtain ⟨stage, hstage, rfl⟩ := Option.map_eq_some_iff.1 hs
    refine ⟨h.vigilant.abandon horderly hstage fun hlively ↦ ?_, fun t ht ↦ ?_⟩
    · have hwaiting := htimely stage hstage
      cases stage with
      | woken bySignal =>
        cases bySignal with
        | true => rfl
        | false => contradiction
      | _ => contradiction
    · exact h.unanswered t (List.mem_filter.1 ht).1
  | signal =>
    obtain ⟨d, hd, rfl⟩ := Option.map_eq_some_iff.1 hs
    refine ⟨h.vigilant.signal? hd, fun t ht key? ↦ ?_⟩
    rcases Dispenser.mem_takers_signal? hd ht with hwoken | hold
    · simp [hwoken]
    · exact h.unanswered t hold key?
  | signalAll =>
    obtain ⟨d, hd, rfl⟩ := Option.map_eq_some_iff.1 hs
    refine ⟨h.vigilant.signalAll? hd, fun t ht key? ↦ ?_⟩
    rcases Dispenser.mem_takers_signalAll? hd ht with hwoken | hold
    · simp [hwoken]
    · exact h.unanswered t hold key?
  | release id =>
    obtain ⟨holder, hfound, rfl⟩ := Option.map_eq_some_iff.1 hs
    exact ⟨h.vigilant.done holder.2, h.unanswered⟩
  | forget key | retryLater key =>
    obtain rfl := Option.some.inj hs
    exact ⟨h.vigilant.withQueue rfl (.inl ⟨rfl, rfl⟩), h.unanswered⟩
  | fire =>
    obtain ⟨work, hw, rfl⟩ := Option.map_eq_some_iff.1 hs
    obtain ⟨t, rest, -, rfl⟩ := WorkQueue.fire?_eq_some hw
    exact ⟨h.vigilant.add t.key, h.unanswered⟩
  | wait span =>
    obtain rfl := Option.some.inj hs
    exact ⟨h.vigilant, h.unanswered⟩
  | shutDown =>
    obtain rfl := Option.some.inj hs
    exact ⟨h.vigilant.shutDown, h.unanswered⟩

theorem run {actions : List Action} (h : s.Watchful) (hsound : s.Sound)
    (htimely : s.Timely actions) (hs : s.run actions = some s') : s'.Watchful := by
  induction actions generalizing s with
  | nil => exact Option.some.inj hs ▸ h
  | cons a rest ih =>
    obtain ⟨t, ht, hrest⟩ := Option.bind_eq_some_iff.1 hs
    exact ih (h.step? hsound htimely.1 ht) (hsound.step? ht) (htimely.2 t ht) hrest

/-- Where nothing moves, those that were not answered are asleep. -/
theorem sleeping (h : s.Watchful) (hrest : s.work.dispenser.AtRest) {t : Taker}
    (ht : t ∈ s.work.dispenser.takers) : t.stage = .sleeping := by
  have hstill := hrest.2.2 t ht
  unfold Taker.isRunnable at hstill
  split at hstill
  · contradiction
  · contradiction
  · contradiction
  · next hstage => exact hstage
  · next key? hstage => exact absurd hstage (h.unanswered t ht key?)

theorem ready_eq_nil (h : s.Watchful) (hrest : s.work.dispenser.AtRest)
    (hopen : s.queue.isShutDown = false) (hwaiting : s.waiting ≠ []) : s.queue.ready = [] := by
  obtain ⟨i, hi⟩ := List.exists_mem_of_ne_nil _ hwaiting
  obtain ⟨t, ht, rfl⟩ := List.mem_map.1 hi
  have hasleep := h.sleeping hrest ht
  by_contra hready
  rcases h.vigilant.alert hopen hready with (howed | hkept | ⟨u, hu, hlively⟩) | hawake
  · have hnone := hrest.1
    omega
  · have hlisted := h.vigilant.listed t ht hasleep
    rw [h.vigilant.permit hkept] at hlisted
    contradiction
  · rw [h.sleeping hrest hu] at hlively
    contradiction
  · have hdrowsy := hawake t ht
    rw [hasleep] at hdrowsy
    contradiction

theorem waiting_eq_nil (h : s.Watchful) (hrest : s.work.dispenser.AtRest)
    (hshut : s.queue.isShutDown) : s.waiting = [] := by
  refine List.eq_nil_iff_forall_not_mem.2 fun i hi ↦ ?_
  obtain ⟨t, ht, rfl⟩ := List.mem_map.1 hi
  rcases h.vigilant.closed hshut with hclosing | hawake
  · rw [hrest.2.1] at hclosing
    contradiction
  · exact (hawake t ht).1 (h.sleeping hrest ht)

end Watchful

theorem answer?_eq_some {key? : Option String} (h : s.answer? a = some (id, key?)) :
    a = .request id ∧ ∃ d, s.work.dispenser.step? id = some d ∧
      d.stage? id = some (.finished key?) := by
  cases a with
  | request j =>
    simp only [answer?] at h
    split at h
    · next found =>
      obtain ⟨rfl, rfl⟩ := Prod.mk.inj (Option.some.inj h)
      obtain ⟨d, hd, hstage⟩ := Option.bind_eq_some_iff.1 found
      exact ⟨rfl, d, hd, hstage⟩
    · contradiction
  | _ => contradiction

theorem isShutDown_step? (h : s.step? a = some s') (hshut : s.queue.isShutDown) :
    s'.queue.isShutDown := by
  cases a with
  | add key =>
    obtain rfl := Option.some.inj h
    exact (Queue.isShutDown_add s.queue key).trans hshut
  | request id =>
    obtain ⟨d, hd, rfl⟩ := Option.map_eq_some_iff.1 h
    rw [queue_answered, Dispenser.isShutDown_step? hd]
    exact hshut
  | signal =>
    obtain ⟨d, hd, rfl⟩ := Option.map_eq_some_iff.1 h
    exact (congrArg Queue.isShutDown (Dispenser.Accounted.queue_signal? hd)).trans hshut
  | signalAll =>
    obtain ⟨d, hd, rfl⟩ := Option.map_eq_some_iff.1 h
    exact (congrArg Queue.isShutDown (Dispenser.Accounted.queue_signalAll? hd)).trans hshut
  | fire =>
    obtain ⟨work, hw, rfl⟩ := Option.map_eq_some_iff.1 h
    exact (WorkQueue.isShutDown_fire? hw).trans hshut
  | abandon | release =>
    obtain ⟨_, -, rfl⟩ := Option.map_eq_some_iff.1 h
    exact hshut
  | ask | forget | retryLater | wait =>
    obtain rfl := Option.some.inj h
    exact hshut
  | shutDown =>
    obtain rfl := Option.some.inj h
    rfl

theorem isShutDown_run {actions : List Action} (h : s.run actions = some s')
    (hshut : s.queue.isShutDown) : s'.queue.isShutDown := by
  induction actions generalizing s with
  | nil => exact Option.some.inj h ▸ hshut
  | cons a rest ih =>
    obtain ⟨t, ht, hrest⟩ := Option.bind_eq_some_iff.1 h
    exact ih hrest (isShutDown_step? ht hshut)

/-- Whoever waits goes on waiting, unless it is given up or answered. -/
theorem waiting_step? (h : s.step? a = some s') (hid : id ∈ s.waiting) :
    id ∈ s'.waiting ∨ a = .abandon id ∨ ∃ key?, s.answer? a = some (id, key?) := by
  have habandoned : ∀ {d : Dispenser} {j : Nat}, id ≠ j → id ∈ d.ids → id ∈ (d.abandon j).ids := by
    intro d j hne hmem
    obtain ⟨t, ht, rfl⟩ := List.mem_map.1 hmem
    exact List.mem_map.2 ⟨t, List.mem_filter.2 ⟨ht, by simpa using hne⟩, rfl⟩
  cases a with
  | request j =>
    obtain ⟨d, hd, rfl⟩ := Option.map_eq_some_iff.1 h
    have hmem : id ∈ d.ids := (Dispenser.SameTakers.step? hd).ids ▸ hid
    unfold answered
    split
    · next key? hstage =>
      by_cases hne : id = j
      · subst hne
        refine .inr (.inr ⟨key?, ?_⟩)
        simp [answer?, hd, hstage]
      · exact .inl (habandoned hne hmem)
    · exact .inl hmem
  | abandon j =>
    obtain ⟨_, -, rfl⟩ := Option.map_eq_some_iff.1 h
    by_cases hne : id = j
    · exact .inr (.inl (congrArg Action.abandon hne.symm))
    · exact .inl (habandoned hne hid)
  | ask =>
    obtain rfl := Option.some.inj h
    refine .inl ?_
    change id ∈ s.work.dispenser.ask.2.ids
    rw [Dispenser.ids_ask]
    exact List.mem_append_left _ hid
  | signal =>
    obtain ⟨d, hd, rfl⟩ := Option.map_eq_some_iff.1 h
    refine .inl ?_
    change id ∈ d.ids
    rw [(Dispenser.SameTakers.signal? hd).ids]
    exact hid
  | signalAll =>
    obtain ⟨d, hd, rfl⟩ := Option.map_eq_some_iff.1 h
    refine .inl ?_
    change id ∈ d.ids
    rw [(Dispenser.SameTakers.signalAll? hd).ids]
    exact hid
  | release =>
    obtain ⟨_, -, rfl⟩ := Option.map_eq_some_iff.1 h
    exact .inl hid
  | fire =>
    obtain ⟨work, hw, rfl⟩ := Option.map_eq_some_iff.1 h
    obtain ⟨t, rest, -, rfl⟩ := WorkQueue.fire?_eq_some hw
    exact .inl hid
  | add | forget | retryLater | wait | shutDown =>
    obtain rfl := Option.some.inj h
    exact .inl hid

theorem waiting_run {actions : List Action} (h : s.run actions = some s') (hid : id ∈ s.waiting) :
    id ∈ s'.waiting ∨ .abandon id ∈ actions ∨ ∃ key?, (id, key?) ∈ s.answers actions := by
  induction actions generalizing s with
  | nil => exact .inl (Option.some.inj h ▸ hid)
  | cons a rest ih =>
    obtain ⟨t, ht, hrest⟩ := Option.bind_eq_some_iff.1 h
    rw [answers, ht]
    rcases waiting_step? ht hid with hwaits | rfl | ⟨key?, hanswer⟩
    · rcases ih hrest hwaits with hwaits | hgivenUp | ⟨key?, hanswer⟩
      · exact .inl hwaits
      · exact .inr (.inl (List.mem_cons_of_mem _ hgivenUp))
      · exact .inr (.inr ⟨key?, List.mem_append_right _ hanswer⟩)
    · exact .inr (.inl (List.mem_cons_self ..))
    · exact .inr (.inr ⟨key?, by simp [hanswer]⟩)

/-- After the shutdown nobody is handed a key. -/
theorem answers_of_shutDown {actions : List Action} (h : s.run actions = some s')
    (hshut : s.queue.isShutDown) : ∀ answer ∈ s.answers actions, answer.2 = none := by
  induction actions generalizing s with
  | nil => exact fun _ hmem ↦ absurd hmem List.not_mem_nil
  | cons a rest ih =>
    obtain ⟨t, ht, hrest⟩ := Option.bind_eq_some_iff.1 h
    intro answer hmem
    rw [answers, ht] at hmem
    rcases List.mem_append.1 hmem with hfirst | hlater
    · obtain ⟨-, d, hd, hstage⟩ := answer?_eq_some (Option.mem_toList.1 hfirst)
      exact Dispenser.key?_of_step? hshut hd hstage
    · exact ih hrest (isShutDown_step? ht hshut) answer hlater

theorem run_append {before after : List Action} (h : s.run before = some s') :
    s.run (before ++ after) = s'.run after := by
  induction before generalizing s with
  | nil => rw [List.nil_append, Option.some.inj h]
  | cons a rest ih =>
    obtain ⟨t, ht, hrest⟩ := Option.bind_eq_some_iff.1 h
    rw [List.cons_append, run, ht]
    exact ih hrest

/-- When nothing moves, a request that still waits at an open queue waits because no key is ready. At
a queue that was shut down nobody waits then: whoever waited when it was shut down, or asked later,
and was not given up has been told so, and nobody has been handed a key since. -/
theorem nobody_waits_in_vain {backoff : Backoff} {isMeasured : Bool} {before after : List Action}
    (hbefore : (start backoff isMeasured).run before = some s) (hafter : s.run after = some s')
    (htimely : (start backoff isMeasured).Timely (before ++ after)) :
    (s'.work.dispenser.AtRest → s'.queue.isShutDown = false → s'.waiting ≠ [] →
      s'.queue.ready = []) ∧
    (s.queue.isShutDown →
      (∀ answer ∈ s.answers after, answer.2 = none) ∧
      (s'.work.dispenser.AtRest → s'.waiting = [] ∧ ∀ id ∈ s.waiting, .abandon id ∉ after →
        (id, none) ∈ s.answers after)) := by
  have hrun : (start backoff isMeasured).run (before ++ after) = some s' :=
    (run_append hbefore).trans hafter
  have hwatchful := (Watchful.start backoff isMeasured).run (sound_start _ _) htimely hrun
  refine ⟨fun hrest hopen ↦ hwatchful.ready_eq_nil hrest hopen, fun hshut ↦ ?_⟩
  have hanswers := answers_of_shutDown hafter hshut
  refine ⟨hanswers, fun hrest ↦ ?_⟩
  have hnobody := hwatchful.waiting_eq_nil hrest (isShutDown_run hafter hshut)
  refine ⟨hnobody, fun id hid hstays ↦ ?_⟩
  rcases waiting_run hafter hid with hwaits | hgivenUp | ⟨key?, hanswer⟩
  · rw [hnobody] at hwaits
    contradiction
  · exact absurd hgivenUp hstays
  · obtain rfl : key? = none := hanswers _ hanswer
    exact hanswer

/-- Three requests wait. One is woken for a key and given up, which wakes the next, and the queue is
shut down before that one has looked: neither of the two that stay is handed the key. -/
theorem nobody_waits_in_vain_of_shutDown :
    ∃ s s', (start ⟨1, 8⟩ true).run [.ask, .ask, .ask, .request 0, .request 0, .request 1,
        .request 1, .request 2, .request 2, .add "ns/x", .signal, .abandon 0, .signal,
        .shutDown] = some s ∧
      s.run [.signalAll, .request 1, .request 2, .request 1, .request 2] = some s' ∧
      s.waiting = [1, 2] ∧ s.queue.ready = ["ns/x"] ∧ s'.work.dispenser.AtRest ∧ s'.waiting = [] ∧
      ∀ id ∈ s.waiting, (id, none) ∈ s.answers [.signalAll, .request 1, .request 2, .request 1,
        .request 2] := by
  obtain ⟨s, hs⟩ : ∃ s, (start ⟨1, 8⟩ true).run [.ask, .ask, .ask, .request 0, .request 0,
      .request 1, .request 1, .request 2, .request 2, .add "ns/x", .signal, .abandon 0, .signal,
      .shutDown] = some s := ⟨_, rfl⟩
  obtain ⟨s', hs'⟩ : ∃ s', s.run [.signalAll, .request 1, .request 2, .request 1, .request 2] =
      some s' := by
    cases hs
    exact ⟨_, rfl⟩
  have htimely : (start ⟨1, 8⟩ true).Timely ([.ask, .ask, .ask, .request 0, .request 0, .request 1,
      .request 1, .request 2, .request 2, .add "ns/x", .signal, .abandon 0, .signal, .shutDown] ++
      [.signalAll, .request 1, .request 2, .request 1, .request 2]) := by
    decide
  have hshut : s.queue.isShutDown := by
    cases hs
    rfl
  have hwaiting : s.waiting = [1, 2] := by
    cases hs
    rfl
  have hready : s.queue.ready = ["ns/x"] := by
    cases hs
    rfl
  have hrest : s'.work.dispenser.AtRest := by
    cases hs
    cases hs'
    exact ⟨rfl, rfl, fun _ ht ↦ absurd ht List.not_mem_nil⟩
  have htold := ((nobody_waits_in_vain hs hs' htimely).2 hshut).2 hrest
  exact ⟨s, s', hs, hs', hwaiting, hready, hrest, htold.1, fun id hid ↦ htold.2 id hid (by simp)⟩

end Session

end Submarine
