import Submarine.Proofs.Queue.Holding
import Submarine.Queue.WorkQueue

namespace Submarine

structure Session where
  work : WorkQueue
  -- Who holds which key: the request by which it was handed out, and the key.
  holders : List (Nat × String)

namespace Session

inductive Action where
  | add (key : String)
  | ask
  | request (id : Nat)
  -- The worker gives up before it has its answer.
  | abandon (id : Nat)
  | signal
  | signalAll
  | release (id : Nat)
  | forget (key : String)
  | retryLater (key : String)
  | fire
  | wait (span : Nat)
  | shutDown
deriving DecidableEq, Repr

def start (backoff : Backoff) (isMeasured : Bool) : Session := ⟨.new backoff isMeasured, []⟩

abbrev queue (s : Session) : Queue := s.work.queue

def keys (s : Session) : List String := s.holders.map Prod.snd

def answered (s : Session) (id : Nat) (d : Dispenser) : Session :=
  match d.stage? id with
  | some (.finished key?) =>
    ⟨s.work.follow (d.abandon id), (key?.map fun key ↦ (id, key)).toList ++ s.holders⟩
  | _ => { s with work := s.work.follow d }

def step? (s : Session) : Action → Option Session
  | .add key => some { s with work := s.work.add key }
  | .ask => some { s with work := s.work.takeLater.2 }
  | .request id => (s.work.dispenser.step? id).map (s.answered id)
  | .abandon id =>
    (s.work.dispenser.stage? id).map fun _ ↦
      { s with work := s.work.follow (s.work.dispenser.abandon id) }
  | .signal => s.work.dispenser.signal?.map fun d ↦ { s with work := s.work.follow d }
  | .signalAll => s.work.dispenser.signalAll?.map fun d ↦ { s with work := s.work.follow d }
  | .release id =>
    (s.holders.find? (·.1 = id)).map fun h ↦ ⟨s.work.done h.2, s.holders.erase h⟩
  | .forget key => some { s with work := s.work.forget key }
  | .retryLater key => some { s with work := s.work.retryLater key }
  | .fire => s.work.fire?.map fun work ↦ { s with work }
  | .wait span => some { s with work := { s.work with now := s.work.now + span } }
  | .shutDown => some { s with work := s.work.shutDown }

def run (s : Session) : List Action → Option Session
  | [] => some s
  | a :: rest => (s.step? a).bind (·.run rest)

/-- What every state that can be reached satisfies: all keys that are held are accounted for, and
the workers hold them. -/
structure Sound (s : Session) : Prop where
  accounted : s.work.dispenser.Accounted s.keys
  held_by : ∀ key ∈ s.queue.held, key ∈ s.keys

variable {s s' : Session}

theorem sound_start (backoff : Backoff) (isMeasured : Bool) : (start backoff isMeasured).Sound :=
  ⟨.empty, by simp [start, WorkQueue.new, Dispenser.empty, Queue.empty]⟩

theorem Sound.mem_held (h : s.Sound) (key : String) : key ∈ s.queue.held ↔ key ∈ s.keys :=
  ⟨h.held_by key, fun hk ↦ (h.accounted.mem_held key).2 (List.mem_append_right _ hk)⟩

theorem Sound.keys_nodup (h : s.Sound) : s.keys.Nodup := (List.nodup_append.1 h.accounted.nodup).2.1

/-- No request that was handed a key is left without a worker. -/
theorem Sound.handed_eq_nil (h : s.Sound) : s.work.dispenser.handed = [] := by
  refine List.eq_nil_iff_forall_not_mem.2 fun key hkey ↦ ?_
  have hheld : key ∈ s.queue.held := (h.accounted.mem_held key).2 (List.mem_append_left _ hkey)
  exact (List.nodup_append.1 h.accounted.nodup).2.2 key hkey key (h.held_by key hheld) rfl

theorem Sound.answered {id : Nat} {d : Dispenser} (h : s.Sound)
    (hd : s.work.dispenser.step? id = some d) : (s.answered id d).Sound := by
  have hacc := h.accounted.step? hd
  have hheld (key : String) (hkey : key ∈ d.queue.held) :=
    (Dispenser.Accounted.held_of_step? hd hkey).imp_left (h.held_by key)
  unfold Session.answered
  split
  · next key? hs =>
    have hkeys : ((key?.map fun key ↦ (id, key)).toList ++ s.holders).map Prod.snd =
        (Stage.finished key?).key?.toList ++ s.keys := by
      cases key? <;> simp [Stage.key?, keys]
    have hacc' := hacc.abandon hs
    rw [← hkeys] at hacc'
    refine ⟨hacc', fun key hkey ↦ ?_⟩
    rw [keys, hkeys, List.mem_append]
    rcases hheld key hkey with hk | hk
    · exact .inr hk
    · rw [hs, Option.some_inj, Stage.finished.injEq] at hk
      exact .inl (by simp [Stage.key?, hk])
  · next hs =>
    exact ⟨hacc, fun key hkey ↦ (hheld key hkey).resolve_right fun hk ↦ hs _ hk⟩

theorem Sound.release {h : Nat × String} (hs : s.Sound) (hmem : h ∈ s.holders) :
    Sound ⟨s.work.done h.2, s.holders.erase h⟩ := by
  have hkey : h.2 ∈ s.keys := List.mem_map_of_mem hmem
  have hperm : (s.keys.erase h.2).Perm ((s.holders.erase h).map Prod.snd) :=
    ((List.perm_cons_erase hmem).map Prod.snd |>.symm.trans (List.perm_cons_erase hkey)).symm.cons_inv
  refine ⟨(hs.accounted.done hkey).perm hperm, fun key hk ↦ ?_⟩
  obtain ⟨hk, hne⟩ := Queue.mem_held_done.1 hk
  exact hperm.mem_iff.1 ((List.mem_erase_of_ne hne).2 (hs.held_by key hk))

theorem Sound.step? {a : Action} (h : s.Sound) (hs : s.step? a = some s') : s'.Sound := by
  have hold := h.held_by
  cases a with
  | add key =>
    obtain rfl := Option.some.inj hs
    exact ⟨h.accounted.add key, fun j hj ↦ hold j (Queue.held_add s.queue key ▸ hj)⟩
  | ask =>
    obtain rfl := Option.some.inj hs
    exact ⟨h.accounted.ask, hold⟩
  | request id =>
    obtain ⟨d, hd, rfl⟩ := Option.map_eq_some_iff.1 hs
    exact h.answered hd
  | abandon id =>
    obtain ⟨stage, hd, rfl⟩ := Option.map_eq_some_iff.1 hs
    have hkey : stage.key? = none := by
      by_contra hne
      obtain ⟨key, hkey⟩ := Option.ne_none_iff_exists'.1 hne
      have hmem : key ∈ s.work.dispenser.handed :=
        List.mem_filterMap.2 ⟨_, Dispenser.mem_takers_of_stage? hd, hkey⟩
      simp [h.handed_eq_nil] at hmem
    have hacc := h.accounted.abandon hd
    rw [hkey] at hacc
    exact ⟨hacc, hold⟩
  | signal =>
    obtain ⟨d, hd, rfl⟩ := Option.map_eq_some_iff.1 hs
    refine ⟨h.accounted.signal? hd, fun key hkey ↦ hold key ?_⟩
    change key ∈ d.queue.held at hkey
    rwa [Dispenser.Accounted.queue_signal? hd] at hkey
  | signalAll =>
    obtain ⟨d, hd, rfl⟩ := Option.map_eq_some_iff.1 hs
    refine ⟨h.accounted.signalAll? hd, fun key hkey ↦ hold key ?_⟩
    change key ∈ d.queue.held at hkey
    rwa [Dispenser.Accounted.queue_signalAll? hd] at hkey
  | release id =>
    obtain ⟨holder, hfound, rfl⟩ := Option.map_eq_some_iff.1 hs
    exact h.release (List.mem_of_find?_eq_some hfound)
  | forget key =>
    obtain rfl := Option.some.inj hs
    exact ⟨h.accounted.withQueue (h.accounted.coherent.forget key) rfl, hold⟩
  | retryLater key =>
    obtain rfl := Option.some.inj hs
    exact ⟨h.accounted.withQueue (h.accounted.coherent.countFailure key) rfl, hold⟩
  | fire =>
    obtain ⟨work, hw, rfl⟩ := Option.map_eq_some_iff.1 hs
    obtain ⟨t, rest, -, rfl⟩ := WorkQueue.fire?_eq_some hw
    exact ⟨h.accounted.add t.key, fun j hj ↦ hold j (Queue.held_add s.queue t.key ▸ hj)⟩
  | wait span =>
    obtain rfl := Option.some.inj hs
    exact ⟨h.accounted, hold⟩
  | shutDown =>
    obtain rfl := Option.some.inj hs
    exact ⟨h.accounted.shutDown, hold⟩

theorem Sound.run {actions : List Action} (h : s.Sound) (hs : s.run actions = some s') :
    s'.Sound := by
  induction actions generalizing s with
  | nil => exact Option.some.inj hs ▸ h
  | cons a rest ih =>
    obtain ⟨t, ht, hrest⟩ := Option.bind_eq_some_iff.1 hs
    exact ih (h.step? ht) hrest

/-- In every state that can be reached the parts of the queue agree, and what it takes for held is
what the workers hold, each key by one of them. So a request is never handed a key that a worker
still holds. -/
theorem no_key_held_twice {backoff : Backoff} {isMeasured : Bool} {actions : List Action}
    (h : (start backoff isMeasured).run actions = some s) :
    s.queue.Coherent ∧ (∀ key, key ∈ s.queue.held ↔ ∃ id, (id, key) ∈ s.holders) ∧
    (∀ a b key, (a, key) ∈ s.holders → (b, key) ∈ s.holders → a = b) ∧
    ∀ id key s', s.step? (.request id) = some s' → s'.holders = (id, key) :: s.holders →
      ∀ other, (other, key) ∉ s.holders := by
  have hsound := (sound_start backoff isMeasured).run h
  refine ⟨hsound.accounted.coherent, fun key ↦ ?_, fun a b key ha hb ↦ ?_,
    fun id key s' hs hholders other hother ↦ ?_⟩
  · rw [hsound.mem_held, keys, List.mem_map]
    exact ⟨fun ⟨h, hh, he⟩ ↦ ⟨h.1, he ▸ hh⟩, fun ⟨id, hid⟩ ↦ ⟨(id, key), hid, rfl⟩⟩
  · exact congrArg Prod.fst (List.inj_on_of_nodup_map hsound.keys_nodup ha hb rfl)
  · have hnodup := (hsound.step? hs).keys_nodup
    rw [keys, hholders, List.map_cons, List.nodup_cons] at hnodup
    exact hnodup.1 (List.mem_map.2 ⟨_, hother, rfl⟩)

/-- Two workers at work, and a key that was added again while it is held. -/
theorem no_key_held_twice_of_readded :
    ∃ s, (start ⟨1, 8⟩ true).run [.add "ns/x", .add "ns/y", .ask, .ask, .request 1, .request 0,
        .add "ns/x", .retryLater "ns/y", .fire] = some s ∧
      s.holders = [(0, "ns/y"), (1, "ns/x")] ∧ s.queue.dirty = ["ns/x", "ns/y"] ∧
      s.queue.ready = [] ∧ s.queue.Coherent ∧
      ∀ key, key ∈ s.queue.held ↔ ∃ id, (id, key) ∈ s.holders := by
  obtain ⟨s, hs⟩ : ∃ s, (start ⟨1, 8⟩ true).run [.add "ns/x", .add "ns/y", .ask, .ask, .request 1,
      .request 0, .add "ns/x", .retryLater "ns/y", .fire] = some s := ⟨_, rfl⟩
  have h := no_key_held_twice hs
  cases hs
  exact ⟨_, rfl, rfl, rfl, rfl, h.1, h.2.1⟩

end Session

end Submarine
