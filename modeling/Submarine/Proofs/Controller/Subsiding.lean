import Submarine.Proofs.Controller.Mirroring
import Submarine.Proofs.Passes.Lasting

namespace Submarine

open Cluster (Effect Placed Since Stores Unchanged)

variable {k : Kind} {c₀ c c' : Cluster}

namespace Watch

variable {w w' : Watch k}

/-- Whether or not changes were lost, only what was ahead is read. -/
theorem read?_subset {event? : Option (WatchEvent k)} (h : w.read? c = some (event?, w')) :
    event?.toList ⊆ w.ahead c ∧ w'.ahead c ⊆ w.ahead c := by
  unfold read? at h
  split at h
  · next e listing hlisting =>
    obtain ⟨rfl, rfl⟩ := Prod.mk.inj (Option.some.inj h)
    have hahead : w.ahead c = e :: ahead { w with listing } c := by simp [ahead, hlisting]
    rw [hahead]
    exact ⟨by simp, List.subset_cons_self _ _⟩
  · next hlisting =>
    unfold readLog? at h
    dsimp only at h
    split at h
    · next hlost =>
      obtain ⟨rfl, rfl⟩ := Prod.mk.inj (Option.some.inj h)
      refine ⟨List.nil_subset _, ?_⟩
      simp only [ahead, hlisting, List.nil_append]
      exact ((List.drop_sublist_drop_left _ (Nat.le_of_lt hlost)).filterMap _).subset
    · obtain ⟨change, hchange, h⟩ := Option.map_eq_some_iff.1 h
      obtain ⟨rfl, rfl⟩ := Prod.mk.inj h
      obtain ⟨hlt, rfl⟩ := List.getElem?_eq_some_iff.1 hchange
      have hahead : w.ahead c = (eventOf? k c.log[w.position]).toList ++
          ahead { w with position := w.position + 1 } c := by
        simp only [ahead, hlisting, List.nil_append]
        rw [List.drop_eq_getElem_cons hlt, List.filterMap_cons]
        cases eventOf? k c.log[w.position] <;> rfl
      rw [hahead]
      exact ⟨List.subset_append_left _ _, List.subset_append_right _ _⟩

theorem ahead_append_subset {change : Change} (w : Watch k) (hlog : c'.log = c.log ++ [change]) :
    w.ahead c' ⊆ w.ahead c ++ (eventOf? k change).toList := by
  rw [ahead, hlog, List.drop_append, List.filterMap_append, ← List.append_assoc]
  intro e he
  rcases List.mem_append.1 he with hold | hnew
  · exact List.mem_append_left _ hold
  · have hmem := ((List.drop_sublist _ [change]).filterMap (eventOf? k)).subset hnew
    rw [List.filterMap_cons, List.filterMap_nil] at hmem
    refine List.mem_append_right _ ?_
    cases hevent : eventOf? k change with
    | none => simp [hevent] at hmem
    | some e' => simpa [hevent] using hmem

end Watch

namespace Loop

variable {l l' : Loop k}

theorem read?_subset {event? : Option (WatchEvent k)} (hprepared : l.feed.prepared = [])
    (h : l.read? c = some (event?, l')) :
    l'.feed.prepared = [] ∧ event?.toList ⊆ l.ahead c ∧ l'.ahead c ⊆ l.ahead c := by
  unfold read? at h
  split at h
  · contradiction
  · obtain ⟨⟨i, feed⟩, hnext, h⟩ := Option.map_eq_some_iff.1 h
    unfold Feed.next? at hnext
    rw [hprepared] at hnext
    dsimp only at hnext
    split at hnext
    · contradiction
    · obtain ⟨rfl, rfl⟩ := Prod.mk.inj (Option.some.inj hnext)
      obtain ⟨rfl, rfl⟩ := Prod.mk.inj h
      exact ⟨hprepared, List.nil_subset _, List.Subset.refl _⟩
    · next w hrest =>
      obtain ⟨⟨e, w'⟩, hw, he⟩ := Option.map_eq_some_iff.1 hnext
      obtain ⟨rfl, rfl⟩ := Prod.mk.inj he
      obtain ⟨hevent, hahead⟩ := Watch.read?_subset hw
      have hthis : l.ahead c = w.ahead c := by rw [ahead, hrest]
      rw [hthis]
      cases e with
      | none | some e =>
        obtain ⟨rfl, rfl⟩ := Prod.mk.inj h
        exact ⟨rfl, hevent, hahead⟩

theorem ahead_append_subset {change : Change} (l : Loop k) (hlog : c'.log = c.log ++ [change]) :
    l.ahead c' ⊆ l.ahead c ++ (Watch.eventOf? k change).toList := by
  unfold ahead
  split
  · exact Watch.ahead_append_subset _ hlog
  · exact List.nil_subset _
  · exact List.nil_subset _

end Loop

structure Loop.Recalls (c₀ : Cluster) (l : Loop .submarine) (roots : Cache .submarine)
    (c : Cluster) : Prop where
  prepared : l.feed.prepared = []
  cached : ∀ {key : String} {root : Root}, roots.objects.get? key = some root →
    ∃ p, p.key = key ∧ c₀.Recalls c p root
  coming : ∀ {e : WatchEvent .submarine} {root : Root}, e ∈ l.ahead c → e.news? = some root →
    ∃ p, c₀.Recalls c p root

namespace Loop.Recalls

variable {l l' : Loop .submarine} {roots : Cache .submarine}

theorem effect (h : l.Recalls c₀ roots c) (he : Effect c c')
    (hahead : ∀ e ∈ l.ahead c', e ∈ l.ahead c ∨
      ∀ root, e.news? = some root → ∃ p, c₀.Recalls c' p root) : l.Recalls c₀ roots c' where
  prepared := h.prepared
  cached hcached := by
    obtain ⟨p, hkey, hrecalls⟩ := h.cached hcached
    exact ⟨p, hkey, hrecalls.effect he⟩
  coming {e root} hmem hnews := by
    rcases hahead e hmem with hold | hnew
    · obtain ⟨p, hrecalls⟩ := h.coming hold hnews
      exact ⟨p, hrecalls.effect he⟩
    · exact hnew root hnews

theorem unchanged (h : l.Recalls c₀ roots c) (hsame : Unchanged c c') : l.Recalls c₀ roots c' := by
  refine h.effect (.unchanged hsame) fun e he ↦ .inl ?_
  have hahead : l.ahead c' = l.ahead c := by
    unfold ahead Watch.ahead
    rw [hsame.log]
  rwa [hahead] at he

theorem stores {q : Place} {o : Object k} (h : l.Recalls c₀ roots c) (hstores : Stores c q o c')
    (hc : Since c₀ c') : l.Recalls c₀ roots c' := by
  refine h.effect (.stores q o hstores) fun e he ↦ ?_
  rcases List.mem_append.1 (l.ahead_append_subset hstores.log he) with hold | hnew
  · exact .inl hold
  · refine .inr fun root hnews ↦ ?_
    by_cases hk : k = .submarine
    · subst hk
      rw [Watch.eventOf?_self] at hnew
      obtain rfl := List.mem_singleton.1 hnew
      obtain rfl := Option.some.inj hnews
      exact ⟨q, hc.recalls hstores.find?_self⟩
    · rw [Watch.eventOf?_of_ne hk] at hnew
      contradiction

theorem lands {p : Place} {call? : Option Call} (h : l.Recalls c₀ roots c) (hc : Since c₀ c')
    (hlands : Cluster.Lands c₀ p c c' call?) : l.Recalls c₀ roots c' := by
  cases hlands with
  | nothing same => exact h.unchanged same
  | writes _ _ _ stores => exact h.stores stores hc

theorem route (h : l.Recalls c₀ roots c) (pending : List (Notification .submarine)) :
    { l with pending }.Recalls c₀ roots c :=
  ⟨h.prepared, h.cached, h.coming⟩

theorem read {event? : Option (WatchEvent .submarine)} (hc : Placed c₀)
    (h : l.Recalls c₀ roots c) (hread : l.read? c = some (event?, l')) :
    (l'.receive roots event?).1.Recalls c₀ (l'.receive roots event?).2 c := by
  obtain ⟨hprepared, hevent, hahead⟩ := Loop.read?_subset h.prepared hread
  cases event? with
  | none => exact ⟨hprepared, h.cached, fun he ↦ h.coming (hahead he)⟩
  | some e =>
    refine ⟨hprepared, fun {key root} hcached ↦ ?_, fun he ↦ h.coming (hahead he)⟩
    rcases Cache.apply_source hcached with hold | ⟨hnews, rfl⟩
    · exact h.cached hold
    · obtain ⟨p, hrecalls⟩ := h.coming (hevent (List.mem_singleton_self e)) hnews
      exact ⟨p, (Object.cacheKey_of_place (hrecalls.place hc)).symm, hrecalls⟩

theorem opened (hc : Since c₀ c) (h : l.Recalls c₀ roots c) (hopen : l.open? c = some l') :
    l'.Recalls c₀ roots c := by
  obtain ⟨-, rfl⟩ := open?_eq_some hopen
  refine ⟨rfl, h.cached, fun {e root} he hnews ↦ ?_⟩
  rw [ahead_of_feed rfl, Watch.ahead_start] at he
  simp only [Watch.start, List.mem_append, List.mem_singleton, List.mem_map] at he
  rcases he with (rfl | ⟨v, hv, rfl⟩) | rfl
  · contradiction
  · obtain rfl := Option.some.inj hnews
    obtain ⟨p, hfind⟩ := Cluster.mem_values_iff.1 hv
    exact ⟨p, hc.recalls hfind⟩
  · contradiction

end Loop.Recalls

inductive Pass.Subsides (c₀ c : Cluster) (key : String) (rest : Pass Unit) : Prop where
  | begins (begins : rest = reconcile key)
  | ended (ended : ∀ r next, rest ≠ .ask r next)
  | works {p : Place} {root : Root} {seen : Option Sight} (cached : p.key = key)
      (bound : rest.Bound c₀ p root seen c)

theorem Pass.Subsides.effect {key : String} {rest : Pass Unit} (h : rest.Subsides c₀ c key)
    (he : Effect c c') : rest.Subsides c₀ c' key := by
  cases h with
  | begins begins => exact .begins begins
  | ended ended => exact .ended ended
  | works hkey bound => exact .works hkey (bound.effect he)

/-- One request of a pass: it writes only what was not done, and what it knows stays true. -/
theorem Pass.Subsides.step {w : World} {key : String} {r : Request} {next : r.Answer → Pass Unit}
    (h : (Pass.ask r next).Subsides c₀ w.cluster key) (hw : Since c₀ w.cluster)
    (hcached : ∀ {key : String} {root : Root}, w.roots.objects.get? key = some root →
      ∃ p, p.key = key ∧ c₀.Recalls w.cluster p root) :
    Since c₀ (w.serve r).2.cluster ∧
      (∃ p, p.key = key ∧ c₀.Lands p w.cluster (w.serve r).2.cluster (w.written? r)) ∧
      (w.step (.ask r next)).1.Subsides c₀ (w.serve r).2.cluster key := by
  cases h with
  | begins begins =>
    cases hsplit : splitKey? key with
    | none =>
      rw [reconcile_of_splitKey?_eq_none hsplit] at begins
      contradiction
    | some parts =>
      rw [reconcile_of_splitKey? hsplit] at begins
      obtain ⟨rfl, hnext⟩ := Pass.ask.inj begins
      obtain rfl := eq_of_heq hnext
      obtain ⟨-, -, -, -, rfl⟩ := splitKey?_eq_some_iff.1 hsplit
      refine ⟨hw, ⟨⟨parts.1, parts.2⟩, rfl, .nothing (.refl _)⟩, ?_⟩
      change (afterLookup (w.roots.get? parts.1 parts.2)).Subsides c₀ w.cluster _
      cases hroot : w.roots.get? parts.1 parts.2 with
      | none => exact .ended (by simp [afterLookup])
      | some root =>
        obtain ⟨p, hkey, hrecalls⟩ := hcached hroot
        exact .works hkey ⟨hrecalls, .of_disciplined (.afterLookup root) _, .afterLookup root none⟩
  | ended ended => exact absurd rfl (ended r next)
  | @works p root seen hkey bound =>
    obtain ⟨hw', hlands⟩ := bound.lands hw
    refine ⟨hw', ⟨p, hkey, hlands⟩, ?_⟩
    rcases w.step_ask_cases r next with ⟨answer, w', hserve, hstep⟩ | ⟨w', hserve, hstep⟩
    · rw [hstep, hserve]
      exact .works hkey (bound.next hw hserve)
    · rw [hstep]
      exact .ended (by simp)

def Cluster.Operation.onlyReads : Operation → Bool
  | .get _ _ | .failNext _ _ _ | .clearCalls => true
  | .create _ _ | .update _ _ | .updateStatus _ _ | .insert _ _ | .modify _ _ _ | .remove _ _ =>
    false

theorem Cluster.unchanged_perform {op : Operation} (h : op.onlyReads) (c : Cluster) :
    Unchanged c (c.perform op) := by
  cases op with
  | get k p => exact (get_spec (Prod.eta _)).1
  | failNext | clearCalls => exact ⟨rfl, rfl, rfl⟩
  | _ => contradiction

namespace Controller

variable {s s' : Controller} {m : Move}

/-- Anything may happen but that others write. -/
def Move.isInner : Move → Bool
  | .operate op => op.onlyReads
  | .act _ | .connect _ | .crash _ | .setClock _ | .wait _ | .requestShutdown => true

structure Write where
  key : String
  call : Call
deriving DecidableEq, Repr

inductive Advances (c₀ c c' : Cluster) : Option Write → Prop where
  | nothing (same : Unchanged c c') : Advances c₀ c c' none
  | writes {p : Place} {call : Call} (lands : c₀.Lands p c c' (some call)) :
      Advances c₀ c c' (some ⟨p.key, call⟩)

theorem Advances.done {write? : Option Write} {q : Place} (h : Advances c₀ c c' write?)
    (hdone : c₀.Done c k q) : c₀.Done c' k q := by
  cases h with
  | nothing same => exact hdone.congr (same.find? k q)
  | writes lands => exact lands.done hdone

def written? (s : Controller) : Move → Option Write
  | .act (.worker i) =>
    match s.workers[i]? with
    | some (.passing key (.ask r _)) => (s.world.written? r).map (⟨key, ·⟩)
    | _ => none
  | _ => none

/-- Makes one move after another; none if one of them is not enabled. Tells what was written, the
first write first. -/
def follow (s : Controller) : List Move → Option (List Write × Controller)
  | [] => some ([], s)
  | m :: rest => do
    let s' ← s.move? m
    let (writes, last) ← s'.follow rest
    return ((s.written? m).toList ++ writes, last)

theorem exists_of_follow_cons {rest : List Move} {writes : List Write} {last : Controller}
    (h : s.follow (m :: rest) = some (writes, last)) :
    ∃ s' later, s.move? m = some s' ∧ s'.follow rest = some (later, last) ∧
      writes = (s.written? m).toList ++ later := by
  obtain ⟨s', hmove, h⟩ := Option.bind_eq_some_iff.1 h
  obtain ⟨⟨later, last'⟩, hrest, hlast⟩ := Option.bind_eq_some_iff.1 h
  obtain ⟨rfl, rfl⟩ := Prod.mk.inj (Option.some.inj hlast)
  exact ⟨s', later, hmove, hrest, rfl⟩

theorem written?_of_asks {i : Nat} {key : String} {r : Request} {next : r.Answer → Pass Unit}
    (h : s.workers[i]? = some (.passing key (.ask r next))) :
    s.written? (.act (.worker i)) = (s.world.written? r).map (⟨key, ·⟩) := by
  rw [written?, h]

theorem written?_eq_none (h : ∀ i, m = .act (.worker i) → ∀ key r next,
    s.workers[i]? ≠ some (.passing key (.ask r next))) : s.written? m = none := by
  unfold written?
  split
  · next i =>
    split
    · next key r next hi => exact absurd hi (h i rfl key r next)
    · rfl
  · rfl

/-- The controller since some cluster in which others wrote last. -/
structure Subsides (c₀ : Cluster) (s : Controller) : Prop where
  since : Since c₀ s.world.cluster
  led : s.watching.Led fun l roots ↦ l.Recalls c₀ roots s.world.cluster
  passes : ∀ {i : Nat} {key : String} {rest : Pass Unit},
    s.workers[i]? = some (.passing key rest) → rest.Subsides c₀ s.world.cluster key

namespace Subsides

theorem cached (h : s.Subsides c₀) {key : String} {root : Root}
    (hcached : s.world.roots.objects.get? key = some root) :
    ∃ p, p.key = key ∧ c₀.Recalls s.world.cluster p root := by
  obtain ⟨l, -, hl⟩ := h.led.first
  exact hl.cached hcached

/-- The loops, the cluster and the passes go on as they are, or the cluster has changed but for its
objects. -/
theorem unchanged (h : s.Subsides c₀) (hsame : Unchanged s.world.cluster s'.world.cluster)
    (hwatchers : s'.watching.watchers = s.watching.watchers)
    (hroots : s'.world.roots = s.world.roots)
    (hpasses : ∀ (i : Nat) key rest, s'.workers[i]? = some (.passing key rest) →
      s.workers[i]? = some (.passing key rest) ∨ rest = reconcile key) : s'.Subsides c₀ where
  since := h.since.unchanged hsame
  led := (h.led.mono fun l hl ↦ hl.unchanged hsame).congr hwatchers hroots
  passes {i key rest} hi := by
    rcases hpasses i key rest hi with hold | hbegun
    · exact (h.passes hold).effect (.unchanged hsame)
    · exact .begins hbegun

theorem asks {i : Nat} {key : String} {r : Request} {next : r.Answer → Pass Unit}
    (h : s.Subsides c₀) (hi : s.workers[i]? = some (.passing key (.ask r next))) :
    ((s.withWorld (s.world.step (.ask r next)).2).withWorker i
        (.passing key (s.world.step (.ask r next)).1)).Subsides c₀ ∧
      Advances c₀ s.world.cluster (s.world.step (.ask r next)).2.cluster
        (s.written? (.act (.worker i))) := by
  obtain ⟨hsince, ⟨p, rfl, hlands⟩, hpass⟩ := (h.passes hi).step h.since h.cached
  have heffect := s.world.effect_serve r
  rw [← World.step_ask s.world r next] at hsince hlands hpass heffect
  refine ⟨⟨hsince, ?_, fun {j key rest} hj ↦ ?_⟩, ?_⟩
  · exact (h.led.mono fun l hl ↦ hl.lands hsince hlands).congr rfl (s.world.roots_step _)
  · change (s.workers.set i _)[j]? = some (.passing key rest) at hj
    rw [getElem?_set_of_some hi] at hj
    split at hj
    · obtain ⟨rfl, rfl⟩ := Worker.passing.inj (Option.some.inj hj)
      exact hpass
    · exact (h.passes hj).effect heffect
  · rw [written?_of_asks hi]
    cases hcall : s.world.written? r with
    | none =>
      rw [hcall] at hlands
      cases hlands with
      | nothing same => exact .nothing same
    | some call =>
      rw [hcall] at hlands
      exact .writes hlands

theorem move (h : s.Subsides c₀) (hm : m.isInner) (hmove : s.move? m = some s') :
    s'.Subsides c₀ ∧ Advances c₀ s.world.cluster s'.world.cluster (s.written? m) := by
  cases shifts_of_move? hmove with
  | watches step =>
    have hled := h.led.step (fun l pending hl ↦ hl.route pending)
      (fun l l' event? _ hl hread ↦ hl.read h.since.origin hread) step
    obtain ⟨w, w', roots, key?, -, -, rfl⟩ := Watchers.step?_eq_some step
    exact ⟨⟨h.since, hled, h.passes⟩, .nothing (.refl _)⟩
  | connects opened =>
    have hled := h.led.opened (fun l l' hl hopen ↦ hl.opened h.since hopen) opened
    obtain ⟨w, w', -, -, rfl⟩ := Watchers.open?_eq_some opened
    exact ⟨⟨h.since, hled, h.passes⟩, .nothing (.refl _)⟩
  | asks worker => exact h.asks worker
  | operates op =>
    have hsame := Cluster.unchanged_perform hm s.world.cluster
    exact ⟨h.unchanged hsame rfl rfl fun _ _ _ ↦ .inl, .nothing hsame⟩
  | elsewhere watchers roots cluster passes silent =>
    have hsame : Unchanged s.world.cluster s'.world.cluster := cluster ▸ .refl _
    rw [written?_eq_none silent]
    exact ⟨h.unchanged hsame watchers roots passes, .nothing hsame⟩

/-- Nothing is written that is done already, or twice, and whatever is logged was written so. -/
theorem follow {moves : List Move} {writes : List Write} (h : s.Subsides c₀)
    (hinner : ∀ m ∈ moves, m.isInner) (hfollow : s.follow moves = some (writes, s')) :
    writes.Pairwise (fun w w' ↦ ¬ (w.call.kind = w'.call.kind ∧ w.call.place = w'.call.place)) ∧
      (∀ w ∈ writes, ¬ c₀.Done s.world.cluster w.call.kind w.call.place ∧
        ∃ p root, c₀.find? .submarine p = some root ∧ w.key = p.key ∧ w.call.IsFor p root) ∧
      s'.world.cluster.log.length = s.world.cluster.log.length + writes.length := by
  induction moves generalizing s writes with
  | nil =>
    obtain ⟨rfl, rfl⟩ := Prod.mk.inj (Option.some.inj hfollow)
    simp
  | cons m rest ih =>
    obtain ⟨t, later, hmove, hrest, rfl⟩ := exists_of_follow_cons hfollow
    obtain ⟨hsubsides, hadvances⟩ := h.move (hinner m (List.mem_cons_self ..)) hmove
    obtain ⟨hpairwise, hdue, hlog⟩ :=
      ih hsubsides (fun m' hm' ↦ hinner m' (List.mem_cons_of_mem _ hm')) hrest
    -- What is done already stays done, so what is due after the move was due before it.
    have hlater : ∀ w ∈ later, ¬ c₀.Done s.world.cluster w.call.kind w.call.place :=
      fun w hw hdone ↦ (hdue w hw).1 (hadvances.done hdone)
    generalize s.written? m = write? at hadvances ⊢
    cases hadvances with
    | nothing same =>
      rw [same.log] at hlog
      exact ⟨hpairwise, fun w hw ↦ ⟨hlater w hw, (hdue w hw).2⟩, hlog⟩
    | @writes p call lands =>
      cases lands with
      | @writes verb k q o root declared own due stores done =>
        rw [stores.log, List.length_append, List.length_singleton] at hlog
        refine ⟨List.pairwise_cons.2 ⟨fun w hw ⟨hkind, hplace⟩ ↦ ?_, hpairwise⟩,
          fun w hw ↦ ?_, ?_⟩
        · -- What has just been done is done when the other write is due.
          have hdone := Cluster.Done.of_stores stores done
          refine (hdue w hw).1 ?_
          rwa [← hkind, ← hplace]
        · rcases List.mem_cons.1 hw with rfl | hw
          · exact ⟨due, p, root, declared, rfl, own⟩
          · exact ⟨hlater w hw, (hdue w hw).2⟩
        · rw [hlog, Nat.add_assoc, Nat.add_comm 1]
          rfl

end Subsides

end Controller

theorem Watchers.AreDelivered.led_recalls {s : Watchers} (hdelivered : s.AreDelivered)
    (hc : Placed s.world.cluster) (h : s.Led fun l roots ↦ l.Mirrors roots s.world.cluster) :
    s.Led fun l roots ↦ l.Recalls s.world.cluster roots s.world.cluster := by
  obtain ⟨l, hl, hmirrors⟩ := h.first
  have hahead : l.ahead s.world.cluster = [] := hdelivered _ (List.mem_of_getElem? hl)
  refine ⟨⟨l, hl, hmirrors.prepared, fun {key root} hcached ↦ ?_, fun {e root} he ↦ ?_⟩, h.others⟩
  · obtain ⟨p, hkey, hfind⟩ := hmirrors.stored_of_ahead_eq_nil hahead hcached
    exact ⟨p, hkey, (Since.refl hc).recalls hfind⟩
  · rw [hahead] at he
    contradiction

def Worker.isPassing : Worker → Bool
  | .passing _ _ => true
  | .asking _ | .releasing _ | .exited => false

theorem countP_le_one_of_pairwise {α : Type} {R : α → α → Prop} {P : α → Bool} {xs : List α}
    (h : xs.Pairwise R) (hP : ∀ x y, P x → P y → ¬ R x y) : xs.countP P ≤ 1 := by
  have hfilter := h.filter P
  rw [List.countP_eq_length_filter]
  match hxs : xs.filter P with
  | [] | [_] => simp
  | x :: y :: rest =>
    rw [hxs] at hfilter
    have hmem : x ∈ xs.filter P ∧ y ∈ xs.filter P := by simp [hxs]
    exact absurd (List.rel_of_pairwise_cons hfilter (List.mem_cons_self ..))
      (hP x y (List.mem_filter.1 hmem.1).2 (List.mem_filter.1 hmem.2).2)

namespace Controller

variable {s s' : Controller} {settings : Settings} {clock : Time.Instant} {moves : List Move}
  {writes : List Write}

def IsIdle (s : Controller) : Prop := ∀ w ∈ s.workers, w.isPassing = false

theorem Roams.subsides (h : Roams settings clock s) (hdelivered : s.watching.AreDelivered)
    (hidle : s.IsIdle) : s.Subsides s.world.cluster := by
  obtain ⟨hmirrors, -⟩ := h.mirrors
  refine ⟨.refl hmirrors.placed, hdelivered.led_recalls hmirrors.placed hmirrors.led,
    fun {i key rest} hi ↦ ?_⟩
  have hnot := hidle _ (List.mem_of_getElem? hi)
  contradiction

/-- Each write is that of a pass over an installation of the first cluster, for a child that this
declares or for its own status; each child and each status is written at most once; and nothing else
has changed. -/
structure WritesOnce (c c' : Cluster) (writes : List Write) : Prop where
  own : ∀ w ∈ writes, ∃ p root, c.find? .submarine p = some root ∧ w.key = p.key ∧
    w.call.IsFor p root
  children : ∀ p child, writes.countP (·.call.converges p child) ≤ 1
  statuses : ∀ p, writes.countP (·.call.reports p) ≤ 1
  all : c'.log.length = c.log.length + writes.length

section Schedule

theorem length_log_le_of_move? {m : Move} (h : s.move? m = some s') :
    s.world.cluster.log.length ≤ s'.world.cluster.log.length := by
  cases shifts_of_move? h with
  | watches step =>
    obtain ⟨w, w', roots, key?, -, -, rfl⟩ := Watchers.step?_eq_some step
    exact Nat.le_refl _
  | connects opened =>
    obtain ⟨w, w', -, -, rfl⟩ := Watchers.open?_eq_some opened
    exact Nat.le_refl _
  | asks => exact (s.world.effect_step _).length_log_le
  | operates op => exact (Effect.perform s.world.cluster op).length_log_le
  | elsewhere _ _ cluster => exact Nat.le_of_eq (congrArg (·.log.length) cluster.symm)

theorem length_log_le_of_follow (h : s.follow moves = some (writes, s')) :
    s.world.cluster.log.length ≤ s'.world.cluster.log.length := by
  induction moves generalizing s writes with
  | nil =>
    obtain ⟨rfl, rfl⟩ := Prod.mk.inj (Option.some.inj h)
    exact Nat.le_refl _
  | cons m rest ih =>
    obtain ⟨t, later, hmove, hrest, rfl⟩ := exists_of_follow_cons h
    exact Nat.le_trans (length_log_le_of_move? hmove) (ih hrest)

theorem Roams.follow (h : Roams settings clock s) (hinner : ∀ m ∈ moves, m.isInner)
    (hfollow : s.follow moves = some (writes, s'))
    (hshort : s'.world.cluster.log.length ≤ Cluster.backlog) : Roams settings clock s' := by
  induction moves generalizing s writes with
  | nil =>
    obtain ⟨rfl, rfl⟩ := Prod.mk.inj (Option.some.inj hfollow)
    exact h
  | cons m rest ih =>
    obtain ⟨t, later, hmove, hrest, rfl⟩ := exists_of_follow_cons hfollow
    have hkeeps : m.KeepsNames s := by
      cases m with
      | operate op =>
        have hreads : op.onlyReads := hinner _ (List.mem_cons_self ..)
        cases op with
        | modify => contradiction
        | _ => trivial
      | _ => trivial
    -- No reader can be further behind than the log is long, and the log never shrinks.
    have hlater := keepsUp_of_short (Nat.le_trans (length_log_le_of_follow hrest) hshort)
    exact ih (.move m h hkeeps hmove hlater) (fun m' hm' ↦ hinner m' (List.mem_cons_of_mem _ hm'))
      hrest

instance (w : Watcher) (c : Cluster) : Decidable (w.IsDelivered c) :=
  match w with
  | .roots l => inferInstanceAs (Decidable (l.ahead c = []))
  | .children _ l _ => inferInstanceAs (Decidable (l.ahead c = []))

instance (s : Watchers) : Decidable s.AreDelivered :=
  inferInstanceAs (Decidable (∀ w ∈ s.watchers, w.IsDelivered s.world.cluster))

instance (s : Controller) : Decidable s.IsIdle :=
  inferInstanceAs (Decidable (∀ w ∈ s.workers, w.isPassing = false))

def sampleOpened : Option (List Write × Controller) :=
  ((start {} ⟨0, 0⟩).withWorld { (start {} ⟨0, 0⟩).world with cluster := sampleCluster }).follow
    ((List.range 11).map .connect ++ List.replicate 4 (.act (.watch 0)) ++
      (List.range 10).flatMap fun i ↦ List.replicate 2 (.act (.watch (i + 1))))

def sampleMoves : List Move :=
  [.act .proceed, .act (.taker 0)] ++ List.replicate 27 (.act (.worker 0)) ++
    List.replicate 12 (.act (.watch 0)) ++ [.act (.taker 1)] ++
      List.replicate 16 (.act (.worker 1))

end Schedule

/-- From a state in which every event is delivered and no pass is under way, and as long as nobody
else writes, the controller writes each child and each status at most once, however it goes on. -/
theorem Roams.writes_once (h : Roams settings clock s) (hdelivered : s.watching.AreDelivered)
    (hidle : s.IsIdle) (hinner : ∀ m ∈ moves, m.isInner)
    (hfollow : s.follow moves = some (writes, s')) :
    WritesOnce s.world.cluster s'.world.cluster writes := by
  obtain ⟨hpairwise, hown, hlog⟩ := (h.subsides hdelivered hidle).follow hinner hfollow
  refine ⟨fun w hw ↦ (hown w hw).2, fun p child ↦ ?_, fun p ↦ ?_, hlog⟩
  · refine countP_le_one_of_pairwise hpairwise fun w w' hw hw' hne ↦ hne ?_
    simp only [Call.converges, Bool.and_eq_true, decide_eq_true_eq] at hw hw'
    exact ⟨hw.1.2.trans hw'.1.2.symm, hw.2.trans hw'.2.symm⟩
  · refine countP_le_one_of_pairwise hpairwise fun w w' hw hw' hne ↦ hne ?_
    simp only [Call.reports, decide_eq_true_eq] at hw hw'
    rw [hw, hw']
    exact ⟨rfl, rfl⟩

theorem writes_once_sample :
    ∃ s, Roams {} ⟨0, 0⟩ s ∧ s.watching.AreDelivered ∧ s.IsIdle ∧
      (∀ m ∈ sampleMoves, m.isInner) ∧ ∃ writes s', s.follow sampleMoves = some (writes, s') ∧
        writes.length = 11 ∧ WritesOnce s.world.cluster s'.world.cluster writes := by
  have hrun : sampleOpened.any (fun r ↦ decide (r.2.watching.AreDelivered ∧ r.2.IsIdle ∧
      r.2.world.cluster.log.length ≤ Cluster.backlog) &&
        (r.2.follow sampleMoves).any fun r ↦ decide (r.1.length = 11)) = true := by
    decide +kernel
  obtain ⟨⟨opening, s⟩, hopened, hrun⟩ := (Option.any_eq_true _ _).1 hrun
  obtain ⟨hstate, hrun⟩ := (Bool.and_eq_true _ _).mp hrun
  obtain ⟨hdelivered, hidle, hshort⟩ := of_decide_eq_true hstate
  obtain ⟨⟨writes, s'⟩, hfollow, hlength⟩ := (Option.any_eq_true _ _).1 hrun
  have hinserted : sampleCluster.log.length ≤ Cluster.backlog := by decide +kernel
  have hbegun : Roams {} ⟨0, 0⟩ ((start {} ⟨0, 0⟩).withWorld
      { (start {} ⟨0, 0⟩).world with cluster := sampleCluster }) :=
    .move (.operate (.insert .submarine Root.sample)) .start trivial rfl
      (keepsUp_of_short hinserted)
  have hroams : Roams {} ⟨0, 0⟩ s := hbegun.follow (by decide) hopened hshort
  have hinner : ∀ m ∈ sampleMoves, m.isInner := by decide
  exact ⟨s, hroams, hdelivered, hidle, hinner, writes, s', hfollow, of_decide_eq_true hlength,
    hroams.writes_once hdelivered hidle hinner hfollow⟩

end Controller

end Submarine
