import Submarine.Proofs.Controller.Loops
import Submarine.Proofs.Passes.Gentle
import Submarine.Proofs.Passes.Settling
import Submarine.Proofs.Queue.Wanting

namespace Submarine

open Cluster (Proper Gentle)

variable {k : Kind} {c c' : Cluster} {p : Place} {root : Root} {i : Nat}

namespace Watcher

variable {w w' : Watcher} {roots roots' : Cache .submarine} {key? : Option String}

def Sound (w : Watcher) (roots : Cache .submarine) (c : Cluster) : Prop :=
  match w with
  | .roots l => l.Sound roots c
  | .children _ l cache => l.Sound cache c

def KeepsUp (w : Watcher) (c : Cluster) : Prop :=
  match w with
  | .roots l => l.KeepsUp c
  | .children _ l _ => l.KeepsUp c

def IsDry (w : Watcher) (c : Cluster) : Prop :=
  match w with
  | .roots l => l.IsDry c
  | .children _ l _ => l.IsDry c

instance (w : Watcher) (c : Cluster) : Decidable (w.IsDry c) :=
  match w with
  | .roots l => inferInstanceAs (Decidable (l.IsDry c))
  | .children _ l _ => inferInstanceAs (Decidable (l.IsDry c))

def open? (w : Watcher) (c : Cluster) : Option Watcher :=
  match w with
  | .roots l => (l.open? c).map .roots
  | .children k l cache => (l.open? c).map fun l ↦ .children k l cache

def OwesRoot (w : Watcher) (c : Cluster) (p : Place) : Prop :=
  match w with
  | .roots l => l.Owes c (.ofRoot p)
  | .children _ _ _ => False

def OwesChild (w : Watcher) (c : Cluster) (root : Root) : Prop :=
  match w with
  | .roots _ => False
  | .children k l _ => ∃ hk : k ∈ childKinds, l.Owes c (.ofChild hk root)

inductive Steps (c : Cluster) (roots : Cache .submarine) :
    Watcher → Watcher → Cache .submarine → Option String → Prop where
  | routeRoot {l : Loop .submarine} {n : Notification .submarine}
      {rest : List (Notification .submarine)} (pending : l.pending = n :: rest) :
      Steps c roots (.roots l) (.roots { l with pending := rest }) roots (Router.keyOfRoot? n)
  | readRoot {l l' : Loop .submarine} {event? : Option (WatchEvent .submarine)}
      (pending : l.pending = []) (read : l.read? c = some (event?, l')) :
      Steps c roots (.roots l) (.roots (l'.receive roots event?).1) (l'.receive roots event?).2 none
  | routeChild {k : Kind} {l : Loop k} {cache : Cache k} {n : Notification k}
      {rest : List (Notification k)} (pending : l.pending = n :: rest) :
      Steps c roots (.children k l cache) (.children k { l with pending := rest } cache) roots
        (Router.keyOfChild? roots n)
  | readChild {k : Kind} {l l' : Loop k} {cache : Cache k} {event? : Option (WatchEvent k)}
      (pending : l.pending = []) (read : l.read? c = some (event?, l')) :
      Steps c roots (.children k l cache)
        (.children k (l'.receive cache event?).1 (l'.receive cache event?).2) roots none

theorem steps_of_step? (h : w.step? c roots = some (w', roots', key?)) :
    Steps c roots w w' roots' key? := by
  cases w with
  | roots l =>
    unfold step? at h
    dsimp only at h
    split at h
    · next n rest hpending =>
      simp only [Option.some.injEq, Prod.mk.injEq] at h
      obtain ⟨rfl, rfl, rfl⟩ := h
      exact .routeRoot hpending
    · next hpending =>
      obtain ⟨⟨event?, l'⟩, hread, h⟩ := Option.map_eq_some_iff.1 h
      cases event? with
      | none | some e =>
        simp only [Prod.mk.injEq] at h
        obtain ⟨rfl, rfl, rfl⟩ := h
        exact .readRoot hpending hread
  | children k l cache =>
    unfold step? at h
    dsimp only at h
    split at h
    · next n rest hpending =>
      simp only [Option.some.injEq, Prod.mk.injEq] at h
      obtain ⟨rfl, rfl, rfl⟩ := h
      exact .routeChild hpending
    · next hpending =>
      obtain ⟨⟨event?, l'⟩, hread, h⟩ := Option.map_eq_some_iff.1 h
      cases event? with
      | none | some e =>
        simp only [Prod.mk.injEq] at h
        obtain ⟨rfl, rfl, rfl⟩ := h
        exact .readChild hpending hread

namespace Steps

theorem kind (h : Steps c roots w w' roots' key?) : w'.kind = w.kind := by cases h <;> rfl

theorem roots_eq (h : Steps c roots w w' roots' key?) (hw : ∀ l, w ≠ .roots l) :
    roots' = roots := by
  cases h with
  | routeRoot | routeChild | readChild => rfl
  | readRoot => exact absurd rfl (hw _)

theorem sound (h : Steps c roots w w' roots' key?) (hs : w.Sound roots c) (hup : w.KeepsUp c) :
    w'.Sound roots' c := by
  cases h with
  | routeRoot pending => exact Loop.Sound.route hs pending
  | readRoot _ read => exact (Loop.Sound.read hs hup read).2.2.2
  | routeChild pending => exact Loop.Sound.route hs pending
  | readChild _ read => exact (Loop.Sound.read hs hup read).2.2.2

theorem owesRoot (h : Steps c roots w w' roots' key?) (hs : w.Sound roots c) (hup : w.KeepsUp c)
    (howes : w.OwesRoot c p) : w'.OwesRoot c p ∨ key? = some p.key := by
  cases h with
  | routeRoot pending => exact Loop.Owes.route howes pending
  | readRoot pending read => exact .inl (Loop.Owes.read howes hs hup pending read)
  | routeChild | readChild => exact howes.elim

/-- The key of the owner is added if its installation is cached. -/
theorem owesChild (h : Steps c roots w w' roots' key?) (hs : w.Sound roots c) (hup : w.KeepsUp c)
    (hroot : root.Named p) (hcached : roots.get? p.ns p.name = some root)
    (howes : w.OwesChild c root) : w'.OwesChild c root ∨ key? = some p.key := by
  cases h with
  | routeRoot | readRoot => exact howes.elim
  | routeChild pending =>
    obtain ⟨hk, howes⟩ := howes
    rcases Loop.Owes.route howes pending with howes | ⟨o, hsubject, ho⟩
    · exact .inl ⟨hk, howes⟩
    · right
      rw [Router.keyOfChild?, hsubject, Option.bind_some, ho.ownerKey? hroot hcached]
  | readChild pending read =>
    obtain ⟨hk, howes⟩ := howes
    exact .inl ⟨hk, Loop.Owes.read howes hs hup pending read⟩

end Steps

theorem Sound.gentle (hc : Proper c) (h : w.Sound roots c) (hg : Gentle c c') :
    w.Sound roots c' := by
  cases w with
  | roots l => exact Loop.Sound.gentle hc h hg
  | children k l cache => exact Loop.Sound.gentle hc h hg

theorem OwesRoot.gentle (h : w.OwesRoot c p) (hs : w.Sound roots c) (hc : Proper c)
    (hg : Gentle c c') : w.OwesRoot c' p := by
  cases w with
  | roots l => exact Loop.Owes.gentle h hs hc hg
  | children k l cache => exact h.elim

theorem OwesChild.gentle (h : w.OwesChild c root) (hs : w.Sound roots c) (hc : Proper c)
    (hg : Gentle c c') : w.OwesChild c' root := by
  cases w with
  | roots l => exact h.elim
  | children k l cache =>
    obtain ⟨hk, howes⟩ := h
    exact ⟨hk, howes.gentle hs hc hg⟩

theorem Sound.opened (hc : Proper c) (h : w.Sound roots c) (hopen : w.open? c = some w') :
    w'.Sound roots c ∧ w'.kind = w.kind ∧
      (∀ l, w = .roots l → (∃ l', w' = .roots l') ∧
        ∀ p root, c.find? .submarine p = some root → w'.OwesRoot c p) := by
  cases w with
  | roots l =>
    obtain ⟨l', hl, rfl⟩ := Option.map_eq_some_iff.1 hopen
    obtain ⟨hsound, hlisted⟩ := Loop.Sound.opened hc h hl
    refine ⟨hsound, rfl, fun _ _ ↦ ⟨⟨l', rfl⟩, fun p root hfind ↦ ?_⟩⟩
    exact .inr (.inr ⟨_, hlisted p root hfind, root, rfl, hc.named hfind⟩)
  | children k l cache =>
    obtain ⟨l', hl, rfl⟩ := Option.map_eq_some_iff.1 hopen
    refine ⟨(Loop.Sound.opened hc h hl).1, rfl, fun _ hw ↦ ?_⟩
    contradiction

theorem OwesChild.opened (h : w.OwesChild c root) (hs : w.Sound roots c) (hc : Proper c)
    (hkept : ¬ c.HasRemoved w.kind) (hopen : w.open? c = some w') : w'.OwesChild c root := by
  cases w with
  | roots l => exact h.elim
  | children k l cache =>
    obtain ⟨l', hl, rfl⟩ := Option.map_eq_some_iff.1 hopen
    obtain ⟨hk, howes⟩ := h
    exact ⟨hk, howes.opened hs hc hkept hl⟩

end Watcher

theorem getElem?_set_of_some {α : Type} {xs : List α} {i : Nat} {x : α} (h : xs[i]? = some x)
    (y : α) (j : Nat) : (xs.set i y)[j]? = if i = j then some y else xs[j]? := by
  rw [List.getElem?_set']
  split
  · next hij => rw [← hij, h]; rfl
  · rfl

theorem getElem?_set_self_of_some {α : Type} {xs : List α} {i : Nat} {x : α} (h : xs[i]? = some x)
    (y : α) : (xs.set i y)[i]? = some y :=
  List.getElem?_set_self (List.getElem?_eq_some_iff.1 h).1

/-- What is true of some entry is true of the one at the index, or of one that stays. -/
theorem self_or_exists_getElem?_set {α : Type} {Q : α → Prop} {xs : List α} {i : Nat} {x : α}
    (hx : xs[i]? = some x) (h : ∃ (j : Nat) (z : α), xs[j]? = some z ∧ Q z) :
    Q x ∨ ∀ y, ∃ (j : Nat) (z : α), (xs.set i y)[j]? = some z ∧ Q z := by
  obtain ⟨j, z, hz, hq⟩ := h
  by_cases hij : i = j
  · subst hij
    obtain rfl := Option.some.inj (hx.symm.trans hz)
    exact .inl hq
  · exact .inr fun y ↦ ⟨j, z, (List.getElem?_set_ne hij).trans hz, hq⟩

namespace Watchers

variable {s s' : Watchers} {world : World}

structure Sound (s : Watchers) : Prop where
  first : ∃ l, s.watchers[0]? = some (.roots l)
  kinds : s.watchers.map Watcher.kind = .submarine :: childKinds
  sound : ∀ {i : Nat} {w : Watcher}, s.watchers[i]? = some w →
    w.Sound s.world.roots s.world.cluster

def KeepsUp (s : Watchers) : Prop := ∀ w ∈ s.watchers, w.KeepsUp s.world.cluster

def AreDry (s : Watchers) : Prop := ∀ w ∈ s.watchers, w.IsDry s.world.cluster

instance (s : Watchers) : Decidable s.AreDry :=
  inferInstanceAs (Decidable (∀ w ∈ s.watchers, w.IsDry s.world.cluster))

def OwesRoot (s : Watchers) (p : Place) : Prop :=
  ∃ (i : Nat) (w : Watcher), s.watchers[i]? = some w ∧ w.OwesRoot s.world.cluster p

def OwesChild (s : Watchers) (root : Root) : Prop :=
  ∃ (i : Nat) (w : Watcher), s.watchers[i]? = some w ∧ w.OwesChild s.world.cluster root

def open? (s : Watchers) (i : Nat) : Option Watchers := do
  let w ← s.watchers[i]?
  let w ← w.open? s.world.cluster
  return { s with watchers := s.watchers.set i w }

theorem step?_eq_some (h : s.step? i = some s') :
    ∃ w w' roots key?, s.watchers[i]? = some w ∧
      Watcher.Steps s.world.cluster s.world.roots w w' roots key? ∧
      s' = { world := { s.world with roots }, watchers := s.watchers.set i w',
             work := match key? with
               | some key => s.work.add key
               | none => s.work } := by
  obtain ⟨w, hw, h⟩ := Option.bind_eq_some_iff.1 h
  obtain ⟨⟨w', roots, key?⟩, hstep, h⟩ := Option.bind_eq_some_iff.1 h
  exact ⟨w, w', roots, key?, hw, Watcher.steps_of_step? hstep, (Option.some.inj h).symm⟩

theorem open?_eq_some (h : s.open? i = some s') :
    ∃ w w', s.watchers[i]? = some w ∧ w.open? s.world.cluster = some w' ∧
      s' = { s with watchers := s.watchers.set i w' } := by
  obtain ⟨w, hw, h⟩ := Option.bind_eq_some_iff.1 h
  obtain ⟨w', hopen, h⟩ := Option.bind_eq_some_iff.1 h
  exact ⟨w, w', hw, hopen, (Option.some.inj h).symm⟩

theorem map_kind_set {w w' : Watcher} (hw : s.watchers[i]? = some w) (hkind : w'.kind = w.kind) :
    (s.watchers.set i w').map Watcher.kind = s.watchers.map Watcher.kind := by
  refine List.ext_getElem? fun j ↦ ?_
  rw [List.getElem?_map, getElem?_set_of_some hw, List.getElem?_map]
  split
  · next hij => rw [← hij, hw, Option.map_some, Option.map_some, hkind]
  · rfl

namespace Sound

theorem ne_roots {j : Nat} {w : Watcher} {l : Loop .submarine} (h : s.Sound)
    (hi : s.watchers[i]? = some (.roots l)) (hj : s.watchers[j]? = some w) (hij : i ≠ j) :
    ∀ l', w ≠ .roots l' := by
  rintro l' rfl
  have hnodup : (s.watchers.map Watcher.kind).Nodup := by
    rw [h.kinds]
    decide
  have hlt : i < (s.watchers.map Watcher.kind).length := by
    rw [List.length_map]
    exact (List.getElem?_eq_some_iff.1 hi).1
  refine hij ((List.getElem?_inj hlt hnodup).1 ?_)
  rw [List.getElem?_map, List.getElem?_map, hi, hj]
  rfl

theorem exists_children (h : s.Sound) (hk : k ∈ childKinds) :
    ∃ (i : Nat) (l : Loop k) (cache : Cache k), s.watchers[i]? = some (Watcher.children k l cache) := by
  have hmem : k ∈ s.watchers.map Watcher.kind := by
    rw [h.kinds]
    exact List.mem_cons_of_mem _ hk
  obtain ⟨w, hw, rfl⟩ := List.mem_map.1 hmem
  obtain ⟨i, hi⟩ := List.getElem?_of_mem hw
  cases w with
  | roots l =>
    have hnone : Kind.submarine ∉ childKinds := by decide
    exact absurd hk hnone
  | children k l cache => exact ⟨i, l, cache, hi⟩

/-- One watcher goes over to another state. The others stay sound if the cache of installations does
not change, or if it changes under its own loop: there is no other. -/
theorem set {w w' : Watcher} {roots : Cache .submarine} {work : WorkQueue} (h : s.Sound)
    (hw : s.watchers[i]? = some w) (hkind : w'.kind = w.kind)
    (hfirst : ∀ l, w = .roots l → ∃ l', w' = .roots l')
    (hroots : (∀ l, w ≠ .roots l) → roots = s.world.roots)
    (hsound : w'.Sound roots s.world.cluster) :
    Sound { world := { s.world with roots }, watchers := s.watchers.set i w', work } where
  first := by
    obtain ⟨l, hl⟩ := h.first
    dsimp only
    rw [getElem?_set_of_some hw]
    split
    · next hi =>
      subst hi
      obtain rfl := Option.some.inj (hl.symm.trans hw)
      obtain ⟨l', rfl⟩ := hfirst l rfl
      exact ⟨l', rfl⟩
    · exact ⟨l, hl⟩
  kinds := (map_kind_set hw hkind).trans h.kinds
  sound {j v} hv := by
    dsimp only at hv ⊢
    rw [getElem?_set_of_some hw] at hv
    split at hv
    · obtain rfl := Option.some.inj hv
      exact hsound
    · next hij =>
      by_cases hw' : ∃ l, w = .roots l
      · obtain ⟨l, rfl⟩ := hw'
        cases v with
        | roots l' => exact absurd rfl (h.ne_roots hw hv hij l')
        | children k l' cache => exact h.sound hv
      · rw [hroots (not_exists.1 hw')]
        exact h.sound hv

theorem step (h : s.Sound) (hup : s.KeepsUp) (hs : s.step? i = some s') : s'.Sound := by
  obtain ⟨w, w', roots, key?, hw, hsteps, rfl⟩ := step?_eq_some hs
  refine h.set hw hsteps.kind ?_ hsteps.roots_eq
    (hsteps.sound (h.sound hw) (hup w (List.mem_of_getElem? hw)))
  rintro l rfl
  cases hsteps with
  | routeRoot | readRoot => exact ⟨_, rfl⟩

theorem opened (h : s.Sound) (hc : Proper s.world.cluster) (hs : s.open? i = some s') :
    s'.Sound := by
  obtain ⟨w, w', hw, hopen, rfl⟩ := open?_eq_some hs
  obtain ⟨hsound, hkind, hfirst⟩ := (h.sound hw).opened hc hopen
  exact h.set hw hkind (fun l hl ↦ (hfirst l hl).1) (fun _ ↦ rfl) hsound

theorem gentle (h : s.Sound) (hc : Proper s.world.cluster)
    (hg : Gentle s.world.cluster world.cluster) (hroots : world.roots = s.world.roots) :
    Sound { s with world } where
  first := h.first
  kinds := h.kinds
  sound hw := by
    rw [hroots]
    exact (h.sound hw).gentle hc hg

theorem owesChild_of_stored {o : Object k} (h : s.Sound) (hk : k ∈ childKinds)
    (ho : o.IsChildOf root) (hfind : world.cluster.find? k p = some o)
    (hlog : world.cluster.log = s.world.cluster.log ++ [⟨⟨k, o⟩, false⟩]) :
    OwesChild { s with world } root := by
  obtain ⟨i, l, cache, hi⟩ := h.exists_children hk
  have howes : l.Owes world.cluster (.ofChild hk root) :=
    Loop.Sound.owes_of_stored (h.sound hi) hfind hlog ⟨o, rfl, ho⟩ ⟨o, rfl, ho⟩
  exact ⟨i, _, hi, hk, howes⟩

theorem owesChild_of_removed {o : Object k} (h : s.Sound) (hk : k ∈ childKinds)
    (ho : o.IsChildOf root)
    (hlog : world.cluster.log = s.world.cluster.log ++ [⟨⟨k, o⟩, true⟩]) :
    OwesChild { s with world } root := by
  obtain ⟨i, l, cache, hi⟩ := h.exists_children hk
  have howes : l.Owes world.cluster (.ofChild hk root) :=
    Loop.Sound.owes_of_removed (h.sound hi) hlog ⟨o, rfl, ho⟩
  exact ⟨i, _, hi, hk, howes⟩

/-- What is stored as an installation was stored before, or its key is owed. -/
theorem root_cases (h : s.Sound) (hg : Gentle s.world.cluster world.cluster)
    (hfind : world.cluster.find? .submarine p = some root) :
    s.world.cluster.find? .submarine p = some root ∨ OwesRoot { s with world } p := by
  cases hg with
  | unchanged same =>
    left
    rwa [← same.find?]
  | @stores j q o named _ stores =>
    by_cases hself : Kind.submarine = j ∧ p = q
    · obtain ⟨rfl, rfl⟩ := hself
      obtain ⟨l, hl⟩ := h.first
      have hnamed : (o.withVersion (s.world.cluster.version + 1)).Named p :=
        named.congr rfl rfl named.uid
      refine .inr ⟨0, _, hl, ?_⟩
      exact Loop.Sound.owes_of_stored (h.sound hl) stores.find?_self stores.log ⟨_, rfl, hnamed⟩
        ⟨_, rfl, hnamed⟩
    · left
      rwa [← stores.find?_of_ne _ _ hself]
  | removes q o removes => exact .inl (removes.find?_of_some hfind)

/-- A child that stood stands still, or it has changed and the key of its root is owed. -/
theorem stands_or_owes {child : AnyChild} {o : Object child.kind} (h : s.Sound)
    (hc : Proper s.world.cluster) (hg : Gentle s.world.cluster world.cluster)
    (hchild : child ∈ plan root)
    (hstands : Settlement.Stands ⟨child, o⟩ root s.world.cluster) :
    Settlement.Stands ⟨child, o⟩ root world.cluster ∨ OwesChild { s with world } root := by
  obtain ⟨ns, hns, hfind, hcontrolled, hagrees⟩ := hstands
  have hkind := Plan.kind_mem_childKinds hchild
  cases hg with
  | unchanged same => exact .inl ⟨ns, hns, by rwa [same.find?], hcontrolled, hagrees⟩
  | @stores j q o' named keeps stores =>
    by_cases hself : child.kind = j ∧ ⟨ns, child.child.name⟩ = q
    · obtain ⟨rfl, rfl⟩ := hself
      refine .inr (h.owesChild_of_stored hkind ⟨?_, ?_⟩ stores.find?_self stores.log)
      · exact (keeps hkind o hfind).isControlledBy hcontrolled
      · exact named.ns.trans hns.symm
    · exact .inl ⟨ns, hns, (stores.find?_of_ne _ _ hself).trans hfind, hcontrolled, hagrees⟩
  | @removes j q o' removes =>
    by_cases hself : child.kind = j ∧ ⟨ns, child.child.name⟩ = q
    · obtain ⟨rfl, rfl⟩ := hself
      obtain rfl := Option.some.inj (hfind.symm.trans removes.find?_old)
      refine .inr (h.owesChild_of_removed hkind ⟨hcontrolled, ?_⟩ removes.log)
      exact (hc.named hfind).ns.trans hns.symm
    · exact .inl ⟨ns, hns, (removes.find?_of_ne _ _ hself).trans hfind, hcontrolled, hagrees⟩

end Sound

namespace OwesRoot

theorem gentle (h : s.OwesRoot p) (hs : s.Sound) (hc : Proper s.world.cluster)
    (hg : Gentle s.world.cluster world.cluster) : OwesRoot { s with world } p := by
  obtain ⟨i, w, hw, howes⟩ := h
  exact ⟨i, w, hw, howes.gentle (hs.sound hw) hc hg⟩

theorem step (h : s.OwesRoot p) (hs : s.Sound) (hup : s.KeepsUp)
    (hopen : s.work.queue.isShutDown = false) (hstep : s.step? i = some s') :
    s'.OwesRoot p ∨ s'.work.Wants p.key := by
  obtain ⟨w, w', roots, key?, hw, hsteps, rfl⟩ := step?_eq_some hstep
  rcases self_or_exists_getElem?_set hw h with howes | hothers
  · rcases hsteps.owesRoot (hs.sound hw) (hup w (List.mem_of_getElem? hw)) howes with howes' | hkey
    · exact .inl ⟨i, w', getElem?_set_self_of_some hw w', howes'⟩
    · rw [hkey]
      exact .inr (WorkQueue.wants_add hopen p.key)
  · exact .inl (hothers w')

theorem opened (h : s.OwesRoot p) (hs : s.Sound) (hc : Proper s.world.cluster)
    (hfind : s.world.cluster.find? .submarine p = some root) (hopen : s.open? i = some s') :
    s'.OwesRoot p := by
  obtain ⟨w, w', hw, hopen, rfl⟩ := open?_eq_some hopen
  rcases self_or_exists_getElem?_set hw h with howes | hothers
  · cases w with
    | children => exact howes.elim
    | roots l =>
      obtain ⟨-, -, hroots⟩ := (hs.sound hw).opened hc hopen
      exact ⟨i, w', getElem?_set_self_of_some hw w', (hroots l rfl).2 p root hfind⟩
  · exact hothers w'

end OwesRoot

namespace OwesChild

theorem gentle (h : s.OwesChild root) (hs : s.Sound) (hc : Proper s.world.cluster)
    (hg : Gentle s.world.cluster world.cluster) : OwesChild { s with world } root := by
  obtain ⟨i, w, hw, howes⟩ := h
  exact ⟨i, w, hw, howes.gentle (hs.sound hw) hc hg⟩

/-- A change of a child is dropped only if its root is not cached as it is stored, and then the key
of the root is owed by the loop of installations. -/
theorem step (h : s.OwesChild root) (hs : s.Sound) (hup : s.KeepsUp)
    (hc : Proper s.world.cluster) (hfind : s.world.cluster.find? .submarine p = some root)
    (hopen : s.work.queue.isShutDown = false) (hstep : s.step? i = some s') :
    s'.OwesChild root ∨ s'.OwesRoot p ∨ s'.work.Wants p.key := by
  obtain ⟨l, hl⟩ := hs.first
  rcases Loop.Sound.cached_or_owes hc (hs.sound hl) hfind with hcached | howes
  · obtain ⟨w, w', roots, key?, hw, hsteps, rfl⟩ := step?_eq_some hstep
    rcases self_or_exists_getElem?_set hw h with howes | hothers
    · rcases hsteps.owesChild (hs.sound hw) (hup w (List.mem_of_getElem? hw)) (hc.named hfind)
        hcached howes with howes' | hkey
      · exact .inl ⟨i, w', getElem?_set_self_of_some hw w', howes'⟩
      · rw [hkey]
        exact .inr (.inr (WorkQueue.wants_add hopen p.key))
    · exact .inl (hothers w')
  · have hroot : s.OwesRoot p := ⟨0, _, hl, howes⟩
    exact .inr (hroot.step hs hup hopen hstep)

theorem opened (h : s.OwesChild root) (hs : s.Sound) (hc : Proper s.world.cluster)
    (hkept : ∀ w, s.watchers[i]? = some w → ¬ s.world.cluster.HasRemoved w.kind)
    (hopen : s.open? i = some s') : s'.OwesChild root := by
  obtain ⟨w, w', hw, hopened, rfl⟩ := open?_eq_some hopen
  rcases self_or_exists_getElem?_set hw h with howes | hothers
  · exact ⟨i, w', getElem?_set_self_of_some hw w',
      howes.opened (hs.sound hw) hc (hkept w hw) hopened⟩
  · exact hothers w'

end OwesChild

end Watchers

end Submarine
