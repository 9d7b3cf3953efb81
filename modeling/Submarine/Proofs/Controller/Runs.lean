import Submarine.Controller.Schedule
import Submarine.Proofs.Controller.Steps

namespace Submarine

variable {i : Nat}

namespace Controller

variable {s s' : Controller}

def start (settings : Settings) (clock : Time.Instant) : Controller :=
  .new settings (.new .empty clock) fun _ ↦ ⟨[], .silent⟩

/-- What can happen next, inside the controller and outside. -/
inductive Move where
  | act (action : Action)
  | connect (loop : Nat)
  | operate (op : Cluster.Operation)
  -- One more read of the kind is to break off.
  | crash (k : Kind)
  | setClock (clock : Time.Instant)
  | wait (span : Nat)
  | requestShutdown

def move? (s : Controller) : Move → Option Controller
  | .act a => s.step? a
  | .connect i => (s.watching.open? i).map fun watching ↦ { s with watching }
  | .operate op => some (s.withWorld { s.world with cluster := s.world.cluster.perform op })
  | .crash k => some (s.withWorld
      { s.world with crashes := fun j ↦ s.world.crashes j + if j = k then 1 else 0 })
  | .setClock clock => some (s.withWorld { s.world with clock })
  | .wait span => some (s.withWork { s.work with now := s.work.now + span })
  | .requestShutdown => some s.requestShutdown

def Move.Allowed (m : Move) (s : Controller) : Prop :=
  match m with
  | .operate op => op.Polite s.world.cluster
  | .act _ | .connect _ | .crash _ | .setClock _ | .wait _ | .requestShutdown => True

/-- The events that a loop of the kind will never be delivered if it opens its stream now: its
listing has what is there, but nothing of what is gone. -/
def undelivered (s : Controller) (k : Kind) : List Change :=
  s.world.cluster.log.filter fun change ↦ change.isRemoval ∧ change.object.kind = k

/-- What the move keeps from being delivered. Until the workers start nobody has seen any object, so
that no removal has to be told. -/
def Move.misses (m : Move) (s : Controller) : List Change :=
  match m with
  | .connect i =>
    if s.phase = .syncing then []
    else (s.watching.watchers[i]?.map fun w ↦ s.undelivered w.kind).getD []
  | .act _ | .operate _ | .crash _ | .setClock _ | .wait _ | .requestShutdown => []

/-- The states that runs lead to in which no reader falls too far behind, with the events that were
missed, as they came before the loop of their kind had opened its stream. -/
inductive Reaches (settings : Settings) (clock : Time.Instant) : List Change → Controller → Prop where
  | start : Reaches settings clock [] (start settings clock)
  | move {missed : List Change} {s s' : Controller} (m : Move) (h : Reaches settings clock missed s)
      (allowed : m.Allowed s) (moves : s.move? m = some s') (keepsUp : s'.watching.KeepsUp) :
      Reaches settings clock (missed ++ m.misses s) s'

theorem steady_start (settings : Settings) (clock : Time.Instant) :
    (start settings clock).Steady where
  proper := .empty
  watching := by
    refine ⟨⟨_, rfl⟩, rfl, fun {j w} hw ↦ ?_⟩
    rcases List.mem_cons.1 (List.mem_of_getElem? hw) with rfl | hw
    · exact .silent rfl rfl rfl fun _ ↦ rfl
    · obtain ⟨k, -, rfl⟩ := List.mem_map.1 hw
      exact .silent rfl rfl rfl fun _ ↦ rfl
  accounted := .empty
  working hw := by contradiction
  waiting _ := rfl
  attended _ p root hdeclares := by
    have hnothing : Cluster.empty.find? .submarine p = none := rfl
    exact absurd (hdeclares.stored.symm.trans hnothing) (by simp)

theorem not_hasRemoved {k : Kind} (h : s.undelivered k = []) : ¬ s.world.cluster.HasRemoved k := by
  rintro ⟨o, ho⟩
  exact List.filter_eq_nil_iff.1 h _ ho (by simp)

theorem Steady.move {m : Move} (h : s.Steady) (hup : s.watching.KeepsUp) (hm : m.Allowed s)
    (hmisses : m.misses s = []) (hmove : s.move? m = some s') : s'.Steady := by
  cases m with
  | act a => exact h.step? hup hmove
  | connect i =>
    obtain ⟨watching, hopened, rfl⟩ := Option.map_eq_some_iff.1 hmove
    refine h.opened ?_ hopened
    by_cases hphase : s.phase = .syncing
    · exact .inl hphase
    · refine .inr fun w hw ↦ not_hasRemoved ?_
      simpa [Move.misses, hphase, hw] using hmisses
  | operate op =>
    obtain rfl := Option.some.inj hmove
    exact h.operate (.perform h.proper hm)
  | crash k =>
    obtain rfl := Option.some.inj hmove
    exact h.withWorld rfl rfl
  | setClock clock =>
    obtain rfl := Option.some.inj hmove
    exact h.withWorld rfl rfl
  | wait span =>
    obtain rfl := Option.some.inj hmove
    exact h.withWork h.accounted id fun _ _ ↦ id
  | requestShutdown =>
    obtain rfl := Option.some.inj hmove
    exact ⟨⟨h.proper, h.watching, h.accounted, h.working, h.waiting⟩,
      fun hopen p root hdeclares ↦ (h.attended hopen hdeclares).frame rfl rfl id id id⟩

variable {settings : Settings} {clock : Time.Instant} {missed : List Change}

theorem Reaches.steady (h : Reaches settings clock missed s) (hmissed : missed = []) :
    s.Steady ∧ s.watching.KeepsUp := by
  induction h with
  | start =>
    refine ⟨steady_start settings clock, fun w hw ↦ ?_⟩
    rcases List.mem_cons.1 hw with rfl | hw
    · trivial
    · obtain ⟨k, -, rfl⟩ := List.mem_map.1 hw
      trivial
  | move m _ allowed moves keepsUp ih =>
    obtain ⟨hbefore, hmisses⟩ := List.append_eq_nil_iff.1 hmissed
    obtain ⟨hsteady, hup⟩ := ih hbefore
    exact ⟨hsteady.move hup allowed hmisses moves, keepsUp⟩

/-- The cache is filled, the loops have read and routed all that their streams hold, no key waits or
is held, no timer runs, and the queue is open. -/
structure Quiescent (s : Controller) : Prop where
  synced : s.world.roots.synced
  dry : s.watching.AreDry
  ready : s.work.queue.ready = []
  held : s.work.queue.held = []
  timers : s.work.timers = []
  isOpen : s.work.queue.isShutDown = false

instance (s : Controller) : Decidable s.Quiescent :=
  decidable_of_iff (s.world.roots.synced ∧ s.watching.AreDry ∧ s.work.queue.ready = [] ∧
      s.work.queue.held = [] ∧ s.work.timers.isEmpty ∧ s.work.queue.isShutDown = false) <| by
    refine ⟨fun ⟨synced, dry, ready, held, timers, isOpen⟩ ↦
      ⟨synced, dry, ready, held, List.isEmpty_iff.1 timers, isOpen⟩, fun h ↦ ?_⟩
    exact ⟨h.synced, h.dry, h.ready, h.held, List.isEmpty_iff.2 h.timers, h.isOpen⟩

section Schedule

theorem keepsUp_of_short (h : s.world.cluster.log.length ≤ Cluster.backlog) :
    s.watching.KeepsUp := by
  have hwatch {k : Kind} (w : Watch k) : w.KeepsUp s.world.cluster := Nat.le_add_left_of_le h
  have hloop {k : Kind} (l : Loop k) : l.KeepsUp s.world.cluster := by
    unfold Loop.KeepsUp
    split
    · exact hwatch _
    · trivial
    · trivial
  intro w _
  cases w with
  | roots l => exact hloop l
  | children k l cache => exact hloop l

/-- Follows the schedule until all is at rest; none if that takes more steps, or if a reader could
fall too far behind. -/
def restWithin? : Nat → Controller → Option Controller
  | 0, _ => none
  | fuel + 1, s =>
    match s.next? with
    | some s =>
      if s.world.cluster.log.length ≤ Cluster.backlog then s.restWithin? fuel else none
    | none => some s

theorem Reaches.act {a : Action} (h : Reaches settings clock missed s) (ha : s.step? a = some s')
    (hshort : s'.world.cluster.log.length ≤ Cluster.backlog) : Reaches settings clock missed s' := by
  have hmove := h.move (.act a) trivial ha (keepsUp_of_short hshort)
  rwa [show Move.misses (.act a) s = [] from rfl, List.append_nil] at hmove

theorem Reaches.operate (op : Cluster.Operation) (h : Reaches settings clock missed s)
    (hpolite : op.Polite s.world.cluster)
    (hshort : (s.world.cluster.perform op).log.length ≤ Cluster.backlog) :
    Reaches settings clock missed
      (s.withWorld { s.world with cluster := s.world.cluster.perform op }) := by
  have hmove := h.move (.operate op) hpolite rfl (keepsUp_of_short hshort)
  rwa [show Move.misses (.operate op) s = [] from rfl, List.append_nil] at hmove

theorem Reaches.restWithin? {fuel : Nat} (h : Reaches settings clock missed s)
    (hs : s.restWithin? fuel = some s') : Reaches settings clock missed s' := by
  induction fuel generalizing s with
  | zero => contradiction
  | succ fuel ih =>
    unfold Controller.restWithin? at hs
    split at hs
    · next next hnext =>
      split at hs
      · next hshort =>
        obtain ⟨a, -, ha⟩ := List.exists_of_findSome?_eq_some hnext
        exact ih (h.act ha hshort) hs
      · contradiction
    · exact Option.some.inj hs ▸ h

theorem Reaches.connectAll {loops : List Nat} (h : Reaches settings clock missed s)
    (hphase : s.phase = .syncing) (hshort : s.world.cluster.log.length ≤ Cluster.backlog)
    (hs : loops.foldlM (fun s i ↦ s.move? (.connect i)) s = some s') :
    Reaches settings clock missed s' := by
  induction loops generalizing s with
  | nil => exact Option.some.inj hs ▸ h
  | cons i rest ih =>
    obtain ⟨t, hmove, hrest⟩ := Option.bind_eq_some_iff.1 hs
    obtain ⟨watching, hopened, rfl⟩ := Option.map_eq_some_iff.1 hmove
    obtain ⟨w, w', -, -, rfl⟩ := Watchers.open?_eq_some hopened
    have hconnected := h.move (.connect i) trivial hmove (keepsUp_of_short hshort)
    rw [Move.misses, if_pos hphase, List.append_nil] at hconnected
    exact ih hconnected hphase hshort hrest

theorem polite_insert {k : Kind} {c : Cluster} {o : Object k} {p : Place} (hplace : o.place = .ok p)
    (hkeyed : p.IsKeyed) (hfree : c.find? k p = none) : Cluster.Operation.Polite c (.insert k o) := by
  intro q hq
  obtain rfl := Except.ok.inj (hplace.symm.trans hq)
  refine ⟨hkeyed, fun _ old hold ↦ ?_⟩
  rw [hfree] at hold
  contradiction

def lacksChild (s : Controller) (ns : String) (root : Root) : Bool :=
  (plan root).any fun child ↦ (s.world.cluster.find? child.kind ⟨ns, child.child.name⟩).isNone

theorem exists_of_lacksChild {ns : String} {root : Root} (h : s.lacksChild ns root) :
    ∃ child ∈ plan root, s.world.cluster.find? child.kind ⟨ns, child.child.name⟩ = none := by
  obtain ⟨child, hchild, hmissing⟩ := List.any_eq_true.1 h
  exact ⟨child, hchild, Option.isNone_iff_eq_none.1 hmissing⟩

/-- What a run comes to is checked by evaluation: that it is at rest, with an installation that
declares this. -/
theorem exists_quiescent_of_any {o : Option Controller} {p : Place} {spec : InstallationSpec}
    {check : Controller → Root → Bool}
    (h : (o.any fun s ↦ decide s.Quiescent && (s.world.cluster.find? .submarine p).any fun root ↦
      decide (Root.spec root = spec ∧ root.metadata.deletionTimestamp = none) &&
        check s root) = true)
    (hvalid : spec.validate = .ok ()) :
    ∃ s root, o = some s ∧ s.Quiescent ∧ s.world.cluster.Declares p root ∧ Root.spec root = spec ∧
      check s root := by
  obtain ⟨s, hs, h⟩ := (Option.any_eq_true _ _).1 h
  obtain ⟨hquiet, h⟩ := (Bool.and_eq_true _ _).mp h
  obtain ⟨root, hstored, h⟩ := (Option.any_eq_true _ _).1 h
  obtain ⟨hroot, hcheck⟩ := (Bool.and_eq_true _ _).mp h
  obtain ⟨hspec, hstays⟩ := of_decide_eq_true hroot
  exact ⟨s, root, hs, of_decide_eq_true hquiet, ⟨hstored, hspec.symm ▸ hvalid, hstays⟩, hspec,
    hcheck⟩

def sampleCluster : Cluster := Cluster.empty.perform (.insert .submarine Root.sample)

def sampleQuiet : Option Controller :=
  (Controller.new {} (.new sampleCluster ⟨0, 0⟩) (.live · sampleCluster)).restWithin? 300

def driftedQuiet (closed : List Nat) : Option Controller :=
  (((List.range 11).filter (· ∉ closed)).foldlM (fun s i ↦ move? s (.connect i))
    (new {} (.new Cluster.drifted ⟨0, 0⟩) fun _ ↦ ⟨[], .silent⟩)).bind (·.restWithin? 400)

theorem reaches_driftedQuiet {closed : List Nat} (h : driftedQuiet closed = some s) :
    Reaches {} ⟨0, 0⟩ [] s := by
  obtain ⟨opened, hopened, hrest⟩ := Option.bind_eq_some_iff.1 h
  have hshort : Cluster.drifted.log.length ≤ Cluster.backlog := by decide +kernel
  have hroot : Reaches {} ⟨0, 0⟩ [] _ := Reaches.start.operate
    (.insert .submarine Root.sampleWithBoard)
    (polite_insert rfl ⟨by decide, by decide, by decide, by decide⟩ rfl) (by decide +kernel)
  have hservice : Reaches {} ⟨0, 0⟩ [] _ := hroot.operate
    (.insert .service (Root.driftedService "submarine-tensorboard-service"))
    (polite_insert rfl ⟨by decide, by decide, by decide, by decide⟩ rfl) hshort
  exact (hservice.connectAll rfl hshort hopened).restWithin? hrest

end Schedule

def removeRoute : Cluster.Operation :=
  .remove .ingressRoute ⟨"default", "submarine-tensorboard-ingressroute"⟩

def bereftByLateLoop : Option Controller :=
  (driftedQuiet [10]).bind fun s ↦
    (s.withWorld { s.world with cluster := s.world.cluster.perform removeRoute }).move? (.connect 10)

/-- Of a deletion that came before the loop opened its stream nobody is told: all comes to rest
without the child. -/
theorem not_converged_of_missed :
    ∃ missed s, Reaches {} ⟨0, 0⟩ missed s ∧ s.Quiescent ∧ ∃ root : Root,
      s.world.cluster.Declares ⟨"default", "demo"⟩ root ∧ ∃ child ∈ plan root,
        s.world.cluster.find? child.kind ⟨"default", child.child.name⟩ = none := by
  have hrun : (bereftByLateLoop.bind (·.restWithin? 40)).any (fun s ↦ decide s.Quiescent &&
      (s.world.cluster.find? .submarine ⟨"default", "demo"⟩).any fun root ↦
        decide (Root.spec root = Root.sampleWithBoard.spec ∧
          root.metadata.deletionTimestamp = none) && s.lacksChild "default" root) = true := by
    decide +kernel
  have hshort : (driftedQuiet [10]).all (fun s ↦
      decide ((s.world.cluster.perform removeRoute).log.length ≤ Cluster.backlog)) = true := by
    decide +kernel
  obtain ⟨s, root, hs, hquiet, hdeclares, -, hlacks⟩ := exists_quiescent_of_any hrun rfl
  obtain ⟨late, hlate, hrest⟩ := Option.bind_eq_some_iff.1 hs
  obtain ⟨quiet, hquieted, hconnect⟩ := Option.bind_eq_some_iff.1 hlate
  have hshort := of_decide_eq_true ((Option.all_eq_true _ _).1 hshort quiet hquieted)
  have hremoved := (reaches_driftedQuiet hquieted).operate removeRoute trivial hshort
  obtain ⟨watching, hopened, rfl⟩ := Option.map_eq_some_iff.1 hconnect
  obtain ⟨w, w', -, -, rfl⟩ := Watchers.open?_eq_some hopened
  have hlate := hremoved.move (.connect 10) trivial hconnect (keepsUp_of_short hshort)
  exact ⟨_, s, hlate.restWithin? hrest, hquiet, root, hdeclares, exists_of_lacksChild hlacks⟩

end Controller

end Submarine
