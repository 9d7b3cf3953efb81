import Submarine.Controller.Basic
import Submarine.Proofs.Controller.Watching
import Submarine.Proofs.Passes.Stepping

namespace Submarine

open Cluster (Proper Gentle)

variable {p : Place} {root : Root} {i : Nat}

def Worker.key? : Worker → Option String
  | .passing key _ | .releasing key => some key
  | .asking _ | .exited => none

def Worker.Sound (w : Worker) (c : Cluster) : Prop :=
  match w with
  | .passing key rest => rest = reconcile key ∨ ∃ root p seen, Object.Named (k := .submarine) root p ∧
      rest.Guarded root (plan root) seen c
  | .asking _ | .releasing _ | .exited => True

/-- A valid installation that is to stay. -/
structure Cluster.Declares (c : Cluster) (p : Place) (root : Root) : Prop where
  stored : c.find? .submarine p = some root
  valid : root.spec.validate = .ok ()
  stays : root.metadata.deletionTimestamp = none

def Upheld (met : AnyChild → Prop) (root : Root) (c : Cluster) : Prop :=
  ∀ child ∈ plan root, met child → ∃ o, Settlement.Stands ⟨child, o⟩ root c

theorem Upheld.gentle_or_owes {s : Watchers} {world : World} {met : AnyChild → Prop}
    (h : Upheld met root s.world.cluster) (hs : s.Sound) (hc : Proper s.world.cluster)
    (hg : Gentle s.world.cluster world.cluster) :
    Upheld met root world.cluster ∨ Watchers.OwesChild { s with world } root := by
  by_cases howes : Watchers.OwesChild { s with world } root
  · exact .inr howes
  · refine .inl fun child hchild hmet ↦ ?_
    obtain ⟨o, hstands⟩ := h child hchild hmet
    exact ⟨o, (hs.stands_or_owes hc hg hchild hstands).resolve_right howes⟩

namespace Controller

variable {s s' : Controller}

def Underway (s : Controller) (i : Nat) (p : Place) (root : Root) : Prop :=
  ∃ rest met seen, s.workers[i]? = some (.passing p.key rest) ∧
    rest.Guarded root (plan root) seen s.world.cluster ∧
      rest.Obeys (errand root) (fun met _ ↦ ∀ child ∈ plan root, met child) met ∧
        Upheld met root s.world.cluster

inductive Attended (s : Controller) (p : Place) (root : Root) : Prop where
  | wanted (h : s.work.Wants p.key)
  | changed (h : s.watching.OwesRoot p)
  | begun (i : Nat) (h : s.workers[i]? = some (.passing p.key (reconcile p.key)))
  | underway (i : Nat) (h : s.Underway i p root)
  | disturbed (phase : s.phase ≠ .syncing) (h : s.watching.OwesChild root)
  | settled (phase : s.phase ≠ .syncing) (h : Upheld (fun _ ↦ True) root s.world.cluster)

structure Sound (s : Controller) : Prop where
  proper : s.world.cluster.Proper
  watching : s.watching.Sound
  accounted : s.work.dispenser.Accounted (s.workers.filterMap Worker.key?)
  working : ∀ {i : Nat} {w : Worker}, s.workers[i]? = some w → w.Sound s.world.cluster
  waiting : s.phase = .syncing → s.workers = []

/-- What every state that can be reached satisfies. -/
structure Steady (s : Controller) : Prop extends Sound s where
  attended : s.work.queue.isShutDown = false → ∀ {p : Place} {root : Root},
    s.world.cluster.Declares p root → s.Attended p root

theorem Sound.phase_ne_syncing {w : Worker} (h : s.Sound) (hw : s.workers[i]? = some w) :
    s.phase ≠ .syncing := by
  intro hsyncing
  rw [h.waiting hsyncing] at hw
  contradiction

theorem Underway.transfer (h : s.Underway i p root) (hcluster : s'.world.cluster = s.world.cluster)
    (hworker : s'.workers[i]? = s.workers[i]?) : s'.Underway i p root := by
  unfold Underway
  rw [hcluster, hworker]
  exact h

/-- Nothing is lost by a step that concerns neither the cluster nor the watch loops, if it loses
neither the key nor the pass. -/
theorem Attended.transfer (h : s.Attended p root) (hcluster : s'.world.cluster = s.world.cluster)
    (hwatchers : s'.watching.watchers = s.watching.watchers)
    (hphase : s.phase ≠ .syncing → s'.phase ≠ .syncing)
    (hwanted : s.work.Wants p.key → s'.Attended p root)
    (hbegun : ∀ i : Nat, s.workers[i]? = some (.passing p.key (reconcile p.key)) →
      s'.Attended p root)
    (hunderway : ∀ i, s.Underway i p root → s'.Attended p root) : s'.Attended p root := by
  have hcluster' : s'.watching.world.cluster = s.watching.world.cluster := hcluster
  cases h with
  | wanted h => exact hwanted h
  | changed h =>
    refine .changed ?_
    unfold Watchers.OwesRoot
    rw [hcluster', hwatchers]
    exact h
  | begun i h => exact hbegun i h
  | underway i h => exact hunderway i h
  | disturbed phase h =>
    refine .disturbed (hphase phase) ?_
    unfold Watchers.OwesChild
    rw [hcluster', hwatchers]
    exact h
  | settled phase h =>
    refine .settled (hphase phase) ?_
    rw [hcluster]
    exact h

theorem Attended.frame (h : s.Attended p root) (hcluster : s'.world.cluster = s.world.cluster)
    (hwatchers : s'.watching.watchers = s.watching.watchers)
    (hphase : s.phase ≠ .syncing → s'.phase ≠ .syncing)
    (hworkers : ∀ {i : Nat} {w : Worker}, s.workers[i]? = some w → s'.workers[i]? = some w)
    (hwants : s.work.Wants p.key → s'.work.Wants p.key) : s'.Attended p root := by
  refine h.transfer hcluster hwatchers hphase (fun hw ↦ .wanted (hwants hw))
    (fun i hi ↦ .begun i (hworkers hi)) fun i hi ↦ .underway i ?_
  obtain ⟨rest, met, seen, hworker, -⟩ := id hi
  exact hi.transfer hcluster ((hworkers hworker).trans hworker.symm)

/-- A pass that a change of the cluster finds under way is under way still, or a child is owed. -/
theorem Underway.gentle {world : World} (h : s.Underway i p root) (hs : s.Sound)
    (hg : Gentle s.world.cluster world.cluster)
    (hwatching : s'.watching = { s.watching with world }) (hphase : s'.phase = s.phase)
    (hworker : s'.workers[i]? = s.workers[i]?) : s'.Attended p root := by
  obtain ⟨rest, met, seen, hi, hguarded, hobeys, hupheld⟩ := h
  have hcluster : s'.world.cluster = world.cluster := congrArg (fun t ↦ t.world.cluster) hwatching
  have hrunning : s'.phase ≠ .syncing := hphase ▸ hs.phase_ne_syncing hi
  rcases hupheld.gentle_or_owes hs.watching hs.proper hg with hupheld | howes
  · refine .underway i ⟨rest, met, seen, hworker.trans hi, ?_, hobeys, ?_⟩
    · rw [hcluster]
      exact hguarded.effect hg.effect
    · rw [hcluster]
      exact hupheld
  · refine .disturbed hrunning ?_
    rw [hwatching]
    exact howes

theorem Attended.gentle {world : World} (h : s.Attended p root) (hs : s.Sound)
    (hg : Gentle s.world.cluster world.cluster)
    (hwatching : s'.watching = { s.watching with world }) (hphase : s'.phase = s.phase)
    (hbegun : ∀ i : Nat, s.workers[i]? = some (.passing p.key (reconcile p.key)) →
      s'.Attended p root)
    (hunderway : ∀ i, s.Underway i p root → s'.Attended p root) : s'.Attended p root := by
  have hcluster : s'.world.cluster = world.cluster := congrArg (fun t ↦ t.world.cluster) hwatching
  cases h with
  | wanted h =>
    refine .wanted ?_
    rw [work, hwatching]
    exact h
  | changed h =>
    refine .changed ?_
    rw [hwatching]
    exact h.gentle hs.watching hs.proper hg
  | begun i h => exact hbegun i h
  | underway i h => exact hunderway i h
  | disturbed phase h =>
    refine .disturbed (hphase ▸ phase) ?_
    rw [hwatching]
    exact h.gentle hs.watching hs.proper hg
  | settled phase h =>
    rcases h.gentle_or_owes hs.watching hs.proper hg with hupheld | howes
    · refine .settled (hphase ▸ phase) ?_
      rw [hcluster]
      exact hupheld
    · refine .disturbed (hphase ▸ phase) ?_
      rw [hwatching]
      exact howes

theorem Steady.withWork {work : WorkQueue} (h : s.Steady)
    (hacc : work.dispenser.Accounted (s.workers.filterMap Worker.key?))
    (hopen : work.queue.isShutDown = false → s.work.queue.isShutDown = false)
    (hwants : s.work.queue.isShutDown = false → ∀ key, s.work.Wants key → work.Wants key) :
    (s.withWork work).Steady where
  proper := h.proper
  watching := ⟨h.watching.first, h.watching.kinds, h.watching.sound⟩
  accounted := hacc
  working := h.working
  waiting := h.waiting
  attended hstill p root hdeclares := by
    have hwas := hopen hstill
    exact (h.attended hwas hdeclares).frame rfl rfl id id (hwants hwas p.key)

theorem Steady.withDispenser {d : Dispenser} (h : s.Steady)
    (hacc : d.Accounted (s.workers.filterMap Worker.key?))
    (hopen : d.queue.isShutDown = s.work.queue.isShutDown)
    (hwants : ∀ key, s.work.dispenser.Wants key → d.Wants key) :
    (s.withWork (s.work.follow d)).Steady :=
  h.withWork hacc (fun hstill ↦ hopen ▸ hstill) fun _ key hkey ↦ hkey.follow (hwants key)

theorem Steady.withWorld {world : World} (h : s.Steady) (hcluster : world.cluster = s.world.cluster)
    (hroots : world.roots = s.world.roots) : (s.withWorld world).Steady where
  proper := by
    change world.cluster.Proper
    rw [hcluster]
    exact h.proper
  watching := by
    refine h.watching.gentle h.proper ?_ hroots
    rw [hcluster]
    exact .unchanged (.refl _)
  accounted := h.accounted
  working hw := by
    change Worker.Sound _ world.cluster
    rw [hcluster]
    exact h.working hw
  waiting := h.waiting
  attended hopen p root hdeclares := by
    have hwas : s.world.cluster.Declares p root := by
      rw [← hcluster]
      exact hdeclares
    exact (h.attended hopen hwas).frame hcluster rfl id id id

end Controller

end Submarine
