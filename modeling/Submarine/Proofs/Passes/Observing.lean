import Submarine.Proofs.Manifest.Children
import Submarine.Reconcile.Converge

namespace Submarine

/-- An installation as it is found at some time. The status of the root takes no part in it. -/
structure Observation where
  root : Root
  server : Object .deployment
  database : Object .statefulSet
  now : Time.Instant

namespace Observation

def status (o : Observation) (previous : Option InstallationStatus) : InstallationStatus :=
  observedStatus { o.root with content := show InstallationContent from ⟨o.root.spec, previous⟩ }
    o.server o.database o.now

def phase (o : Observation) : Phase :=
  observedPhase o.root.spec o.server.availableReplicas o.database.availableSetReplicas

theorem phase_status (o : Observation) (previous : Option InstallationStatus) :
    (o.status previous).state.phase = o.phase := rfl

theorem time_status (o : Observation) (previous : Option InstallationStatus) :
    (o.status previous).state.lastTransitionTime =
      if previous.map (·.state.phase) = some o.phase then
        previous.bind (·.state.lastTransitionTime)
      else some o.now := by
  cases previous with
  | none => rfl
  | some previous => simp [status, phase, observedStatus]

def statusAfter (initial : Option InstallationStatus) (observations : List Observation) (n : Nat) :
    Option InstallationStatus :=
  (observations.take n).foldl (fun previous o ↦ some (o.status previous)) initial

section Run

variable (initial : Option InstallationStatus) (observations : List Observation)

def phaseAfter (n : Nat) : Option Phase :=
  (statusAfter initial observations n).map (·.state.phase)

def timeAfter (n : Nat) : Option Time.Instant :=
  (statusAfter initial observations n).bind (·.state.lastTransitionTime)

/-- The observation with that index finds another phase than there was before, if there was any. -/
def Turns (i : Nat) : Prop :=
  phaseAfter initial observations (i + 1) ≠ phaseAfter initial observations i

instance (i : Nat) : Decidable (Turns initial observations i) := inferInstanceAs (Decidable (_ ≠ _))

variable {initial observations} {i m n : Nat}

theorem statusAfter_succ (hn : n < observations.length) :
    statusAfter initial observations (n + 1) =
      some (observations[n].status (statusAfter initial observations n)) := by
  unfold statusAfter
  rw [List.take_add_one, List.getElem?_eq_getElem hn, Option.toList_some, List.foldl_append]
  rfl

theorem phaseAfter_succ (hn : n < observations.length) :
    phaseAfter initial observations (n + 1) = some observations[n].phase := by
  rw [phaseAfter, statusAfter_succ hn, Option.map_some, phase_status]

theorem timeAfter_succ (hn : n < observations.length) :
    timeAfter initial observations (n + 1) =
      if phaseAfter initial observations n = some observations[n].phase then
        timeAfter initial observations n
      else some observations[n].now := by
  rw [timeAfter, statusAfter_succ hn, Option.bind_some, time_status]
  rfl

theorem timeAfter_of_turns (hi : i < observations.length) (h : Turns initial observations i) :
    timeAfter initial observations (i + 1) = some observations[i].now := by
  rw [timeAfter_succ hi]
  apply if_neg
  intro hsame
  exact h ((phaseAfter_succ hi).trans hsame.symm)

theorem timeAfter_of_not_turns (hi : i < observations.length)
    (h : ¬ Turns initial observations i) :
    timeAfter initial observations (i + 1) = timeAfter initial observations i := by
  have hphase : phaseAfter initial observations (i + 1) = some observations[i].phase :=
    phaseAfter_succ hi
  rw [timeAfter_succ hi]
  apply if_pos
  rw [← hphase]
  exact (Classical.not_not.1 h).symm

/-- The time stays as long as the phase does. -/
theorem timeAfter_of_steady (hmn : m ≤ n) (hn : n ≤ observations.length)
    (h : ∀ i, m ≤ i → i < n → ¬ Turns initial observations i) :
    timeAfter initial observations n = timeAfter initial observations m := by
  induction hmn with
  | refl => rfl
  | @step n hmn ih =>
    rw [timeAfter_of_not_turns hn (h n hmn (Nat.lt_succ_self n))]
    apply ih (Nat.le_of_succ_le hn)
    intro i hmi hin
    exact h i hmi (Nat.lt_succ_of_lt hin)

end Run

section Unchanged

variable {root : Root} {server : Object .deployment} {database : Object .statefulSet}
  {previous : InstallationStatus} {now : Time.Instant}

structure FindsUnchanged (root : Root) (server : Object .deployment)
    (database : Object .statefulSet) (previous : InstallationStatus) : Prop where
  availableServer : server.availableReplicas = previous.availableServerReplicas
  availableDatabase : database.availableSetReplicas = previous.availableDatabaseReplicas
  samePhase : observedPhase root.spec server.availableReplicas database.availableSetReplicas =
    previous.state.phase

theorem observedStatus_of_unchanged (hprevious : root.status = some previous)
    (h : FindsUnchanged root server database previous) (now : Time.Instant) :
    observedStatus root server database now = previous := by
  unfold observedStatus
  rw [hprevious]
  dsimp only
  rw [h.samePhase, if_pos rfl, h.availableServer, h.availableDatabase]

/-- A report that finds nothing new asks for the time, and for nothing else. -/
theorem reportStatus_of_unchanged (hprevious : root.status = some previous)
    (h : FindsUnchanged root server database previous) :
    reportStatus root server database = .ask .now fun _ ↦ .done () := by
  unfold reportStatus
  congr 1
  funext now
  apply if_pos
  rw [hprevious]
  exact congrArg some (observedStatus_of_unchanged hprevious h now).symm

end Unchanged

/-- Over any run of observations, whatever their specs and in whatever order their times: the
phase is running just if both workloads have all the replicas that the spec asks for, the time of
the last transition is that of the last observation that turned the phase, or the one there was at
first if none did, and what is observed unchanged stays the same at any time and is not written. -/
theorem times_the_last_turn (initial : Option InstallationStatus)
    (observations : List Observation) :
    (∀ n (hn : n < observations.length),
      let o := observations[n]
      phaseAfter initial observations (n + 1) =
        some (if o.root.spec.server.replicas ≤ o.server.availableReplicas ∧
          o.root.spec.database.replicas ≤ o.database.availableSetReplicas then .running
        else .creating)) ∧
    (∀ n (_ : n ≤ observations.length),
      (∀ j (_ : j < n), Turns initial observations j →
        (∀ i, j < i → i < n → ¬ Turns initial observations i) →
          timeAfter initial observations n = some observations[j].now) ∧
      ((∀ i < n, ¬ Turns initial observations i) →
        timeAfter initial observations n = initial.bind (·.state.lastTransitionTime))) ∧
    ∀ (root : Root) (server : Object .deployment) (database : Object .statefulSet)
      (previous : InstallationStatus), root.status = some previous →
      FindsUnchanged root server database previous →
      (∀ now, observedStatus root server database now = previous) ∧
        ∀ asked result, (reportStatus root server database).Trace asked result →
          result = .ok () ∧ ∀ a ∈ asked, a.1.isWrite = false := by
  refine ⟨fun n hn ↦ phaseAfter_succ hn, fun n hn ↦ ⟨?_, ?_⟩, ?_⟩
  · intro j hj hturns hsteady
    have hlater : timeAfter initial observations n = timeAfter initial observations (j + 1) := by
      apply timeAfter_of_steady hj hn
      intro i hji hin
      exact hsteady i hji hin
    rw [hlater, timeAfter_of_turns (Nat.lt_of_lt_of_le hj hn) hturns]
  · intro hsteady
    apply timeAfter_of_steady (Nat.zero_le n) hn
    intro i _ hin
    exact hsteady i hin
  · intro root server database previous hprevious h
    refine ⟨observedStatus_of_unchanged hprevious h, ?_⟩
    intro asked result htrace
    rw [reportStatus_of_unchanged hprevious h] at htrace
    cases htrace with
    | ask now rest =>
      cases rest
      refine ⟨rfl, ?_⟩
      intro a ha
      obtain rfl := List.mem_singleton.1 ha
      rfl

def sample (replicas available : Int32) (second : Time.Second) : Observation where
  root := { Root.sample with
    content := show InstallationContent from
      ⟨{ Root.sample.spec with server := { replicas } }, none⟩ }
  server := ⟨{}, show DeploymentContent from
    { status := some { availableReplicas := some available } }⟩
  database := ⟨{}, show StatefulSetContent from { status := some { availableReplicas := some 1 } }⟩
  now := ⟨second, 0⟩

def sampleRun : List Observation :=
  [sample 1 0 10, sample 1 1 60, sample 1 1 30, sample 2 1 90, sample 2 1 100]

/-- The phase has been turned last by the edit, and not by the observation after it. -/
theorem times_the_last_turn_of_edited :
    Turns none sampleRun 3 ∧ ¬ Turns none sampleRun 4 ∧
      timeAfter none sampleRun 5 = some ⟨90, 0⟩ := by
  have hturns : Turns none sampleRun 3 := by decide +kernel
  have hsteady : ¬ Turns none sampleRun 4 := by decide +kernel
  refine ⟨hturns, hsteady, ?_⟩
  refine ((times_the_last_turn none sampleRun).2.1 5 (Nat.le_refl 5)).1 3 (by decide) hturns ?_
  intro i hi hlast
  obtain rfl : i = 4 := by omega
  exact hsteady

end Observation

end Submarine
