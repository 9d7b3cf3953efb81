import Submarine.Proofs.Passes.Guarded

namespace Submarine

open Cluster (Effect Stamped)

variable {k : Kind} {w w' : World}

inductive Task where
  | converge (root : Root) {k : Kind} (child : Child k)
  | report (root : Root) (server : Object .deployment) (database : Object .statefulSet)
  | whole (root : Root)

namespace Task

def root : Task → Root
  | converge root _ | report root _ _ | whole root => root

def children : Task → List AnyChild
  | converge _ child => [⟨_, child⟩]
  | report _ _ _ => []
  | whole root => plan root

def pass : Task → Pass Unit
  | converge root child => (Submarine.converge root child).bind fun _ ↦ .done ()
  | report root server database => reportStatus root server database
  | whole root => reconcileRoot root

theorem disciplined (t : Task) : t.pass.Disciplined t.root t.children := by
  cases t with
  | converge root child => exact (Pass.Disciplined.converge (by simp [children])).bind fun _ ↦ .done ()
  | report root server database => exact .reportStatus server database
  | whole root => exact .reconcileRoot

end Task

structure Activity where
  task : Task
  seen : Option Sight
  rest : Pass Unit

namespace Activity

def start (task : Task) : Activity := ⟨task, none, task.pass⟩

def advance (a : Activity) (w : World) : Activity × World :=
  match a.rest with
  | .ask r next =>
    match w.serve r with
    | (some answer, w) => ({ a with seen := sightAfter a.seen r answer, rest := next answer }, w)
    | (none, w) => ({ a with rest := .fail (.ofCrash none) }, w)
  | .done _ | .fail _ => (a, w)

theorem rest_advance (a : Activity) (w : World) :
    ((a.advance w).1.rest, (a.advance w).2) = w.step a.rest := by
  rcases a with ⟨task, seen, _ | _ | ⟨r, next⟩⟩
  · rfl
  · rfl
  · dsimp only [advance, World.step]
    rcases w.serve r with ⟨_ | answer, w'⟩ <;> rfl

/-- What a call of the activity does to objects. -/
structure Faithful (a : Activity) (w : World) : Prop where
  creates : ∀ {k : Kind} {o stored : Object k} {next w'}, a.rest = .ask (.create k o) next →
    w.serve (.create k o) = (some (.ok stored), w') →
      ∃ p, o.place = .ok p ∧ w.cluster.find? k p = none
  -- What is updated is what was read, and the root controls it.
  updates : ∀ {k : Kind} {o stored : Object k} {next w'}, a.rest = .ask (.update k o) next →
    w.serve (.update k o) = (some (.ok stored), w') →
      ∃ p live, o.place = .ok p ∧ a.seen = some ⟨k, p, live⟩ ∧ w.cluster.find? k p = some live ∧
        live.isControlledBy a.task.root
  -- The status is written over the version that it was computed from.
  reports : ∀ {k : Kind} {o stored : Object k} {next w'},
    a.rest = .ask (.updateStatus k o) next →
    w.serve (.updateStatus k o) = (some (.ok stored), w') →
      k = .submarine ∧ o.metadata = a.task.root.metadata ∧ ∃ p live, o.place = .ok p ∧
        w.cluster.find? k p = some live ∧
          live.metadata.resourceVersion = a.task.root.metadata.resourceVersion
  spares : ∀ {k : Kind} {p : Place} {old : Object k}, w.cluster.find? k p = some old →
    (a.advance w).2.cluster.find? k p ≠ some old →
      old.isControlledBy a.task.root ∧ a.seen = some ⟨k, p, old⟩ ∨
        k = .submarine ∧ a.task.root.place = .ok p ∧
          old.metadata.resourceVersion = a.task.root.metadata.resourceVersion

structure Sound (a : Activity) (c : Cluster) : Prop where
  versioned : a.task.root.metadata.resourceVersion.isSome
  guarded : a.rest.Guarded a.task.root a.task.children a.seen c

namespace Sound

variable {a : Activity} {c c' : Cluster}

theorem start {t : Task} (h : t.root.metadata.resourceVersion.isSome) : (start t).Sound c where
  versioned := h
  guarded := ⟨t.disciplined none, fun _ h ↦ by simp [Activity.start] at h⟩

theorem effect (h : a.Sound c) (he : Effect c c') : a.Sound c' := ⟨h.versioned, h.guarded.effect he⟩

theorem version_eq (h : a.Sound c) {version : Option String}
    (hv : a.task.root.metadata.resourceVersion = none ∨
      version = a.task.root.metadata.resourceVersion) :
    version = a.task.root.metadata.resourceVersion := by
  rcases hv with hnone | hsame
  · have hsome := h.versioned
    rw [hnone] at hsome
    contradiction
  · exact hsame

end Sound

end Activity

namespace Activity.Sound

variable {a : Activity}

theorem advance (hw : Stamped w.cluster) (h : a.Sound w.cluster) :
    (a.advance w).1.Sound (a.advance w).2.cluster := by
  rcases a with ⟨task, seen, _ | _ | ⟨r, next⟩⟩
  · exact h
  · exact h
  · dsimp only [Activity.advance]
    rcases hserve : w.serve r with ⟨_ | answer, w'⟩
    · have heffect := w.effect_serve r
      rw [hserve] at heffect
      exact ⟨h.versioned, trivial, (h.guarded.effect heffect).remembers⟩
    · exact ⟨h.versioned, h.guarded.next hw hserve⟩

theorem spares (h : a.Sound w.cluster) {p : Place} {old : Object k}
    (hold : w.cluster.find? k p = some old)
    (hchanged : (a.advance w).2.cluster.find? k p ≠ some old) :
    old.isControlledBy a.task.root ∧ a.seen = some ⟨k, p, old⟩ ∨
      k = .submarine ∧ a.task.root.place = .ok p ∧
        old.metadata.resourceVersion = a.task.root.metadata.resourceVersion := by
  have hstep : (a.advance w).2 = (w.step a.rest).2 := congrArg Prod.snd (a.rest_advance w)
  rw [hstep, ← hold] at hchanged
  cases h.guarded.written with
  | nothing hsame => exact absurd (hsame.find? k p) hchanged
  | created child ns o _ _ hfree _ _ _ hstores =>
    obtain ⟨rfl, rfl⟩ := hstores.eq_of_find?_ne hchanged
    rw [hfree] at hold
    contradiction
  | updated child ns live o _ _ hseen hlive hcontrolled _ hstores =>
    obtain ⟨rfl, rfl⟩ := hstores.eq_of_find?_ne hchanged
    obtain rfl := Option.some.inj (hold.symm.trans hlive)
    exact .inl ⟨hcontrolled, hseen⟩
  | reported q live o hplace hlive hversion _ hstores =>
    obtain ⟨rfl, rfl⟩ := hstores.eq_of_find?_ne hchanged
    obtain rfl := Option.some.inj (hold.symm.trans hlive)
    exact .inr ⟨rfl, hplace, h.version_eq hversion⟩

theorem faithful (h : a.Sound w.cluster) : a.Faithful w where
  creates hrest hserve := by
    have hguarded := h.guarded
    rw [hrest] at hguarded
    rcases hguarded.create_cases hserve with
      ⟨child, ns, -, -, -, hfree, -, hplace, -⟩ | ⟨-, hno⟩
    · exact ⟨_, hplace, hfree⟩
    · exact absurd rfl (hno _)
  updates hrest hserve := by
    have hguarded := h.guarded
    rw [hrest] at hguarded
    rcases hguarded.update_cases hserve with
      ⟨child, ns, live, -, -, -, hseen, hlive, hcontrolled, hplace, -⟩ | ⟨-, hno⟩
    · exact ⟨_, live, hplace, hseen, hlive, hcontrolled⟩
    · exact absurd rfl (hno _)
  reports hrest hserve := by
    have hguarded := h.guarded
    rw [hrest] at hguarded
    obtain ⟨hkind, hmetadata, hcases⟩ := hguarded.report_cases hserve
    rcases hcases with ⟨p, live, -, hp, hlive, hversion, -⟩ | ⟨-, hno⟩
    · exact ⟨hkind, hmetadata, p, live, hp, hlive, h.version_eq hversion⟩
    · exact absurd rfl (hno _)
  spares hold hchanged := h.spares hold hchanged

end Activity.Sound

structure Interplay where
  world : World
  activities : List Activity

namespace Interplay

inductive Move where
  -- Takes up a task, if its cached root bears a version.
  | begin (task : Task)
  | advance (i : Nat)
  | operate (op : Cluster.Operation)
  -- One more read of the kind is to break off.
  | crash (k : Kind)
  | turnClock (now : Time.Instant)

def new (clock : Time.Instant) : Interplay := ⟨.new .empty clock, []⟩

def step (s : Interplay) : Move → Interplay
  | .begin task =>
    if task.root.metadata.resourceVersion.isSome then
      { s with activities := s.activities ++ [.start task] }
    else s
  | .advance i =>
    match s.activities[i]? with
    | none => s
    | some a =>
      let (a, world) := a.advance s.world
      { world, activities := s.activities.set i a }
  | .operate op => { s with world := { s.world with cluster := s.world.cluster.perform op } }
  | .crash k =>
    { s with world := { s.world with
        crashes := fun j ↦ if j = k then s.world.crashes k + 1 else s.world.crashes j } }
  | .turnClock now => { s with world := { s.world with clock := now } }

def run (s : Interplay) (moves : List Move) : Interplay := moves.foldl step s

structure Sound (s : Interplay) : Prop where
  stamped : s.world.cluster.Stamped
  activities : ∀ a ∈ s.activities, a.Sound s.world.cluster

namespace Sound

variable {s : Interplay}

theorem new (clock : Time.Instant) : (new clock).Sound :=
  ⟨.empty, by simp [Interplay.new]⟩

theorem step (h : s.Sound) (m : Move) : (s.step m).Sound := by
  cases m with
  | begin task =>
    rw [Interplay.step]
    split
    · next hversion =>
      refine ⟨h.stamped, fun a ha ↦ ?_⟩
      rcases List.mem_append.1 ha with hold | hnew
      · exact h.activities a hold
      · obtain rfl := List.mem_singleton.1 hnew
        exact .start hversion
    · exact h
  | advance i =>
    rw [Interplay.step]
    split
    · exact h
    · next a hi =>
      have ha := h.activities a (List.mem_of_getElem? hi)
      have hstep : (a.advance s.world).2 = (s.world.step a.rest).2 :=
        congrArg Prod.snd (a.rest_advance s.world)
      have heffect : Effect s.world.cluster (a.advance s.world).2.cluster := by
        rw [hstep]
        exact World.effect_step s.world a.rest
      refine ⟨h.stamped.effect heffect, fun b hb ↦ ?_⟩
      rcases List.mem_or_eq_of_mem_set hb with hold | rfl
      · exact (h.activities b hold).effect heffect
      · exact ha.advance h.stamped
  | operate op =>
    have heffect := Effect.perform s.world.cluster op
    exact ⟨h.stamped.effect heffect, fun a ha ↦ (h.activities a ha).effect heffect⟩
  | crash k => exact ⟨h.stamped, h.activities⟩
  | turnClock now => exact ⟨h.stamped, h.activities⟩

theorem run (h : s.Sound) (moves : List Move) : (s.run moves).Sound := by
  induction moves generalizing s with
  | nil => exact h
  | cons m rest ih => exact ih (h.step m)

end Sound

/-- Whatever was done before, and in whatever order, the next call of each activity changes an
object only if it is the one that was read, and only if the root controls it. -/
theorem writes_meet_reads (clock : Time.Instant) (moves : List Move) {a : Activity}
    (ha : a ∈ ((new clock).run moves).activities) : a.Faithful ((new clock).run moves).world :=
  (((Sound.new clock).run moves).activities a ha).faithful

def sampleService : Object .service := Root.driftedService "submarine-database"

/-- Two activities have read the drifted service of the root, one of them before somebody else gave
it an empty spec. -/
def sampleMoves : List Move := [
  .operate (.insert .submarine Root.sample),
  .operate (.insert .service sampleService),
  .begin (.converge (Root.sample.withVersion 1) Child.databaseService),
  .begin (.converge (Root.sample.withVersion 1) Child.databaseService),
  .advance 0,
  .operate (.modify .service ⟨"default", "submarine-database"⟩ fun o ↦
    some { o with content := show ServiceContent from { spec := some {} } }),
  .advance 1]

theorem writes_meet_reads_of_drifted_service :
    ∃ a ∈ ((new ⟨0, 0⟩).run sampleMoves).activities,
      ∃ b ∈ ((new ⟨0, 0⟩).run sampleMoves).activities,
        (∃ o next e w', a.rest = .ask (.update .service o) next ∧
          ((new ⟨0, 0⟩).run sampleMoves).world.serve (.update .service o) =
            (some (.error e), w')) ∧
        (∃ o next stored w', b.rest = .ask (.update .service o) next ∧
          ((new ⟨0, 0⟩).run sampleMoves).world.serve (.update .service o) =
            (some (.ok stored), w')) ∧
        a.Faithful ((new ⟨0, 0⟩).run sampleMoves).world ∧
        b.Faithful ((new ⟨0, 0⟩).run sampleMoves).world := by
  have hmem : ∀ i a, ((new ⟨0, 0⟩).run sampleMoves).activities[i]? = some a →
      a ∈ ((new ⟨0, 0⟩).run sampleMoves).activities := fun _ _ ↦ List.mem_of_getElem?
  have hfirst := hmem 0 _ rfl
  have hsecond := hmem 1 _ rfl
  exact ⟨_, hfirst, _, hsecond, ⟨_, _, _, _, rfl, rfl⟩, ⟨_, _, _, _, rfl, rfl⟩,
    writes_meet_reads _ _ hfirst, writes_meet_reads _ _ hsecond⟩

end Interplay

end Submarine
