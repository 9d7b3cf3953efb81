import Submarine.Proofs.Passes.Interplay
import Submarine.Proofs.Passes.Repeating
import Submarine.Proofs.Passes.Weathering

namespace Submarine

/-- Passes over a key, one after another. Before each of them the cache holds under the key what is
stored in the root's place, and nothing is written in between. -/
structure Rounds (home : Place) (key : String) where
  before : Nat → World
  refreshed : ∀ i, (before i).roots.objects.get? key = (before i).cluster.find? .submarine home
  alone : ∀ i, (before (i + 1)).cluster = ((before i).run (reconcile key)).2.cluster
  crashes : ∀ i k, (before i).crashes k = 0

/-- The root is stored and to be acted on, and no name that it needs is held by an object that it
does not control. -/
structure Uncontested (root : Root) (home : Place) (c : Cluster) : Prop where
  reachable : c.Reachable
  find?_root : c.find? .submarine home = some root
  uid : root.metadata.uid.isSome
  valid : root.spec.validate = .ok ()
  stays : root.metadata.deletionTimestamp = none
  controlled : ∀ child ∈ plan root, ∀ o : Object child.kind,
    c.find? child.kind ⟨home.ns, child.child.name⟩ = some o → o.isControlledBy root

namespace Rounds

variable {home : Place} {key : String} {root : Root}

def result (r : Rounds home key) (i : Nat) : Except Failure Unit :=
  ((r.before i).run (reconcile key)).1

/-- Each failure comes from an outage, which it uses up; of the first passes, one more than there
are outages, one ends well; and a pass that ends well leaves all children in order. -/
structure Recovers (r : Rounds home key) (root : Root) : Prop where
  fails : ∀ i f, r.result i = .error f →
    f.severity = .transient ∧ (r.before i).cluster.Spends f (r.before (i + 1)).cluster
  succeeds : ∃ i ≤ (r.before 0).cluster.outages.length, r.result i = .ok ()
  settles : ∀ i, r.result i = .ok () →
    ∀ child ∈ plan root, ∃ o, Settlement.Stands ⟨child, o⟩ root (r.before (i + 1)).cluster

/-- A round fails by an outage, or leaves the children in order; the next one begins as it did. -/
theorem round (r : Rounds home key) (hkey : key = home.key) (hroot : root.Named home)
    (hvalid : root.spec.validate = .ok ()) (hstays : root.metadata.deletionTimestamp = none)
    {i : Nat} (h : Kept root home (r.before i)) :
    Kept root home (r.before (i + 1)) ∧
      ((∃ f, r.result i = .error f ∧ (r.before i).cluster.Spends f (r.before (i + 1)).cluster) ∨
        r.result i = .ok () ∧ ∀ child ∈ plan root, ∃ o,
          Settlement.Stands ⟨child, o⟩ root (r.before (i + 1)).cluster) := by
  obtain ⟨stored, hsame, hdeletion, hreceptive⟩ := h
  have hnamed : stored.Named home := hroot.congr hsame.name hsame.ns (hsame.uid ▸ hroot.uid)
  have hpass : (r.before i).run (reconcile key) = (r.before i).run (reconcileRoot stored) := by
    subst hkey
    exact run_reconcile hroot.isKeyed.splitKey? ((r.refreshed i).trans hreceptive.find?_root)
      (hsame.spec ▸ hvalid) (hdeletion.trans hstays)
  have hresult : r.result i = ((r.before i).run (reconcileRoot stored)).1 := congrArg Prod.fst hpass
  have hnext := r.alone i
  rw [hpass] at hnext
  cases hreceptive.reconcileRoot hnamed with
  | failed f w' hrun hkeeps hspends =>
    rw [hrun] at hresult hnext
    have hkept : Kept root home w' := hkeeps.of_sameDeclaration hsame hdeletion
    refine ⟨hkept.of_cluster_eq hnext (r.crashes (i + 1)), .inl ⟨f, hresult, ?_⟩⟩
    rwa [Cluster.Spends, hnext]
  | well _ w' hrun hkeeps _ =>
    rw [hrun] at hresult hnext
    have hkept : Kept root home w' := hkeeps.of_sameDeclaration hsame hdeletion
    obtain ⟨finished, hfinished, -⟩ :=
      finished_of_run hreceptive.stamped hreceptive.find?_root hrun
    refine ⟨hkept.of_cluster_eq hnext (r.crashes (i + 1)), .inr ⟨hresult, ?_⟩⟩
    rw [hnext]
    exact hkept.stands hfinished

theorem kept (r : Rounds home key) (hkey : key = home.key) (hroot : root.Named home)
    (hvalid : root.spec.validate = .ok ()) (hstays : root.metadata.deletionTimestamp = none)
    (h : Kept root home (r.before 0)) (i : Nat) : Kept root home (r.before i) := by
  induction i with
  | zero => exact h
  | succ i ih => exact (r.round hkey hroot hvalid hstays ih).1

theorem length_outages (r : Rounds home key)
    (hspends : ∀ i f, r.result i = .error f →
      (r.before i).cluster.Spends f (r.before (i + 1)).cluster) {n : Nat}
    (hfails : ∀ i < n, r.result i ≠ .ok ()) :
    (r.before n).cluster.outages.length + n = (r.before 0).cluster.outages.length := by
  induction n with
  | zero => rfl
  | succ n ih =>
    have hrest := ih fun i hi ↦ hfails i (Nat.lt_succ_of_lt hi)
    rcases hresult : r.result n with f | _
    · have hlength := (hspends n f hresult).length
      omega
    · exact absurd hresult (hfails n (Nat.lt_succ_self n))

/-- Outages put a pass off, and nothing else does, if the root stands under a name of its own and
the objects that it controls can be written where they have to be. -/
theorem outlast_outages {root : Root} (r : Rounds home root.cacheKey)
    (h : Uncontested root home (r.before 0).cluster)
    (hwhole : (r.before 0).cluster.isBroken = false) (hplace : root.place = .ok home)
    (hkeyed : home.IsKeyed)
    (hyields : ∀ child ∈ plan root, ∀ o : Object child.kind,
      (r.before 0).cluster.find? child.kind ⟨home.ns, child.child.name⟩ = some o →
        o.Yields child.child root home.ns) :
    r.Recovers root := by
  have hroot : root.Named home := .of_place hplace h.uid hkeyed
  have hstart : Receptive root home (r.before 0) :=
    ⟨.reachable h.reachable, hwhole, r.crashes 0, h.find?_root,
      fun child hchild o ho ↦ ⟨h.controlled child hchild o ho, hyields child hchild o ho⟩⟩
  have hrounds := fun i ↦ r.round hroot.cacheKey hroot h.valid h.stays
    (r.kept hroot.cacheKey hroot h.valid h.stays hstart.kept i)
  have hspends : ∀ i f, r.result i = .error f →
      (r.before i).cluster.Spends f (r.before (i + 1)).cluster := by
    intro i f hfails
    rcases (hrounds i).2 with ⟨f', hresult, hspends⟩ | ⟨hresult, -⟩
    · obtain rfl := Except.error.inj (hfails.symm.trans hresult)
      exact hspends
    · rw [hfails] at hresult
      contradiction
  refine ⟨fun i f hfails ↦ ?_, ?_, fun i hresult ↦ ?_⟩
  · exact ⟨(hspends i f hfails).severity, hspends i f hfails⟩
  · -- Each of them would have taken an outage, one more than there were.
    by_contra hnone
    have hfails : ∀ i < (r.before 0).cluster.outages.length + 1, r.result i ≠ .ok () := by
      intro i hi hresult
      exact hnone ⟨i, Nat.le_of_lt_succ hi, hresult⟩
    have hlength := r.length_outages hspends hfails
    omega
  · rcases (hrounds i).2 with ⟨f, hfails, -⟩ | ⟨-, hsettles⟩
    · rw [hfails] at hresult
      contradiction
    · exact hsettles

section Scenes

variable {k : Kind} {c : Cluster}

def afresh (home : Place) (key : String) (c : Cluster) : World :=
  { World.new c ⟨0, 0⟩ with
    roots := { (Cache.empty : Cache .submarine) with
      objects := match c.find? .submarine home with
        | some root => (∅ : Table String Root).insert key root
        | none => ∅ } }

def worldBefore (home : Place) (key : String) (c : Cluster) : Nat → World
  | 0 => afresh home key c
  | i + 1 => afresh home key ((worldBefore home key c i).run (reconcile key)).2.cluster

theorem get?_afresh (home : Place) (key : String) (c : Cluster) :
    (afresh home key c).roots.objects.get? key = c.find? .submarine home := by
  unfold afresh
  cases c.find? .submarine home with
  | none => exact Table.get?_empty key
  | some root => exact Table.get?_insert_self ..

def ofCluster (home : Place) (key : String) (c : Cluster) : Rounds home key where
  before := worldBefore home key c
  refreshed i := by cases i <;> exact get?_afresh home key _
  alone _ := rfl
  crashes i k := by cases i <;> rfl

instance (o : Object k) (child : Child k) (root : Root) (ns : String) :
    Decidable (o.Yields child root ns) := inferInstanceAs (Decidable (_ ∨ _))

theorem uncontested_of_all (hc : c.Reachable) (hroot : c.find? .submarine home = some root)
    (huid : root.metadata.uid.isSome) (hvalid : root.spec.validate = .ok ())
    (hstays : root.metadata.deletionTimestamp = none)
    (hchildren : ∀ child ∈ plan root,
      (c.find? child.kind ⟨home.ns, child.child.name⟩).all (·.isControlledBy root)) :
    Uncontested root home c :=
  ⟨hc, hroot, huid, hvalid, hstays,
    fun child hchild ↦ (Option.all_eq_true _ _).1 (hchildren child hchild)⟩

open Cluster (empty)
open Interplay (sampleService)

/-- Two calls are to fail: the change of the service that has drifted, and the creation of a
deployment. -/
def hindered : Cluster := Cluster.drifted.performAll [
  .failNext .update .service .conflict,
  .failNext .create .deployment .unavailable]

theorem outlast_two_outages :
    hindered.outages.length = 2 ∧
      ⟨_, Child.auxiliaryService .tensorboard⟩ ∈ plan (Root.sampleWithBoard.withVersion 1) ∧
      (ofCluster ⟨"default", "demo"⟩ (Root.sampleWithBoard.withVersion 1).cacheKey
        hindered).Recovers (Root.sampleWithBoard.withVersion 1) := by
  have hstart : Uncontested (Root.sampleWithBoard.withVersion 1) ⟨"default", "demo"⟩ hindered :=
    uncontested_of_all (.performAll (.performAll .empty _) _) (by decide +kernel) rfl
      (by decide +kernel) rfl (by decide +kernel)
  have hyields : ∀ child ∈ plan (Root.sampleWithBoard.withVersion 1),
      (hindered.find? child.kind ⟨"default", child.child.name⟩).all fun o ↦
        decide (o.Yields child.child (Root.sampleWithBoard.withVersion 1) "default") := by
    decide +kernel
  have hwhole : hindered.isBroken = false := by decide +kernel
  have hkeyed : Place.IsKeyed ⟨"default", "demo"⟩ := ⟨by decide, by decide, by decide, by decide⟩
  have hplan : ⟨_, Child.auxiliaryService .tensorboard⟩ ∈
      plan (Root.sampleWithBoard.withVersion 1) :=
    Plan.mem_of_enabled .tensorboard (by simp [Manifest.Auxiliary.all]) rfl
      (by simp [Plan.auxiliary])
  refine ⟨by decide +kernel, hplan,
    outlast_outages _ hstart hwhole rfl hkeyed fun child hchild o ho ↦ ?_⟩
  exact of_decide_eq_true ((Option.all_eq_true _ _).1 (hyields child hchild) o ho)

def Falters (root : Root) (home : Place) (c : Cluster) : Prop :=
  Uncontested root home c ∧ ¬ (ofCluster home root.cacheKey c).Recovers root

theorem falters_of_first (hstart : Uncontested root home c) (hcalm : c.outages = [])
    (hfails : (ofCluster home root.cacheKey c).result 0 ≠ .ok ()) : Falters root home c := by
  refine ⟨hstart, fun h ↦ ?_⟩
  obtain ⟨i, hi, hresult⟩ := h.succeeds
  have hlength : ((ofCluster home root.cacheKey c).before 0).cluster.outages.length = 0 :=
    congrArg List.length hcalm
  obtain rfl : i = 0 := by omega
  exact hfails hresult

def sampleNamed (name : String) : Root :=
  { Root.sample with metadata := { Root.sample.metadata with name := some name } }

def lastService (name : String) : Object .service :=
  { sampleService with
    metadata :=
      { sampleService.metadata with name := some name, generation := some Int64.maxValue } }

def slashed : Cluster := empty.performAll [.insert .submarine (sampleNamed "a/b")]

def renamed : Cluster := empty.performAll [
  .insert .submarine Root.sample,
  .modify .submarine ⟨"default", "demo"⟩ fun _ ↦ some (sampleNamed "other")]

def strayed : Cluster := empty.performAll [
  .insert .submarine Root.sample,
  .insert .service sampleService,
  .modify .service ⟨"default", "submarine-database"⟩ fun o ↦
    some { o with metadata := { o.metadata with name := some "stray" } }]

def exhausted : Cluster := empty.performAll [
  .insert .submarine Root.sample,
  .insert .service (lastService "submarine-database")]

def broken : Cluster := empty.performAll [
  .insert .submarine Root.sample,
  .insert .service (lastService "other"),
  .modify .service ⟨"default", "other"⟩ fun o ↦
    some { o with content := show ServiceContent from { spec := some {} } }]

/-- Each of these alone keeps the passes from succeeding, though no call was to fail. -/
theorem falter_without_outages :
    Falters ((sampleNamed "a/b").withVersion 1) ⟨"default", "a/b"⟩ slashed ∧
      Falters ((sampleNamed "other").withVersion 2) ⟨"default", "demo"⟩ renamed ∧
      Falters (Root.sample.withVersion 1) ⟨"default", "demo"⟩ strayed ∧
      Falters (Root.sample.withVersion 1) ⟨"default", "demo"⟩ exhausted ∧
      Falters (Root.sample.withVersion 1) ⟨"default", "demo"⟩ broken := by
  refine ⟨?_, ?_, ?_, ?_, ?_⟩
  all_goals
    refine falters_of_first (uncontested_of_all (.performAll .empty _) ?_ rfl ?_ rfl ?_) rfl ?_
    all_goals decide +kernel

end Scenes

end Rounds

end Submarine
