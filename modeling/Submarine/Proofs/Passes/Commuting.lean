import Submarine.Proofs.Controller.Owners
import Submarine.Proofs.Passes.Abreast
import Submarine.Proofs.Passes.Revising

namespace Submarine

open Cluster (Stamped)

variable {k : Kind} {α : Type} {w s s' : World} {root : Root} {key ns name other : String}

/-- Every child that the root controls is in order, or can be updated as far as the object itself
and the other namespace go. -/
def Root.KeepsOff (root : Root) (other : String) (c : Cluster) : Prop :=
  ∀ child ∈ plan root, ∀ ns (o : Object child.kind), root.metadata.ns = some ns →
    c.find? child.kind ⟨ns, child.child.name⟩ = some o → o.isControlledBy root →
      o.agreesWith (child.child.build root) ∨ o.Tame child.child root ns other c

/-- Objects that bear the names of their places reach for no others. -/
theorem Root.KeepsOff.of_yields {c : Cluster} (hns : root.metadata.ns = some ns) (hne : ns ≠ other)
    (h : ∀ child ∈ plan root, ∀ o : Object child.kind,
      c.find? child.kind ⟨ns, child.child.name⟩ = some o → o.isControlledBy root →
        o.Yields child.child root ns) : root.KeepsOff other c := by
  intro child hchild ns' o hns' hfind hcontrolled
  obtain rfl := Option.some.inj (hns.symm.trans hns')
  rcases h child hchild o hfind hcontrolled with hagrees | ⟨hplace, hnext⟩
  · exact .inl hagrees
  · refine .inr ⟨fun q hq hother ↦ ?_, fun _ ↦ hnext⟩
    obtain rfl := Except.ok.inj (hplace.symm.trans hq)
    exact absurd hother hne

namespace World

theorem roots_run (w : World) (p : Pass α) : (w.run p).2.roots = w.roots := by
  induction p generalizing w with
  | done | fail => rfl
  | ask r next ih =>
    have hroots := w.roots_serve r
    rw [run]
    rcases hserve : w.serve r with ⟨_ | answer, w₁⟩ <;> rw [hserve] at hroots
    · exact hroots
    · exact (ih answer w₁).trans hroots

/-- A root is cached under its own namespace, whatever was told to the cache. -/
theorem ActsOn.ns_eq {es : List (WatchEvent .submarine)} (h : w.ActsOn key root)
    (hroots : w.roots = (Cache.empty.applyAll es).1) (hkey : splitKey? key = some (ns, name)) :
    root.metadata.ns = some ns := by
  obtain ⟨ns', name', hsplit, hcached, -, -⟩ := h
  obtain ⟨rfl, rfl⟩ := Prod.mk.inj (Option.some.inj (hkey.symm.trans hsplit))
  obtain ⟨hns, hname, hslash, hslash', -⟩ := splitKey?_eq_some_iff.1 hkey
  rw [hroots] at hcached
  rcases Cache.applyAll_source hcached with hold | ⟨_, -, -, hcacheKey⟩
  · contradiction
  · have hkeyed : Place.IsKeyed ⟨ns, name⟩ := ⟨hns, hname, hslash, hslash'⟩
    have hnamespace := (hkeyed.eq_of_objectKey hcacheKey).1
    cases hhome : root.metadata.ns with
    | none =>
      rw [hhome] at hnamespace
      exact absurd hnamespace.symm hns
    | some home =>
      rw [hhome] at hnamespace
      exact congrArg some hnamespace

def after (w : World) (key : String) : World := (w.run (reconcile key)).2

/-- Nothing changes outside the namespace of the root. -/
theorem find?_after (hw : Stamped w.cluster)
    (hhome : ∀ root, w.ActsOn key root → root.metadata.ns = some ns) {p : Place} (hp : p.ns ≠ ns)
    (k : Kind) : (w.after key).cluster.find? k p = w.cluster.find? k p := by
  by_cases hacts : ∃ root, w.ActsOn key root
  · obtain ⟨root, hroot⟩ := hacts
    have hspares : Cluster.Spares root w.cluster (w.run (reconcileRoot root)).2.cluster :=
      (Pass.Guarded.of_disciplined .reconcileRoot w.cluster).spares_run hw
    have hns := hhome root hroot
    rw [after, hroot.run_reconcile]
    refine hspares.others k p ?_ ?_
    · rintro ⟨child, ns', -, hns', rfl⟩
      exact hp (Option.some.inj (hns'.symm.trans hns))
    · rintro ⟨-, hplace⟩
      exact hp (Option.some.inj ((Object.place_eq_ok_iff.1 hplace).2.symm.trans hns))
  · obtain ⟨result, w', hrun, hcluster⟩ := run_reconcile_of_idle fun root hroot ↦ hacts ⟨root, hroot⟩
    rw [after, hrun, hcluster]

end World

def DoesAlike (key : String) (s s' : World) : Prop :=
  (s'.run (reconcile key)).1 = (s.run (reconcile key)).1 ∧
    ∃ l : Ledger, l.Between s (s.after key) ∧ l.Between s' (s'.after key)

/-- The clusters are equal but for versions, and for the uids of what was not there at first. -/
structure Cluster.Matches (first c c' : Cluster) : Prop where
  alike : ∀ k p, (c'.find? k p).map Object.anonymous = (c.find? k p).map Object.anonymous
  known : ∀ k p (o : Object k), first.find? k p = some o →
    (c.find? k p).map (·.metadata.uid) = some o.metadata.uid ∧
      (c'.find? k p).map (·.metadata.uid) = some o.metadata.uid
  outages : c'.outages = c.outages
  isBroken : c'.isBroken = c.isBroken
  version : c'.version = c.version
  uids : c'.uids = c.uids

structure Commutes (w : World) (key₁ key₂ : String) : Prop where
  first : DoesAlike key₁ w (w.after key₂)
  second : DoesAlike key₂ w (w.after key₁)
  clusters : Cluster.Matches w.cluster ((w.after key₁).after key₂).cluster
    ((w.after key₂).after key₁).cluster

namespace Abreast

theorem refl (hcalm : w.Calm) (hstamped : Stamped w.cluster) (other : String) :
    Abreast other w w w w where
  calm := hcalm
  calm' := hcalm
  stamped := hstamped
  stamped' := hstamped
  clock := rfl
  ledger := ⟨_, .nil w, .nil w⟩
  alike _ _ _ := rfl
  kept _ _ o ho := ⟨o, o, ho, ho, rfl, rfl⟩

theorem reconcile (h : Abreast other s s' s s') (hkey : splitKey? key = some (ns, name))
    (hne : ns ≠ other) (hroots : s'.roots = s.roots)
    (hsame : ∀ k p, p.ns ≠ other → s'.cluster.find? k p = s.cluster.find? k p)
    (hhome : ∀ root, s.ActsOn key root → root.metadata.ns = some ns)
    (hoff : ∀ root, s.ActsOn key root → root.KeepsOff other s.cluster) :
    Together (Abreast other s s') Eq s s' (Submarine.reconcile key) (Submarine.reconcile key) := by
  rw [reconcile_of_splitKey? hkey]
  have hserve : s'.serve (.cachedRoot ns name) = (some (s.roots.get? ns name), s') := by
    rw [← hroots]
    rfl
  refine .ask rfl hserve ?_
  cases hcached : s.roots.get? ns name with
  | none => exact .done h rfl
  | some root =>
    unfold afterLookup
    dsimp only
    cases hstays : root.metadata.deletionTimestamp with
    | some time => exact .done h rfl
    | none =>
      rw [if_neg (by simp)]
      cases hvalid : InstallationSpec.validate (Root.spec root) with
      | error fault => exact .ask rfl rfl (.fail _ (h.publish _))
      | ok =>
        have hacts : s.ActsOn key root := ⟨ns, name, hkey, hcached, hstays, hvalid⟩
        have hns := hhome root hacts
        have hsweeping : Sweeping root ns other s s' s s' :=
          { h with
            roots := fun p hp ↦ hsame _ p hp
            tame := fun child hchild o ho ↦ hoff root hacts child hchild ns o hns ho }
        exact hsweeping.reconcileRoot hns hne

end Abreast

theorem World.run_ask_of_crash {r : Request} {next : r.Answer → Pass α}
    (h : w.serve r = (none, s')) : w.run (.ask r next) = (.error (.ofCrash none), s') := by
  rw [run, h]

/-- A broken cluster breaks every pass off at its first read. -/
theorem World.run_reconcileRoot_of_broken (root : Root) : ∃ f, ∀ w : World,
    w.cluster.isBroken → (∀ k, w.crashes k = 0) → w.run (reconcileRoot root) = (.error f, w) := by
  have hfirst : ∃ f, ∀ w : World, w.cluster.isBroken → (∀ k, w.crashes k = 0) →
      w.run (converge root Child.serverAccount) = (.error f, w) := by
    unfold converge
    cases root.metadata.ns with
    | none => exact ⟨_, fun w _ _ ↦ rfl⟩
    | some ns =>
      refine ⟨.ofCrash none, fun w hbroken hcrashes ↦ ?_⟩
      have hserve : w.serve (.get .serviceAccount ns Child.serverAccount.name) = (none, w) := by
        rw [serve_eq_answer hcrashes, answer, Cluster.get, if_pos hbroken]
        rfl
      exact run_ask_of_crash hserve
  obtain ⟨f, hf⟩ := hfirst
  refine ⟨f, fun w hbroken hcrashes ↦ ?_⟩
  have hserver : w.run (convergeServer root) = (.error f, w) := by
    refine (run_bind w (converge root Child.serverAccount) _).trans ?_
    rw [hf w hbroken hcrashes]
  refine (run_bind w (convergeServer root) _).trans ?_
  rw [hserver]

/-- Over a broken cluster a pass tells what it can tell of the cached root, and no more. -/
theorem World.run_reconcile_of_broken (roots : Cache .submarine) (key : String) :
    ∃ result told, ∀ w : World, w.roots = roots → w.cluster.isBroken → (∀ k, w.crashes k = 0) →
      w.run (reconcile key) = (result, { w with events := w.events ++ told }) := by
  have hquiet (w : World) : w = { w with events := w.events ++ [] } := by rw [List.append_nil]
  cases hsplit : splitKey? key with
  | none =>
    refine ⟨.error (.invalidKey key), [], fun w _ _ _ ↦ ?_⟩
    rw [reconcile_of_splitKey?_eq_none hsplit, ← hquiet]
    rfl
  | some parts =>
    obtain ⟨ns, name⟩ := parts
    have hlookup : ∃ result told, ∀ w : World, w.cluster.isBroken → (∀ k, w.crashes k = 0) →
        w.run (afterLookup (roots.get? ns name)) =
          (result, { w with events := w.events ++ told }) := by
      cases roots.get? ns name with
      | none => exact ⟨.ok (), [], fun w _ _ ↦ by rw [← hquiet]; rfl⟩
      | some root =>
        unfold afterLookup
        dsimp only
        split
        · exact ⟨.ok (), [], fun w _ _ ↦ by rw [← hquiet]; rfl⟩
        · split
          · exact ⟨_, [_], fun w _ _ ↦ rfl⟩
          · obtain ⟨f, hf⟩ := run_reconcileRoot_of_broken root
            refine ⟨.error f, [], fun w hbroken hcrashes ↦ ?_⟩
            rw [← hquiet, hf w hbroken hcrashes]
    obtain ⟨result, told, hrun⟩ := hlookup
    refine ⟨result, told, fun w hroots hbroken hcrashes ↦ ?_⟩
    rw [reconcile_of_splitKey? hsplit, ← hrun w hbroken hcrashes, ← hroots]
    rfl

theorem Commutes.of_broken (hbroken : w.cluster.isBroken) (hcrashes : ∀ k, w.crashes k = 0)
    (key₁ key₂ : String) : Commutes w key₁ key₂ := by
  have hafter (key : String) : ∃ result told, ∀ v : World, v.roots = w.roots →
      v.cluster = w.cluster → v.crashes = w.crashes →
        v.run (reconcile key) = (result, { v with events := v.events ++ told }) := by
    obtain ⟨result, told, h⟩ := World.run_reconcile_of_broken w.roots key
    refine ⟨result, told, fun v hroots hcluster hcrash ↦ h v hroots ?_ ?_⟩
    · rwa [hcluster]
    · rwa [hcrash]
  have halike {key : String} {v : World} (hroots : v.roots = w.roots)
      (hcluster : v.cluster = w.cluster) (hcrash : v.crashes = w.crashes) :
      DoesAlike key w v := by
    obtain ⟨result, told, h⟩ := hafter key
    have hw := h w rfl rfl rfl
    have hv := h v hroots hcluster hcrash
    refine ⟨by rw [hw, hv], ⟨[], told, [], 0⟩, ?_, ?_⟩
    · rw [World.after, hw]
      constructor <;> simp
    · rw [World.after, hv]
      constructor <;> simp
  obtain ⟨result₁, told₁, h₁⟩ := hafter key₁
  obtain ⟨result₂, told₂, h₂⟩ := hafter key₂
  have hw₁ : w.after key₁ = _ := congrArg Prod.snd (h₁ w rfl rfl rfl)
  have hw₂ : w.after key₂ = _ := congrArg Prod.snd (h₂ w rfl rfl rfl)
  refine ⟨?_, ?_, ?_⟩
  · rw [hw₂]
    exact halike rfl rfl rfl
  · rw [hw₁]
    exact halike rfl rfl rfl
  · rw [hw₁, hw₂, World.after, World.after, h₁, h₂] <;> try rfl
    exact ⟨fun _ _ ↦ rfl, fun k p o ho ↦ by simp [ho], rfl, rfl, rfl, rfl⟩

/-- What the passes over two keys in different namespaces need in order not to meet. -/
structure Apart (w : World) (key₁ key₂ : String) (ns₁ ns₂ : String) : Prop where
  first : ∃ name, splitKey? key₁ = some (ns₁, name)
  second : ∃ name, splitKey? key₂ = some (ns₂, name)
  ne : ns₁ ≠ ns₂
  cached : ∃ es, w.roots = (Cache.empty.applyAll es).1
  keepsOff₁ : ∀ root, w.ActsOn key₁ root → root.KeepsOff ns₂ w.cluster
  keepsOff₂ : ∀ root, w.ActsOn key₂ root → root.KeepsOff ns₁ w.cluster

namespace Apart

variable {key₁ key₂ ns₁ ns₂ : String}

theorem symm (h : Apart w key₁ key₂ ns₁ ns₂) : Apart w key₂ key₁ ns₂ ns₁ :=
  ⟨h.second, h.first, h.ne.symm, h.cached, h.keepsOff₂, h.keepsOff₁⟩

theorem home (h : Apart w key₁ key₂ ns₁ ns₂) {v : World} (hroots : v.roots = w.roots) :
    ∀ root, v.ActsOn key₁ root → root.metadata.ns = some ns₁ := by
  obtain ⟨name, hkey⟩ := h.first
  obtain ⟨es, hes⟩ := h.cached
  exact fun root hacts ↦ hacts.ns_eq (hroots.trans hes) hkey

/-- The pass over the first key, in a world that differs from the given one in the namespace of the
other key. -/
theorem together (h : Apart w key₁ key₂ ns₁ ns₂) (hstart : Abreast ns₂ w s' w s')
    (hroots : s'.roots = w.roots)
    (hsame : ∀ k p, p.ns ≠ ns₂ → s'.cluster.find? k p = w.cluster.find? k p) :
    (s'.run (reconcile key₁)).1 = (w.run (reconcile key₁)).1 ∧
      Abreast ns₂ w s' (w.after key₁) (s'.after key₁) := by
  obtain ⟨name, hkey⟩ := h.first
  cases hstart.reconcile hkey h.ne hroots hsame (h.home rfl) h.keepsOff₁ with
  | well a a' v v' run run' keeps values =>
    rw [World.after, World.after, run, run']
    exact ⟨congrArg Except.ok values.symm, keeps⟩
  | failed f v v' run run' keeps =>
    rw [World.after, World.after, run, run']
    exact ⟨rfl, keeps⟩

/-- The pass over the first key does the same before and after that over the second. -/
theorem beforeAndAfter (h : Apart w key₁ key₂ ns₁ ns₂) (hcalm : w.Calm)
    (hstamped : Stamped w.cluster) :
    (w.after key₂).cluster.Stamped ∧ DoesAlike key₁ w (w.after key₂) ∧
      Abreast ns₂ w (w.after key₂) (w.after key₁) ((w.after key₂).after key₁) := by
  -- That the other pass leaves all in good order is the case in which both worlds are one.
  have hsecond := (h.symm.together (.refl hcalm hstamped ns₁) rfl fun _ _ _ ↦ rfl).2
  have hstart : Abreast ns₂ w (w.after key₂) w (w.after key₂) :=
    { calm := hcalm
      calm' := hsecond.calm
      stamped := hstamped
      stamped' := hsecond.stamped
      clock := w.clock_run _
      ledger := ⟨_, .nil _, .nil _⟩
      alike := fun k p hp ↦ by rw [World.find?_after hstamped (h.symm.home rfl) hp]
      kept := fun k p o ho ↦ by
        obtain ⟨live, -, hlive, -, huid, -⟩ := hsecond.kept k p o ho
        exact ⟨o, live, ho, hlive, rfl, huid⟩ }
  obtain ⟨hresult, habreast⟩ := h.together hstart (w.roots_run _)
    fun k p hp ↦ World.find?_after hstamped (h.symm.home rfl) hp k
  exact ⟨hsecond.stamped, ⟨hresult, habreast.ledger⟩, habreast⟩

theorem commutes (h : Apart w key₁ key₂ ns₁ ns₂) (hcalm : w.Calm) (hstamped : Stamped w.cluster) :
    Commutes w key₁ key₂ := by
  obtain ⟨hstamped₂, halike₁, habreast₁⟩ := h.beforeAndAfter hcalm hstamped
  obtain ⟨hstamped₁, halike₂, habreast₂⟩ := h.symm.beforeAndAfter hcalm hstamped
  refine ⟨halike₁, halike₂, ?_⟩
  exact
    { alike := fun k p ↦ by
        -- In its own namespace each pass leaves what it leaves without the other.
        by_cases hp : p.ns = ns₁
        · have hne : p.ns ≠ ns₂ := fun he ↦ h.ne (hp.symm.trans he)
          rw [habreast₁.alike k p hne,
            World.find?_after hstamped₁ (h.symm.home (w.roots_run _)) hne]
        · rw [habreast₂.alike k p hp, World.find?_after hstamped₂ (h.home (w.roots_run _)) hp]
      known := fun k p o ho ↦ by
        obtain ⟨_, live₁, -, hlive₁, -, huid₁⟩ := habreast₁.kept k p o ho
        obtain ⟨_, live₂, -, hlive₂, -, huid₂⟩ := habreast₂.kept k p o ho
        rw [hlive₁, hlive₂]
        exact ⟨congrArg some huid₂, congrArg some huid₁⟩
      outages := habreast₁.calm'.outages.trans habreast₂.calm'.outages.symm
      isBroken := habreast₁.calm'.isBroken.trans habreast₂.calm'.isBroken.symm
      version := by
        obtain ⟨l₁, hl₁, hl₁'⟩ := habreast₁.ledger
        obtain ⟨l₂, hl₂, hl₂'⟩ := habreast₂.ledger
        have := hl₁.version
        have := hl₁'.version
        have := hl₂.version
        have := hl₂'.version
        omega
      uids := by
        obtain ⟨l₁, hl₁, hl₁'⟩ := habreast₁.ledger
        obtain ⟨l₂, hl₂, hl₂'⟩ := habreast₂.ledger
        have := hl₁.uids
        have := hl₁'.uids
        have := hl₂.uids
        have := hl₂'.uids
        omega }

end Apart

/-- Passes over two keys in different namespaces can be run in either order. -/
theorem World.reconcile_commutes {key₁ key₂ ns₁ ns₂ : String} (hw : w.cluster.Reachable)
    (houtages : w.cluster.outages = []) (hcrashes : ∀ k, w.crashes k = 0)
    (h : Apart w key₁ key₂ ns₁ ns₂) : Commutes w key₁ key₂ := by
  cases hbroken : w.cluster.isBroken with
  | true => exact .of_broken hbroken hcrashes key₁ key₂
  | false => exact h.commutes ⟨houtages, hbroken, hcrashes⟩ (.reachable hw)

namespace Commutes

open Cluster (empty)

def demoIn (ns : String) (version : Nat) : Root :=
  { Root.sample with
    metadata := { Root.sample.metadata with
      ns := some ns, uid := some ("u-" ++ ns), resourceVersion := some (toString version) } }

def neighbours (ops : List Cluster.Operation) : World :=
  { World.new (empty.performAll
      (.insert .submarine (demoIn "a" 1) :: .insert .submarine (demoIn "b" 2) :: ops)) ⟨0, 0⟩ with
    roots := (Cache.empty.applyAll [.applied (demoIn "a" 1), .applied (demoIn "b" 2)]).1 }

def emptyServer : Object .deployment where
  metadata := {
    name := some "submarine-server"
    ns := some "a"
    ownerReferences := some [⟨"submarine.apache.org/v1", "Submarine", "demo", "u-a", some true, none⟩] }
  content := show DeploymentContent from {}

theorem ActsOn.eq_of_get? {w : World} {cached : Root} (h : w.ActsOn key root)
    (hkey : splitKey? key = some (ns, name)) (hcached : w.roots.get? ns name = some cached) :
    root = cached := by
  obtain ⟨ns', name', hsplit, hget, -⟩ := h
  obtain ⟨rfl, rfl⟩ := Prod.mk.inj (Option.some.inj (hkey.symm.trans hsplit))
  exact Option.some.inj (hget.symm.trans hcached)

theorem keepsOff_of_all {w : World} {cached : Root} (hkey : splitKey? key = some (ns, name))
    (hcached : w.roots.get? ns name = some cached) (hns : cached.metadata.ns = some ns)
    (hne : ns ≠ other)
    (h : ∀ child ∈ plan cached, (w.cluster.find? child.kind ⟨ns, child.child.name⟩).all
      fun o ↦ decide (o.isControlledBy cached → o.Yields child.child cached ns)) :
    ∀ root, w.ActsOn key root → root.KeepsOff other w.cluster := by
  intro root hacts
  obtain rfl := ActsOn.eq_of_get? hacts hkey hcached
  refine .of_yields hns hne fun child hchild o ho ↦ ?_
  exact of_decide_eq_true ((Option.all_eq_true _ _).1 (h child hchild) o ho)

def sampleNeighbours : World := neighbours [.insert .deployment emptyServer]

theorem commutes_of_emptyServer :
    sampleNeighbours.ActsOn "a/demo" (demoIn "a" 1) ∧
      sampleNeighbours.ActsOn "b/demo" (demoIn "b" 2) ∧
        Commutes sampleNeighbours "a/demo" "b/demo" := by
  have hkey₁ : splitKey? "a/demo" = some ("a", "demo") := by decide +kernel
  have hkey₂ : splitKey? "b/demo" = some ("b", "demo") := by decide +kernel
  have hcached₁ : sampleNeighbours.roots.get? "a" "demo" = some (demoIn "a" 1) := by
    decide +kernel
  have hcached₂ : sampleNeighbours.roots.get? "b" "demo" = some (demoIn "b" 2) := by
    decide +kernel
  refine ⟨⟨"a", "demo", hkey₁, hcached₁, rfl, by decide +kernel⟩,
    ⟨"b", "demo", hkey₂, hcached₂, rfl, by decide +kernel⟩, ?_⟩
  refine World.reconcile_commutes (.performAll .empty _) (by decide +kernel) (fun _ ↦ rfl)
    ⟨⟨"demo", hkey₁⟩, ⟨"demo", hkey₂⟩, by decide, ⟨_, rfl⟩, ?_, ?_⟩
  · exact keepsOff_of_all hkey₁ hcached₁ rfl (by decide) (by decide +kernel)
  · exact keepsOff_of_all hkey₂ hcached₂ rfl (by decide) (by decide +kernel)

/-- The order makes a difference, though no call is to fail and the keys are in two namespaces. -/
structure Clashes (w : World) (key₁ key₂ : String) : Prop where
  reachable : w.cluster.Reachable
  outages : w.cluster.outages = []
  crashes : ∀ k, w.crashes k = 0
  cached : ∃ es, w.roots = (Cache.empty.applyAll es).1
  namespaces : ∃ p₁ p₂, splitKey? key₁ = some p₁ ∧ splitKey? key₂ = some p₂ ∧ p₁.1 ≠ p₂.1
  differs : ¬ Commutes w key₁ key₂

theorem Clashes.of_neighbours {ops : List Cluster.Operation}
    (houtages : (neighbours ops).cluster.outages = [])
    (hdiffers : ¬ Commutes (neighbours ops) "a/demo" "b/demo") :
    Clashes (neighbours ops) "a/demo" "b/demo" where
  reachable := .performAll .empty _
  outages := houtages
  crashes _ := rfl
  cached := ⟨_, rfl⟩
  namespaces := ⟨("a", "demo"), ("b", "demo"), by decide +kernel⟩
  differs := hdiffers

def strayed : World :=
  neighbours [.insert .deployment emptyServer,
    .modify .deployment ⟨"a", "submarine-server"⟩ fun o ↦
      some { o with metadata := { o.metadata with ns := some "b" } }]

def exhausted : World :=
  neighbours [.insert .deployment
    { emptyServer with
      metadata := { emptyServer.metadata with generation := some Int64.maxValue } }]

/-- The stray update does not find its object, or it meets that of the other root. The update of the
last generation breaks the cluster before the other pass, or after it. -/
theorem clashes_of_strayed_of_exhausted :
    Clashes strayed "a/demo" "b/demo" ∧ Clashes exhausted "a/demo" "b/demo" := by
  refine ⟨.of_neighbours (by decide +kernel) fun h ↦ ?_,
    .of_neighbours (by decide +kernel) fun h ↦ ?_⟩
  · have hdiffer : ((strayed.after "b/demo").run (reconcile "a/demo")).1 ≠
        (strayed.run (reconcile "a/demo")).1 := by decide +kernel
    exact hdiffer h.first.1
  · have hdiffer : ((exhausted.after "a/demo").run (reconcile "b/demo")).1 ≠
        (exhausted.run (reconcile "b/demo")).1 := by decide +kernel
    exact hdiffer h.second.1

end Commutes

end Submarine
