import Submarine.Proofs.Cluster.Naming
import Submarine.Proofs.Passes.Scrupulous
import Submarine.Proofs.Passes.Sparing

namespace Submarine

open Cluster (Effect Placed Stamped Stores Tidy Unchanged)

variable {k : Kind} {α : Type} {w w' : World} {c₀ c c' : Cluster} {p q : Place} {root : Root}
  {seen : Option Sight}

theorem Root.sameDeclaration_restated (root : Root) (status : Option InstallationStatus)
    (version : Option String) : root.SameDeclaration (root.restated status version) :=
  ⟨rfl, rfl, rfl, rfl⟩

/-- An object names its controller, so roots that control the same one have the same name. -/
theorem Object.name_eq_of_isControlledBy {o : Object k} {root root' : Root}
    (h : o.isControlledBy root) (h' : o.isControlledBy root') :
    root'.metadata.name = root.metadata.name := by
  unfold isControlledBy at h h'
  cases hlink : o.controller? with
  | none =>
    rw [hlink] at h
    contradiction
  | some link =>
    rw [hlink, Option.any_some] at h h'
    simp only [OwnerLink.pointsTo, Bool.and_eq_true, decide_eq_true_eq] at h h'
    exact h'.1.2.symm.trans h.1.2

namespace Cluster

def supply (c : Cluster) (k : Kind) (p : Place) : Int32 :=
  ((c.find? k p).map Object.available).getD 0

/-- All that can have happened to a cluster in which passes alone have written. -/
structure Since (c₀ c : Cluster) : Prop where
  origin : c₀.Placed
  placed : c.Placed
  stays : ∀ {k : Kind} {p : Place}, (c₀.find? k p).isSome → (c.find? k p).isSome
  roots : ∀ p, ∃ status version,
    c.find? .submarine p = (c₀.find? .submarine p).map (Root.restated · status version)
  supplies : ∀ {k : Kind} {p : Place} {o : Object k}, c.find? k p = some o →
    o.available = c₀.supply k p

structure Recalls (c₀ c : Cluster) (p : Place) (root : Root) : Prop where
  declared : ∃ root₀ status version, c₀.find? .submarine p = some root₀ ∧
    root = Root.restated root₀ status version
  remembers : c.Remembers p root

namespace Since

theorem refl (hc : Placed c) : Since c c where
  origin := hc
  placed := hc
  stays := id
  roots p := Spares.own_of_eq rfl
  supplies h := by simp [supply, h]

theorem unchanged (h : Since c₀ c) (hsame : Unchanged c c') : Since c₀ c' where
  origin := h.origin
  placed := h.placed.tidy (.unchanged hsame)
  stays {k p} hthere := by
    rw [hsame.find?]
    exact h.stays hthere
  roots p := by
    rw [hsame.find?]
    exact h.roots p
  supplies hfind := h.supplies (hsame.find? .. ▸ hfind)

theorem supply_eq_zero (h : Since c₀ c) (hfree : c.find? k p = none) : c₀.supply k p = 0 := by
  cases hthere : c₀.find? k p with
  | none => rw [supply, hthere, Option.map_none, Option.getD_none]
  | some old =>
    have hstays := h.stays (Option.isSome_iff_exists.2 ⟨old, hthere⟩)
    rw [hfree] at hstays
    contradiction

section Stores

variable {o : Object k}

theorem stays_of_stores (h : Since c₀ c) (hstores : Stores c q o c') {j : Kind} {p : Place}
    (hthere : (c₀.find? j p).isSome) : (c'.find? j p).isSome := by
  by_cases hself : j = k ∧ p = q
  · obtain ⟨rfl, rfl⟩ := hself
    rw [hstores.find?_self]
    rfl
  · rw [hstores.find?_of_ne _ _ hself]
    exact h.stays hthere

theorem supplies_of_stores (h : Since c₀ c) (hstores : Stores c q o c')
    (havailable : o.available = c₀.supply k q) {j : Kind} {p : Place} {o' : Object j}
    (hfind : c'.find? j p = some o') : o'.available = c₀.supply j p := by
  by_cases hself : j = k ∧ p = q
  · obtain ⟨rfl, rfl⟩ := hself
    obtain rfl := Option.some.inj (hstores.find?_self.symm.trans hfind)
    exact havailable
  · exact h.supplies ((hstores.find?_of_ne _ _ hself).symm.trans hfind)

theorem child (h : Since c₀ c) (hk : k ≠ .submarine) (hplace : o.place = .ok q)
    (hstores : Stores c q o c') (havailable : o.available = c₀.supply k q) : Since c₀ c' where
  origin := h.origin
  placed := h.placed.tidy (.stores q o hplace hstores)
  stays := h.stays_of_stores hstores
  roots p := by
    rw [hstores.find?_of_ne _ _ fun hself ↦ hk hself.1.symm]
    exact h.roots p
  supplies := h.supplies_of_stores hstores havailable

end Stores

theorem status {status : InstallationStatus} (h : Since c₀ c) (hrecalls : Recalls c₀ c p root)
    (hfind : c.find? .submarine p = some root) (hstores : Stores c p (root.withStatus status) c') :
    Since c₀ c' where
  origin := h.origin
  placed := by
    have hkept : (root.withStatus status).place = root.place := rfl
    exact h.placed.tidy (.stores p _ (hkept.trans (h.placed.place hfind)) hstores)
  stays := h.stays_of_stores hstores
  roots q := by
    by_cases hq : q = p
    · subst hq
      obtain ⟨root₀, status₀, version₀, hfind₀, rfl⟩ := hrecalls.declared
      rw [hstores.find?_self, hfind₀]
      exact ⟨some status, some (toString (c.version + 1)), rfl⟩
    · rw [hstores.find?_of_ne _ _ fun hself ↦ hq hself.2]
      exact h.roots q
  supplies hfound := by
    have hkept : (root.withStatus status).available = root.available := rfl
    exact h.supplies_of_stores hstores (hkept.trans (h.supplies hfind)) hfound

/-- What is stored is recalled. -/
theorem recalls (h : Since c₀ c) (hfind : c.find? .submarine p = some root) :
    Recalls c₀ c p root where
  declared := by
    obtain ⟨status, version, hroots⟩ := h.roots p
    obtain ⟨root₀, hfind₀, rfl⟩ := Option.map_eq_some_iff.1 (hroots.symm.trans hfind)
    exact ⟨root₀, status, version, hfind₀, rfl⟩
  remembers := .of_find? h.placed.stamped hfind

end Since

namespace Recalls

theorem effect (h : Recalls c₀ c p root) (he : Effect c c') : Recalls c₀ c' p root :=
  ⟨h.declared, h.remembers.effect he⟩

theorem place (h : Recalls c₀ c p root) (hc : Placed c₀) : root.place = .ok p := by
  obtain ⟨root₀, status, version, hfind, rfl⟩ := h.declared
  have hkept : (Root.restated root₀ status version).place = root₀.place := rfl
  exact hkept.trans (hc.place hfind)

theorem ns (h : Recalls c₀ c p root) (hc : Placed c₀) : root.metadata.ns = some p.ns :=
  (Object.place_eq_ok_iff.1 (h.place hc)).2

end Recalls

end Cluster

inductive Object.IsDone (c₀ : Cluster) (q : Place) : {k : Kind} → Object k → Prop where
  | child {k : Kind} {o : Object k} {p : Place} {root : Root} {child : Child k}
      (declared : c₀.find? .submarine p = some root) (mem : ⟨k, child⟩ ∈ plan root)
      (place : q = ⟨p.ns, child.name⟩) (controlled : o.isControlledBy root)
      (agrees : o.agreesWith (child.build root)) : IsDone c₀ q o
  | status {root : Root} (reports : root.Reports c₀.supply) : IsDone c₀ q (k := .submarine) root

def Cluster.Done (c₀ c : Cluster) (k : Kind) (q : Place) : Prop :=
  ∃ o : Object k, c.find? k q = some o ∧ o.IsDone c₀ q

namespace Object.IsDone

theorem withVersion {o : Object k} (h : o.IsDone c₀ q) (n : Nat) :
    (o.withVersion n).IsDone c₀ q := by
  cases h with
  | child declared mem place controlled agrees =>
    refine .child declared mem place ?_ agrees
    exact (Object.isControlledBy_congr rfl rfl rfl).trans controlled
  | status reports => exact .status reports

theorem of_recalls {child : Child k} {o : Object k} (h : Cluster.Recalls c₀ c p root)
    (hmem : ⟨k, child⟩ ∈ plan root) (hcontrolled : o.isControlledBy root)
    (hagrees : o.agreesWith (child.build root)) : o.IsDone c₀ ⟨p.ns, child.name⟩ := by
  obtain ⟨root₀, status, version, hfind, rfl⟩ := h.declared
  have hsame := (Root.sameDeclaration_restated root₀ status version).symm
  refine .child hfind (hsame.plan ▸ hmem) rfl ?_ ?_
  · rw [hsame.isControlledBy, hcontrolled]
  · have hbuild := hsame.build hmem
    dsimp only at hbuild
    rw [hbuild, hagrees]

/-- Nobody else has done what the root finds to be done on a child of its own. -/
theorem not_of_drifted {child : Child k} {live : Object k} (hc : Placed c₀)
    (h : Cluster.Recalls c₀ c p root) (hmem : ⟨k, child⟩ ∈ plan root)
    (hcontrolled : live.isControlledBy root)
    (hdrifted : live.agreesWith (child.build root) = false) :
    ¬ live.IsDone c₀ ⟨p.ns, child.name⟩ := by
  intro hdone
  cases hdone with
  | @child _ _ p' root' child' declared mem place controlled agrees =>
    obtain ⟨hns, hname⟩ := Place.mk.inj place
    have hroot := Object.place_eq_ok_iff.1 (h.place hc)
    have hroot' := Object.place_eq_ok_iff.1 (hc.place declared)
    -- Both roots control the object and are in its namespace, so they are the same root.
    have hnames := Object.name_eq_of_isControlledBy hcontrolled controlled
    rw [hroot.1, hroot'.1] at hnames
    obtain rfl : p' = p := by
      cases p
      cases p'
      simp_all
    obtain ⟨root₀, status, version, hfind, rfl⟩ := h.declared
    obtain rfl := Option.some.inj (declared.symm.trans hfind)
    have hsame := (Root.sameDeclaration_restated root' status version).symm
    rw [hsame.plan] at mem
    have hlabel : AnyChild.label ⟨k, child'⟩ = AnyChild.label ⟨k, child⟩ := Prod.ext rfl hname.symm
    have heq := List.inj_on_of_nodup_map (Plan.nodup_labels _) mem hmem hlabel
    obtain rfl : child' = child := by simpa using heq
    have hbuild := hsame.build hmem
    dsimp only at hbuild
    rw [← hbuild, agrees] at hdrifted
    contradiction
  | status => exact Plan.kind_ne_submarine hmem rfl

end Object.IsDone

namespace Cluster.Done

theorem of_stores {o : Object k} (hstores : Stores c q o c') (h : o.IsDone c₀ q) : Done c₀ c' k q :=
  ⟨_, hstores.find?_self, h.withVersion _⟩

theorem congr (h : Done c₀ c k q) (hfind : c'.find? k q = c.find? k q) : Done c₀ c' k q := by
  obtain ⟨o, ho, hdone⟩ := h
  exact ⟨o, hfind.trans ho, hdone⟩

end Cluster.Done

namespace Call

def converges (call : Call) (p : Place) (child : AnyChild) : Bool :=
  (call.verb = .create || call.verb = .update) && call.kind = child.kind &&
    call.place = ⟨p.ns, child.child.name⟩

def reports (call : Call) (p : Place) : Bool := call = ⟨.updateStatus, .submarine, p⟩

def IsFor (call : Call) (p : Place) (root : Root) : Prop :=
  call.reports p ∨ ∃ child ∈ plan root, call.converges p child

end Call

def written? (verb : Verb) (o : Object k) (reply : Reply k) : Option Call :=
  match reply, o.place with
  | some (.ok _), .ok p => some ⟨verb, k, p⟩
  | _, _ => none

def World.written? (w : World) : Request → Option Call
  | .create _ o => Submarine.written? .create o (w.serve (.create _ o)).1
  | .update _ o => Submarine.written? .update o (w.serve (.update _ o)).1
  | .updateStatus _ o => Submarine.written? .updateStatus o (w.serve (.updateStatus _ o)).1
  | .cachedRoot _ _ | .get _ _ _ | .publish _ | .now => none

/-- What a request of a pass comes to. A write does what was not done. -/
inductive Cluster.Lands (c₀ : Cluster) (p : Place) (c c' : Cluster) : Option Call → Prop where
  | nothing (same : Unchanged c c') : Lands c₀ p c c' none
  | writes {verb : Verb} {k : Kind} {q : Place} {o : Object k} {root : Root}
      (declared : c₀.find? .submarine p = some root) (own : Call.IsFor ⟨verb, k, q⟩ p root)
      (due : ¬ Done c₀ c k q) (stores : Stores c q o c') (done : o.IsDone c₀ q) :
      Lands c₀ p c c' (some ⟨verb, k, q⟩)

namespace Cluster.Lands

theorem of_child {verb : Verb} {child : Child k} {o : Object k} (h : Recalls c₀ c p root)
    (hmem : ⟨k, child⟩ ∈ plan root) (hverb : verb = .create ∨ verb = .update)
    (hdue : ¬ Done c₀ c k ⟨p.ns, child.name⟩) (hstores : Stores c ⟨p.ns, child.name⟩ o c')
    (hdone : o.IsDone c₀ ⟨p.ns, child.name⟩) :
    Lands c₀ p c c' (some ⟨verb, k, ⟨p.ns, child.name⟩⟩) := by
  obtain ⟨root₀, status, version, hfind, rfl⟩ := h.declared
  have hplan := (Root.sameDeclaration_restated root₀ status version).plan
  refine .writes hfind (.inr ⟨⟨k, child⟩, hplan ▸ hmem, ?_⟩) hdue hstores hdone
  simpa [Call.converges] using hverb

theorem of_status {o : Root} (h : Recalls c₀ c p root) (hdue : ¬ Done c₀ c .submarine p)
    (hstores : Stores c p o c') (hdone : o.IsDone c₀ p) :
    Lands c₀ p c c' (some ⟨.updateStatus, .submarine, p⟩) := by
  obtain ⟨root₀, status, version, hfind, -⟩ := h.declared
  exact .writes hfind (.inl (decide_eq_true rfl)) hdue hstores hdone

theorem done {call? : Option Call} (h : Lands c₀ p c c' call?) (hdone : Done c₀ c k q) :
    Done c₀ c' k q := by
  cases h with
  | nothing same => exact hdone.congr (same.find? k q)
  | @writes verb j q' o root declared own due stores done =>
    by_cases hself : k = j ∧ q = q'
    · obtain ⟨rfl, rfl⟩ := hself
      exact absurd hdone due
    · exact hdone.congr (stores.find?_of_ne k q hself)

end Cluster.Lands

section Written

variable {verb : Verb} {o : Object k}

theorem written?_of_ok (hplace : o.place = .ok q) (stored : Object k) :
    written? verb o (some (.ok stored)) = some ⟨verb, k, q⟩ := by
  simp [written?, hplace]

theorem written?_eq_none {reply : Reply k} (h : ∀ stored, reply ≠ some (.ok stored)) :
    written? verb o reply = none := by
  rcases reply with _ | e | stored
  · rfl
  · rfl
  · exact absurd rfl (h stored)

end Written

structure Pass.Bound (c₀ : Cluster) (p : Place) (root : Root) (seen : Option Sight) (rest : Pass α)
    (c : Cluster) : Prop where
  recalls : Cluster.Recalls c₀ c p root
  guarded : rest.Guarded root (plan root) seen c
  scrupulous : rest.Scrupulous root c₀.supply (fun _ ↦ True) seen

namespace Pass.Bound

theorem effect {rest : Pass α} (h : rest.Bound c₀ p root seen c) (he : Effect c c') :
    rest.Bound c₀ p root seen c' :=
  ⟨h.recalls.effect he, h.guarded.effect he, h.scrupulous⟩

section Writes

variable {o : Object k} {reply : Reply k} {next : Except ApiError (Object k) → Pass α}

theorem create (h : (Pass.ask (.create k o) next).Bound c₀ p root seen w.cluster)
    (hw : Cluster.Since c₀ w.cluster) (hserve : w.serve (.create k o) = (reply, w')) :
    Cluster.Since c₀ w'.cluster ∧
      Cluster.Lands c₀ p w.cluster w'.cluster (written? .create o reply) := by
  obtain ⟨child, ns, hmem, hns, hnewborn⟩ := h.guarded.disciplined.1
  obtain ⟨hplace, hcontrolled, hcontent⟩ := Child.newborn_spec hnewborn
  obtain rfl := Option.some.inj ((h.recalls.ns hw.origin).symm.trans hns)
  rcases Cluster.create_spec (World.create_of_serve hserve) with
    ⟨q, uid, hq, hfree, hstores, rfl, -⟩ | ⟨hsame, hno⟩
  · obtain rfl := Except.ok.inj (hq.symm.trans hplace)
    have hborn : (o.born uid).place = .ok ⟨p.ns, child.name⟩ :=
      (Object.place_congr rfl rfl).trans hplace
    have havailable : (o.born uid).available = c₀.supply k ⟨p.ns, child.name⟩ := by
      rw [hw.supply_eq_zero hfree]
      change o.content.available = 0
      rw [hcontent]
      exact AnyChild.available_build hmem
    have hdone : (o.born uid).IsDone c₀ ⟨p.ns, child.name⟩ := by
      refine .of_recalls h.recalls hmem ?_ ?_
      · exact (Object.isControlledBy_congr rfl rfl rfl).trans hcontrolled
      · change o.content.agreesWith (child.build root).content = true
        rw [hcontent]
        exact Content.agreesWith_self _
    rw [written?_of_ok hplace]
    refine ⟨hw.child (Plan.kind_ne_submarine hmem) hborn hstores havailable, ?_⟩
    refine .of_child h.recalls hmem (.inl rfl) ?_ hstores hdone
    rintro ⟨old, hold, -⟩
    rw [hfree] at hold
    contradiction
  · rw [written?_eq_none hno]
    exact ⟨hw.unchanged hsame, .nothing hsame⟩

theorem update (h : (Pass.ask (.update k o) next).Bound c₀ p root seen w.cluster)
    (hw : Cluster.Since c₀ w.cluster) (hserve : w.serve (.update k o) = (reply, w')) :
    Cluster.Since c₀ w'.cluster ∧
      Cluster.Lands c₀ p w.cluster w'.cluster (written? .update o reply) := by
  obtain ⟨child, ns, live, hmem, hns, hseen, hcontrolled, rfl⟩ := h.guarded.disciplined.1
  obtain ⟨q, live', hseen', hdrifted⟩ := h.scrupulous.1
  obtain ⟨-, rfl⟩ : _ ∧ live = live' := by simpa using hseen.symm.trans hseen'
  obtain rfl := Option.some.inj ((h.recalls.ns hw.origin).symm.trans hns)
  have hk := Plan.kind_ne_submarine hmem
  rcases Cluster.write_spec (World.update_of_serve hserve) with
    ⟨q, stored, merged, hq, hfind, hagrees, hmerged, hstores, rfl, -⟩ | ⟨hsame, hno⟩
  · -- The version written against is that of the object seen, so that is what is stored.
    obtain ⟨rfl, rfl⟩ := (h.guarded.remembers _ hseen).eq_of_versionAgrees hfind rfl hagrees
    obtain ⟨generation, -, rfl⟩ := Option.map_eq_some_iff.1 hmerged
    rw [written?_of_ok hq]
    refine ⟨hw.child hk ?_ hstores ?_, .of_child h.recalls hmem (.inr rfl) ?_ hstores ?_⟩
    · exact (Object.place_congr rfl rfl).trans hq
    · exact (Content.available_withStatusOf _ _).trans (hw.supplies hfind)
    · rintro ⟨old, hold, hdone⟩
      obtain rfl := Option.some.inj (hfind.symm.trans hold)
      exact Object.IsDone.not_of_drifted hw.origin h.recalls hmem hcontrolled hdrifted hdone
    · refine .of_recalls h.recalls hmem ?_ (Content.agreesWith_withStatusOf hk _ _)
      exact (Object.isControlledBy_congr rfl rfl rfl).trans hcontrolled
  · rw [written?_eq_none hno]
    exact ⟨hw.unchanged hsame, .nothing hsame⟩

theorem updateStatus (h : (Pass.ask (.updateStatus k o) next).Bound c₀ p root seen w.cluster)
    (hw : Cluster.Since c₀ w.cluster) (hserve : w.serve (.updateStatus k o) = (reply, w')) :
    Cluster.Since c₀ w'.cluster ∧
      Cluster.Lands c₀ p w.cluster w'.cluster (written? .updateStatus o reply) := by
  obtain ⟨status, heq, hreports, hdue⟩ := h.scrupulous.1
  obtain ⟨rfl, ho⟩ := AnyObject.mk.inj heq
  obtain rfl := eq_of_heq ho
  rcases Cluster.write_spec (World.updateStatus_of_serve hserve) with
    ⟨q, stored, merged, hq, hfind, hagrees, hmerged, hstores, rfl, -⟩ | ⟨hsame, hno⟩
  · -- The version written against is that of the root of the pass, so that is what is stored.
    obtain ⟨rfl, rfl⟩ := h.recalls.remembers.eq_of_versionAgrees hfind rfl hagrees
    obtain rfl := Option.some.inj hmerged
    rw [written?_of_ok hq]
    refine ⟨hw.status h.recalls hfind hstores, .of_status h.recalls ?_ hstores (.status hreports)⟩
    rintro ⟨old, hold, hdone⟩
    obtain rfl := Option.some.inj (hfind.symm.trans hold)
    cases hdone with
    | child _ mem => exact Plan.kind_ne_submarine mem rfl
    | status reports => exact hdue reports
  · rw [written?_eq_none hno]
    exact ⟨hw.unchanged hsame, .nothing hsame⟩

end Writes

/-- However it is served, a request writes only what was not done. -/
theorem lands {r : Request} {next : r.Answer → Pass α}
    (h : (Pass.ask r next).Bound c₀ p root seen w.cluster) (hw : Cluster.Since c₀ w.cluster) :
    Cluster.Since c₀ (w.serve r).2.cluster ∧
      Cluster.Lands c₀ p w.cluster (w.serve r).2.cluster (w.written? r) := by
  cases r with
  | create k o => exact h.create hw (Prod.eta _).symm
  | update k o => exact h.update hw (Prod.eta _).symm
  | updateStatus k o => exact h.updateStatus hw (Prod.eta _).symm
  | cachedRoot | get | publish | now =>
    exact ⟨hw.unchanged (w.unchanged_serve_of_not_write rfl),
      .nothing (w.unchanged_serve_of_not_write rfl)⟩

end Pass.Bound

/-- What is answered of an object is true of what is stored then. -/
theorem Cluster.Since.credits {r : Request} {answer : r.Answer} (hw : Cluster.Since c₀ w.cluster)
    (hw' : Cluster.Since c₀ w'.cluster) (hserve : w.serve r = (some answer, w')) :
    r.Credits c₀.supply answer := by
  cases r with
  | get k ns name =>
    intro live hlive
    obtain ⟨-, hfound, -⟩ := Cluster.get_spec (World.get_of_serve hserve)
    obtain ⟨hfind, -⟩ := hfound live (congrArg some hlive)
    exact ⟨hw.placed.place hfind, hw.supplies hfind⟩
  | create k o =>
    rintro stored q rfl hplace
    rcases Cluster.create_spec (World.create_of_serve hserve) with
      ⟨p, uid, hp, -, hstores, hreply, -⟩ | ⟨-, hno⟩
    · obtain rfl := Except.ok.inj (hp.symm.trans hplace)
      obtain rfl := Except.ok.inj (Option.some.inj hreply)
      exact hw'.supplies hstores.find?_self
    · exact absurd rfl (hno stored)
  | update k o =>
    rintro stored q rfl hplace
    rcases Cluster.write_spec (World.update_of_serve hserve) with
      ⟨p, -, merged, hp, -, -, -, hstores, hreply, -⟩ | ⟨-, hno⟩
    · obtain rfl := Except.ok.inj (hp.symm.trans hplace)
      obtain rfl := Except.ok.inj (Option.some.inj hreply)
      exact hw'.supplies hstores.find?_self
    · exact absurd rfl (hno stored)
  | updateStatus | cachedRoot | publish | now => trivial

theorem Pass.Bound.next {r : Request} {next : r.Answer → Pass α} {answer : r.Answer}
    (h : (Pass.ask r next).Bound c₀ p root seen w.cluster) (hw : Cluster.Since c₀ w.cluster)
    (hserve : w.serve r = (some answer, w')) :
    (next answer).Bound c₀ p root (sightAfter seen r answer) w'.cluster := by
  have heffect := w.effect_serve r
  obtain ⟨hw', -⟩ := h.lands hw
  rw [hserve] at heffect hw'
  refine ⟨h.recalls.effect heffect, h.guarded.next hw.placed.stamped hserve, ?_⟩
  exact h.scrupulous.2 answer (hw.credits hw' hserve)

end Submarine
