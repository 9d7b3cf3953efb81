import Submarine.Proofs.Cluster.Likeness
import Submarine.Proofs.Passes.Repeating
import Submarine.Proofs.Passes.Walking

namespace Submarine

open Cluster (Stamped Unchanged)

variable {k : Kind} {α β : Type} {s s' w w' : World}

structure Ledger where
  calls : List Call
  events : List Event
  -- What was told to the watches, without uids and versions.
  changes : List Change
  uids : Nat

structure Ledger.Between (l : Ledger) (s w : World) : Prop where
  calls : w.cluster.calls = s.cluster.calls ++ l.calls
  events : w.events = s.events ++ l.events
  log : w.cluster.log.map Change.anonymous = s.cluster.log.map Change.anonymous ++ l.changes
  version : w.cluster.version = s.cluster.version + l.changes.length
  uids : w.cluster.uids = s.cluster.uids + l.uids

def World.publish (w : World) (event : Event) : World := { w with events := w.events ++ [event] }

namespace Ledger.Between

variable {l : Ledger}

theorem nil (s : World) : Between ⟨[], [], [], 0⟩ s s := by
  constructor <;> simp

theorem record (h : l.Between s w) (call : Call) :
    Between { l with calls := l.calls ++ [call] } s (w.withCluster (w.cluster.record call)) where
  calls := by simp [World.withCluster, Cluster.record, h.calls]
  events := h.events
  log := h.log
  version := h.version
  uids := h.uids

theorem giveUid (h : l.Between s w) :
    Between { l with uids := l.uids + 1 } s (w.withCluster w.cluster.giveUid.2) where
  calls := h.calls
  events := h.events
  log := h.log
  version := h.version
  uids := congrArg (· + 1) h.uids

theorem commit (h : l.Between s w) (p : Place) (o : Object k) :
    Between { l with changes := l.changes ++ [⟨⟨k, o.anonymous⟩, false⟩] } s
      (w.withCluster (w.cluster.commit p o).2) where
  calls := h.calls
  events := h.events
  log := by simp [World.withCluster, Cluster.commit, Change.anonymous, h.log]
  version := by simp [World.withCluster, Cluster.commit, h.version, Nat.add_assoc]
  uids := h.uids

theorem publish (h : l.Between s w) (event : Event) :
    Between { l with events := l.events ++ [event] } s (w.publish event) where
  calls := h.calls
  events := by simp [World.publish, h.events]
  log := h.log
  version := h.version
  uids := h.uids

end Ledger.Between

/-- The two passes end alike: with the same failure, or with values that `V` relates. `P` relates
the worlds that they leave. -/
inductive Together (P : World → World → Prop) (V : α → α → Prop) (w w' : World) (p p' : Pass α) :
    Prop where
  | well (a a' : α) (v v' : World) (run : w.run p = (.ok a, v)) (run' : w'.run p' = (.ok a', v'))
      (keeps : P v v') (values : V a a')
  | failed (f : Failure) (v v' : World) (run : w.run p = (.error f, v))
      (run' : w'.run p' = (.error f, v')) (keeps : P v v')

namespace Together

variable {P Q : World → World → Prop} {V : α → α → Prop} {U : β → β → Prop} {p p' : Pass α}

theorem done {a a' : α} (h : P w w') (ha : V a a') : Together P V w w' (.done a) (.done a') :=
  .well a a' w w' rfl rfl h ha

theorem fail (f : Failure) (h : P w w') : Together P V w w' (.fail f) (.fail f) :=
  .failed f w w' rfl rfl h

theorem bind {f f' : α → Pass β} (h : Together P V w w' p p') (hPQ : ∀ v v', P v v' → Q v v')
    (hf : ∀ a a' v v', V a a' → P v v' → Together Q U v v' (f a) (f' a')) :
    Together Q U w w' (p.bind f) (p'.bind f') := by
  cases h with
  | failed e v v' run run' keeps =>
    refine .failed e v v' ?_ ?_ (hPQ v v' keeps)
    · rw [World.run_bind, run]
    · rw [World.run_bind, run']
  | well a a' v v' run run' keeps values =>
    have hrun := World.run_bind_of_ok (f := f) run
    have hrun' := World.run_bind_of_ok (f := f') run'
    cases hf a a' v v' values keeps with
    | well b b' u u' run₂ run₂' keeps₂ values₂ =>
      exact .well b b' u u' (hrun.trans run₂) (hrun'.trans run₂') keeps₂ values₂
    | failed e u u' run₂ run₂' keeps₂ =>
      exact .failed e u u' (hrun.trans run₂) (hrun'.trans run₂') keeps₂

theorem ask {r r' : Request} {next : r.Answer → Pass α} {next' : r'.Answer → Pass α}
    {answer : r.Answer} {answer' : r'.Answer} {v v' : World}
    (hserve : w.serve r = (some answer, v)) (hserve' : w'.serve r' = (some answer', v'))
    (h : Together P V v v' (next answer) (next' answer')) :
    Together P V w w' (.ask r next) (.ask r' next') := by
  have hrun : w.run (.ask r next) = v.run (next answer) := World.run_ask_of_serve hserve
  have hrun' : w'.run (.ask r' next') = v'.run (next' answer') := World.run_ask_of_serve hserve'
  cases h with
  | well a a' u u' run run' keeps values =>
    exact .well a a' u u' (hrun.trans run) (hrun'.trans run') keeps values
  | failed e u u' run run' keeps =>
    exact .failed e u u' (hrun.trans run) (hrun'.trans run') keeps

end Together

/-- Two worlds in which the same has been done since the first two, and which differ in the other
namespace only. What there was in the first world is there in both, with its uid. -/
structure Abreast (other : String) (s s' w w' : World) : Prop where
  calm : w.Calm
  calm' : w'.Calm
  stamped : w.cluster.Stamped
  stamped' : w'.cluster.Stamped
  clock : w'.clock = w.clock
  ledger : ∃ l : Ledger, l.Between s w ∧ l.Between s' w'
  alike : ∀ k p, p.ns ≠ other →
    (w'.cluster.find? k p).map Object.anonymous = (w.cluster.find? k p).map Object.anonymous
  kept : ∀ k p (o : Object k), s.cluster.find? k p = some o → ∃ live live',
    w.cluster.find? k p = some live ∧ w'.cluster.find? k p = some live' ∧
      live.metadata.uid = o.metadata.uid ∧ live'.metadata.uid = o.metadata.uid

namespace World.Calm

theorem withCluster (h : w.Calm) {c : Cluster} (houtages : c.outages = w.cluster.outages)
    (hbroken : c.isBroken = w.cluster.isBroken) : (w.withCluster c).Calm where
  outages := houtages.trans h.outages
  isBroken := hbroken.trans h.isBroken
  crashes := h.crashes

end World.Calm

theorem World.serve_create_of_eq {o : Object k} {reply : Reply k} {c : Cluster}
    (h : w.cluster.create o = (reply, c)) : w.serve (.create k o) = (reply, w.withCluster c) := by
  change w.answer (.create k o) = _
  rw [answer, h]
  rfl

theorem World.serve_update_of_eq {o : Object k} {reply : Reply k} {c : Cluster}
    (h : w.cluster.update o = (reply, c)) : w.serve (.update k o) = (reply, w.withCluster c) := by
  change w.answer (.update k o) = _
  rw [answer, h]
  rfl

theorem World.serve_updateStatus_of_eq {o : Object k} {reply : Reply k} {c : Cluster}
    (h : w.cluster.updateStatus o = (reply, c)) :
    w.serve (.updateStatus k o) = (reply, w.withCluster c) := by
  change w.answer (.updateStatus k o) = _
  rw [answer, h]
  rfl

namespace Abreast

variable {other : String}

theorem unchanged {v v' : World} (h : Abreast other s s' w w') (hcalm : v.Calm) (hcalm' : v'.Calm)
    (hsame : Unchanged w.cluster v.cluster) (hsame' : Unchanged w'.cluster v'.cluster)
    (hclock : v'.clock = v.clock) (hledger : ∃ l : Ledger, l.Between s v ∧ l.Between s' v') :
    Abreast other s s' v v' where
  calm := hcalm
  calm' := hcalm'
  stamped := h.stamped.effect (.unchanged hsame)
  stamped' := h.stamped'.effect (.unchanged hsame')
  clock := hclock
  ledger := hledger
  alike k p hp := by rw [hsame.find?, hsame'.find?, h.alike k p hp]
  kept k p o ho := by
    rw [hsame.find?, hsame'.find?]
    exact h.kept k p o ho

theorem record (h : Abreast other s s' w w') (call : Call) :
    Abreast other s s' (w.withCluster (w.cluster.record call))
      (w'.withCluster (w'.cluster.record call)) := by
  obtain ⟨l, hl, hl'⟩ := h.ledger
  exact h.unchanged (h.calm.withCluster rfl rfl) (h.calm'.withCluster rfl rfl) ⟨rfl, rfl, rfl⟩
    ⟨rfl, rfl, rfl⟩ h.clock ⟨_, hl.record call, hl'.record call⟩

theorem giveUid (h : Abreast other s s' w w') :
    Abreast other s s' (w.withCluster w.cluster.giveUid.2)
      (w'.withCluster w'.cluster.giveUid.2) := by
  obtain ⟨l, hl, hl'⟩ := h.ledger
  exact h.unchanged (h.calm.withCluster rfl rfl) (h.calm'.withCluster rfl rfl) ⟨rfl, rfl, rfl⟩
    ⟨rfl, rfl, rfl⟩ h.clock ⟨_, hl.giveUid, hl'.giveUid⟩

theorem publish (h : Abreast other s s' w w') (event : Event) :
    Abreast other s s' (w.publish event) (w'.publish event) := by
  obtain ⟨l, hl, hl'⟩ := h.ledger
  exact h.unchanged ⟨h.calm.outages, h.calm.isBroken, h.calm.crashes⟩
    ⟨h.calm'.outages, h.calm'.isBroken, h.calm'.crashes⟩ (.refl _) (.refl _) h.clock
    ⟨_, hl.publish event, hl'.publish event⟩

/-- Like objects are stored in the same place. -/
theorem commit (h : Abreast other s s' w w') {p : Place} {o o' : Object k}
    (hlike : o'.anonymous = o.anonymous)
    (huid : ∀ old, s.cluster.find? k p = some old →
      o.metadata.uid = old.metadata.uid ∧ o'.metadata.uid = old.metadata.uid) :
    Abreast other s s' (w.withCluster (w.cluster.commit p o).2)
      (w'.withCluster (w'.cluster.commit p o').2) where
  calm := h.calm.withCluster rfl rfl
  calm' := h.calm'.withCluster rfl rfl
  stamped := h.stamped.effect (.stores p o (Cluster.stores_commit (.refl _) p o).2)
  stamped' := h.stamped'.effect (.stores p o' (Cluster.stores_commit (.refl _) p o').2)
  clock := h.clock
  ledger := by
    obtain ⟨l, hl, hl'⟩ := h.ledger
    refine ⟨_, hl.commit p o, ?_⟩
    rw [← hlike]
    exact hl'.commit p o'
  alike j q hq := by
    have hstores := (Cluster.stores_commit (.refl w.cluster) p o).2
    have hstores' := (Cluster.stores_commit (.refl w'.cluster) p o').2
    change ((w'.cluster.commit p o').2.find? j q).map Object.anonymous =
      ((w.cluster.commit p o).2.find? j q).map Object.anonymous
    by_cases hself : j = k ∧ q = p
    · obtain ⟨rfl, rfl⟩ := hself
      rw [hstores.find?_self, hstores'.find?_self]
      exact congrArg some hlike
    · rw [hstores.find?_of_ne j q hself, hstores'.find?_of_ne j q hself, h.alike j q hq]
  kept j q old hold := by
    have hstores := (Cluster.stores_commit (.refl w.cluster) p o).2
    have hstores' := (Cluster.stores_commit (.refl w'.cluster) p o').2
    by_cases hself : j = k ∧ q = p
    · obtain ⟨rfl, rfl⟩ := hself
      obtain ⟨hsame, hsame'⟩ := huid old hold
      exact ⟨_, _, hstores.find?_self, hstores'.find?_self, hsame, hsame'⟩
    · obtain ⟨live, live', hfind, hfind', hsame⟩ := h.kept j q old hold
      exact ⟨live, live', (hstores.find?_of_ne j q hself).trans hfind,
        (hstores'.find?_of_ne j q hself).trans hfind', hsame⟩

end Abreast

/-- An update of the object neither reaches for a vacant place in the other namespace nor lacks a
generation to give. -/
structure Object.Tame (o : Object k) (child : Child k) (root : Root) (ns other : String)
    (c : Cluster) : Prop where
  reaches : ∀ q, o.place = .ok q → q.ns = other → (c.find? k q).isSome
  next : o.place = .ok ⟨ns, child.name⟩ →
    (Cluster.generationAfter? o (child.renewed root o)).isSome

structure Sweeping (root : Root) (ns other : String) (s s' w w' : World) : Prop
    extends Abreast other s s' w w' where
  roots : ∀ p, p.ns ≠ other →
    w'.cluster.find? .submarine p = w.cluster.find? .submarine p
  tame : ∀ child ∈ plan root, ∀ o : Object child.kind,
    w.cluster.find? child.kind ⟨ns, child.child.name⟩ = some o → o.isControlledBy root →
      o.agreesWith (child.child.build root) ∨ o.Tame child.child root ns other s.cluster

/-- What an update of a child stores depends on neither uid nor version of the live object, and keeps
both. -/
theorem Child.replaced?_renewed {child : Child k} {root : Root} {live : Object k}
    (hk : k ≠ .submarine)
    (hnext : (Cluster.generationAfter? live (child.renewed root live)).isSome)
    (uid version : Option String) :
    ∃ merged, Cluster.replaced? live (child.renewed root live) = some merged ∧
      Cluster.replaced? (live.marked uid version) (child.renewed root (live.marked uid version)) =
        some (merged.marked uid version) ∧
      merged.metadata.uid = live.metadata.uid ∧ merged.agreesWith (child.build root) := by
  have hmerge : (Cluster.replaced? live (child.renewed root live)).isSome := by
    rw [Cluster.replaced?, Option.isSome_map]
    exact hnext
  obtain ⟨merged, hmerge⟩ := Option.isSome_iff_exists.1 hmerge
  obtain ⟨generation, hgeneration, rfl⟩ := Option.map_eq_some_iff.1 hmerge
  refine ⟨_, hmerge, ?_, rfl, Content.agreesWith_withStatusOf hk _ _⟩
  exact Option.map_eq_some_iff.2 ⟨generation, hgeneration, rfl⟩

namespace Sweeping

variable {root : Root} {ns other : String} {child : Child k}

theorem recorded (h : Sweeping root ns other s s' w w') (call : Call) :
    Sweeping root ns other s s' (w.withCluster (w.cluster.record call))
      (w'.withCluster (w'.cluster.record call)) :=
  { h.toAbreast.record call with roots := h.roots, tame := h.tame }

theorem uidGiven (h : Sweeping root ns other s s' w w') :
    Sweeping root ns other s s' (w.withCluster w.cluster.giveUid.2)
      (w'.withCluster w'.cluster.giveUid.2) :=
  { h.toAbreast.giveUid with roots := h.roots, tame := h.tame }

theorem published (h : Sweeping root ns other s s' w w') (event : Event) :
    Sweeping root ns other s s' (w.publish event) (w'.publish event) :=
  { h.toAbreast.publish event with roots := h.roots, tame := h.tame }

/-- A child is stored in its place, as it is to be. -/
theorem committed (h : Sweeping root ns other s s' w w') (hmem : ⟨k, child⟩ ∈ plan root)
    {o o' : Object k} (hlike : o'.anonymous = o.anonymous)
    (huid : ∀ old, s.cluster.find? k ⟨ns, child.name⟩ = some old →
      o.metadata.uid = old.metadata.uid ∧ o'.metadata.uid = old.metadata.uid)
    (hagrees : o.agreesWith (child.build root)) :
    Sweeping root ns other s s' (w.withCluster (w.cluster.commit ⟨ns, child.name⟩ o).2)
      (w'.withCluster (w'.cluster.commit ⟨ns, child.name⟩ o').2) where
  toAbreast := h.toAbreast.commit hlike huid
  roots p hp := by
    have hk : Kind.submarine ≠ k := fun he ↦ Plan.kind_ne_submarine hmem he.symm
    refine (Cluster.find?_commit_of_ne w'.cluster _ p o' hk).trans ((h.roots p hp).trans ?_)
    exact (Cluster.find?_commit_of_ne w.cluster _ p o hk).symm
  tame other' hother live hlive hcontrolled := by
    have hstores := (Cluster.stores_commit (.refl w.cluster) ⟨ns, child.name⟩ o).2
    change (w.cluster.commit ⟨ns, child.name⟩ o).2.find? _ _ = _ at hlive
    by_cases hlabel : other'.label = AnyChild.label ⟨k, child⟩
    · obtain rfl := List.inj_on_of_nodup_map (Plan.nodup_labels root) hother hmem hlabel
      obtain rfl := Option.some.inj (hstores.find?_self.symm.trans hlive)
      exact .inl hagrees
    · refine h.tame other' hother live ?_ hcontrolled
      rw [← hlive]
      refine (hstores.find?_of_ne _ _ fun he ↦ hlabel ?_).symm
      exact Prod.ext he.1 (congrArg Place.name he.2)

theorem create (h : Sweeping root ns other s s' w w') (hmem : ⟨k, child⟩ ∈ plan root)
    (hfree : w.cluster.find? k ⟨ns, child.name⟩ = none)
    (hfree' : w'.cluster.find? k ⟨ns, child.name⟩ = none) {newborn : Object k}
    (hnewborn : child.newborn root ns = .ok newborn) :
    Together (Sweeping root ns other s s') (fun o o' ↦ o'.anonymous = o.anonymous) w w'
      (.call (.create k newborn) rfl) (.call (.create k newborn) rfl) := by
  obtain ⟨hplace, -, hcontent⟩ := Child.newborn_spec hnewborn
  have hcreate := Cluster.create_of_outages h.calm.outages h.calm.isBroken hplace hfree
  have hcreate' := Cluster.create_of_outages h.calm'.outages h.calm'.isBroken hplace hfree'
  refine .ask (World.serve_create_of_eq hcreate) (World.serve_create_of_eq hcreate') ?_
  have hagrees : (newborn.born w.cluster.nextUid).agreesWith (child.build root) := by
    change newborn.content.agreesWith (child.build root).content
    rw [hcontent]
    exact Content.agreesWith_self _
  have hgiven := (h.recorded ⟨.create, k, ⟨ns, child.name⟩⟩).uidGiven
  refine .done (hgiven.committed hmem (Object.anonymous_born newborn _ _) ?_ hagrees) ?_
  · intro old hold
    obtain ⟨live, -, hlive, -⟩ := h.kept _ _ old hold
    rw [hfree] at hlive
    contradiction
  · rw [Object.anonymous_withVersion, Object.anonymous_withVersion]
    exact Object.anonymous_born newborn _ _

/-- An object that bears another place is not written in either world, for the same reason. -/
theorem update_of_strayed (h : Sweeping root ns other s s' w w') {q : Place}
    {live live' : Object k} (hfind : w.cluster.find? k ⟨ns, child.name⟩ = some live)
    (hfind' : w'.cluster.find? k ⟨ns, child.name⟩ = some live')
    (hplace : live.place = .ok q) (hplace' : live'.place = .ok q) (hstray : q ≠ ⟨ns, child.name⟩)
    (hreaches : q.ns = other → (s.cluster.find? k q).isSome) :
    Together (Sweeping root ns other s s') (fun o o' ↦ o'.anonymous = o.anonymous) w w'
      (.call (.update k (child.renewed root live)) rfl)
      (.call (.update k (child.renewed root live')) rfl) := by
  have hthere : (w'.cluster.find? k q).isSome = (w.cluster.find? k q).isSome := by
    by_cases hns : q.ns = other
    · obtain ⟨old, hold⟩ := Option.isSome_iff_exists.1 (hreaches hns)
      obtain ⟨_, _, hlive, hlive', -⟩ := h.kept k q old hold
      rw [hlive, hlive']
      rfl
    · have halike := congrArg Option.isSome (h.alike k q hns)
      rwa [Option.isSome_map, Option.isSome_map] at halike
  have hupdate := Cluster.update_of_strayed h.calm.outages h.calm.isBroken
    (o := child.renewed root live) hplace h.stamped hfind rfl hstray
  have hupdate' := Cluster.update_of_strayed h.calm'.outages h.calm'.isBroken
    (o := child.renewed root live') hplace' h.stamped' hfind' rfl hstray
  rw [hthere] at hupdate'
  refine .ask (World.serve_update_of_eq hupdate) (World.serve_update_of_eq hupdate') ?_
  exact .fail _ (h.recorded _)

theorem update (h : Sweeping root ns other s s' w w') (hmem : ⟨k, child⟩ ∈ plan root)
    {live live' : Object k} (hfind : w.cluster.find? k ⟨ns, child.name⟩ = some live)
    (hfind' : w'.cluster.find? k ⟨ns, child.name⟩ = some live')
    (hlike : live'.anonymous = live.anonymous) (htame : live.Tame child root ns other s.cluster) :
    Together (Sweeping root ns other s s') (fun o o' ↦ o'.anonymous = o.anonymous) w w'
      (.call (.update k (child.renewed root live)) rfl)
      (.call (.update k (child.renewed root live')) rfl) := by
  obtain ⟨uid, version, rfl⟩ := Object.exists_marked hlike
  cases hplace : live.place with
  | error e =>
    have hupdate : w.cluster.update (child.renewed root live) = (some (.error e), w.cluster) :=
      Cluster.write_of_place_error hplace
    have hupdate' : w'.cluster.update (child.renewed root (live.marked uid version)) =
        (some (.error e), w'.cluster) := Cluster.write_of_place_error hplace
    refine .ask (World.serve_update_of_eq hupdate) (World.serve_update_of_eq hupdate') ?_
    exact .fail _ h
  | ok q =>
    by_cases hown : q = ⟨ns, child.name⟩
    · subst hown
      have hk : k ≠ .submarine := Plan.kind_ne_submarine hmem
      obtain ⟨merged, hmerge, hmerge', huid, hagrees⟩ :=
        Child.replaced?_renewed hk (htame.next hplace) uid version
      have hversion (o : Object k) : Cluster.versionAgrees (child.renewed root o) o := by
        simp [Cluster.versionAgrees, Child.renewed]
      have hupdate : w.cluster.update (child.renewed root live) = _ :=
        Cluster.write_of_agrees (Cluster.takeOutage_of_outages h.calm.outages _ k) h.calm.isBroken
          hplace hfind (hversion _) hmerge
      have hupdate' : w'.cluster.update (child.renewed root (live.marked uid version)) = _ :=
        Cluster.write_of_agrees (Cluster.takeOutage_of_outages h.calm'.outages _ k)
          h.calm'.isBroken hplace hfind' (hversion _) hmerge'
      refine .ask (World.serve_update_of_eq hupdate) (World.serve_update_of_eq hupdate') ?_
      refine .done ((h.recorded ⟨.update, k, ⟨ns, child.name⟩⟩).committed hmem
        (Object.anonymous_marked merged uid version) ?_ hagrees) ?_
      · intro old hold
        obtain ⟨o, o', ho, ho', hsame, hsame'⟩ := h.kept _ _ old hold
        obtain rfl := Option.some.inj (hfind.symm.trans ho)
        obtain rfl := Option.some.inj (hfind'.symm.trans ho')
        exact ⟨huid.trans hsame, hsame'⟩
      · rw [Object.anonymous_withVersion, Object.anonymous_withVersion]
        exact Object.anonymous_marked merged uid version
    · exact h.update_of_strayed hfind hfind' hplace hplace hown (htame.reaches q hplace)

theorem converge (h : Sweeping root ns other s s' w w') (hns : root.metadata.ns = some ns)
    (hne : ns ≠ other) (hmem : ⟨k, child⟩ ∈ plan root) :
    Together (Sweeping root ns other s s') (fun o o' ↦ o'.anonymous = o.anonymous) w w'
      (Submarine.converge root child) (Submarine.converge root child) := by
  have hread := h.recorded ⟨.get, k, ⟨ns, child.name⟩⟩
  have halike := h.alike k ⟨ns, child.name⟩ hne
  unfold Submarine.converge
  rw [hns]
  cases hfind : w.cluster.find? k ⟨ns, child.name⟩ with
  | none =>
    have hfind' : w'.cluster.find? k ⟨ns, child.name⟩ = none := by simpa [hfind] using halike
    refine .ask (h.calm.serve_get_of_missing hfind) (h.calm'.serve_get_of_missing hfind') ?_
    dsimp only
    cases hnewborn : child.newborn root ns with
    | error fault => exact .fail _ hread
    | ok newborn => exact hread.create hmem hfind hfind' hnewborn
  | some live =>
    rw [hfind] at halike
    obtain ⟨live', hfind', hlike⟩ := Option.map_eq_some_iff.1 halike
    obtain ⟨uid, version, rfl⟩ := Object.exists_marked hlike
    refine .ask (h.calm.serve_get_of_stored hfind) (h.calm'.serve_get_of_stored hfind') ?_
    have hcontrols : (live.marked uid version).isControlledBy root = live.isControlledBy root := rfl
    have hagreement : (live.marked uid version).agreesWith (child.build root) =
        live.agreesWith (child.build root) := rfl
    dsimp only
    rw [hcontrols, hagreement]
    by_cases hcontrolled : live.isControlledBy root
    · rw [if_pos hcontrolled, if_pos hcontrolled]
      by_cases hagrees : live.agreesWith (child.build root)
      · rw [if_pos hagrees, if_pos hagrees]
        exact .done hread hlike
      · rw [if_neg hagrees, if_neg hagrees]
        have htame := (h.tame ⟨k, child⟩ hmem live hfind hcontrolled).resolve_left hagrees
        exact hread.update hmem hfind hfind' hlike htame
    · rw [if_neg hcontrolled, if_neg hcontrolled]
      exact .ask rfl rfl (.fail _ (hread.published _))

theorem convergeAll {todo : List AnyChild} (h : Sweeping root ns other s s' w w')
    (hns : root.metadata.ns = some ns) (hne : ns ≠ other) (htodo : ∀ c ∈ todo, c ∈ plan root) :
    Together (Sweeping root ns other s s') (fun _ _ ↦ True) w w'
      (Submarine.convergeAll root todo) (Submarine.convergeAll root todo) := by
  induction todo generalizing w w' with
  | nil => exact .done h trivial
  | cons c rest ih =>
    have hfirst := h.converge hns hne (htodo c (List.mem_cons_self ..))
    refine hfirst.bind (fun _ _ h ↦ h) fun _ _ v v' _ hv ↦ ih hv fun c' hc' ↦ ?_
    exact htodo c' (List.mem_cons_of_mem _ hc')

theorem convergeServer (h : Sweeping root ns other s s' w w') (hns : root.metadata.ns = some ns)
    (hne : ns ≠ other) :
    Together (Sweeping root ns other s s') (fun o o' ↦ o'.anonymous = o.anonymous) w w'
      (Submarine.convergeServer root) (Submarine.convergeServer root) := by
  have hplan : ∀ c ∈ Plan.server, c ∈ plan root := by simp +contextual [plan]
  refine (h.converge hns hne (hplan _ (by simp [Plan.server]))).bind (fun _ _ h ↦ h) ?_
  intro _ _ v v' _ hv
  refine (hv.converge hns hne (hplan _ (by simp [Plan.server]))).bind (fun _ _ h ↦ h) ?_
  intro deployment deployment' u u' hlike hu
  refine (hu.converge hns hne (hplan _ (by simp [Plan.server]))).bind (fun _ _ h ↦ h) ?_
  intro _ _ t t' _ ht
  exact .done ht hlike

theorem convergeDatabaseSet (h : Sweeping root ns other s s' w w')
    (hns : root.metadata.ns = some ns) (hne : ns ≠ other) :
    Together (Sweeping root ns other s s') (fun o o' ↦ o'.anonymous = o.anonymous) w w'
      (Submarine.convergeDatabaseSet root) (Submarine.convergeDatabaseSet root) := by
  have hplan : ∀ c ∈ Plan.database root, c ∈ plan root := by simp +contextual [plan]
  refine (h.converge hns hne (hplan _ (by simp [Plan.database]))).bind (fun _ _ h ↦ h) ?_
  intro set set' v v' hlike hv
  refine (hv.converge hns hne (hplan _ (by simp [Plan.database]))).bind (fun _ _ h ↦ h) ?_
  intro _ _ u u' _ hu
  exact .done hu hlike

theorem convergeDatabase (h : Sweeping root ns other s s' w w')
    (hns : root.metadata.ns = some ns) (hne : ns ≠ other) :
    Together (Sweeping root ns other s s') (fun o o' ↦ o'.anonymous = o.anonymous) w w'
      (Submarine.convergeDatabase root) (Submarine.convergeDatabase root) := by
  have hplan : ∀ c ∈ Plan.database root, c ∈ plan root := by simp +contextual [plan]
  rw [convergeDatabase_eq]
  refine (h.converge hns hne (hplan _ (by simp [Plan.database]))).bind (fun _ _ h ↦ h) ?_
  intro _ _ v v' _ hv
  split
  · next hmanages =>
    refine (hv.converge hns hne (hplan _ (by simp [Plan.database, hmanages]))).bind
      (fun _ _ h ↦ h) ?_
    intro _ _ u u' _ hu
    exact hu.convergeDatabaseSet hns hne
  · exact hv.convergeDatabaseSet hns hne

theorem convergePlan (h : Sweeping root ns other s s' w w') (hns : root.metadata.ns = some ns)
    (hne : ns ≠ other) :
    Together (Sweeping root ns other s s')
      (fun found found' ↦ found'.1.anonymous = found.1.anonymous ∧
        found'.2.anonymous = found.2.anonymous) w w'
      (Submarine.convergePlan root) (Submarine.convergePlan root) := by
  refine (h.convergeServer hns hne).bind (fun _ _ h ↦ h) ?_
  intro server server' v v' hserver hv
  refine (hv.convergeDatabase hns hne).bind (fun _ _ h ↦ h) ?_
  intro database database' u u' hdatabase hu
  refine (hu.convergeAll hns hne (by simp +contextual [plan])).bind (fun _ _ h ↦ h) ?_
  intro _ _ t t' _ ht
  refine (ht.convergeAll hns hne (by simp +contextual [plan])).bind (fun _ _ h ↦ h) ?_
  intro _ _ r r' _ hr
  exact .done hr ⟨hserver, hdatabase⟩

/-- The root as it is stored is the same in both worlds, and so is its version. -/
theorem updateStatus (h : Sweeping root ns other s s' w w') (hns : root.metadata.ns = some ns)
    (hne : ns ≠ other) (status : InstallationStatus) :
    Together (Abreast other s s') (fun _ _ ↦ True) w w'
      (.call (.updateStatus .submarine (root.withStatus status)) rfl)
      (.call (.updateStatus .submarine (root.withStatus status)) rfl) := by
  have hsame : (root.withStatus status).place = root.place := Object.place_congr rfl rfl
  cases hplace : root.place with
  | error e =>
    rw [hplace] at hsame
    have hupdate : w.cluster.updateStatus (root.withStatus status) = (some (.error e), w.cluster) :=
      Cluster.write_of_place_error hsame
    have hupdate' : w'.cluster.updateStatus (root.withStatus status) =
        (some (.error e), w'.cluster) := Cluster.write_of_place_error hsame
    refine .ask (World.serve_updateStatus_of_eq hupdate) (World.serve_updateStatus_of_eq hupdate') ?_
    exact .fail _ h.toAbreast
  | ok p =>
    rw [hplace] at hsame
    have hp : p.ns ≠ other := by
      obtain rfl := Option.some.inj (hns.symm.trans (Object.place_eq_ok_iff.1 hplace).2)
      exact hne
    have hread := h.toAbreast.record ⟨.updateStatus, .submarine, p⟩
    rcases Cluster.updateStatus_alike h.calm.outages h.calm.isBroken hsame h.calm'.outages
        h.calm'.isBroken (h.roots p hp) with
      ⟨e, hupdate, hupdate'⟩ | ⟨stored, hfind, hupdate, hupdate'⟩
    · refine .ask (World.serve_updateStatus_of_eq hupdate)
        (World.serve_updateStatus_of_eq hupdate') ?_
      exact .fail _ hread
    · refine .ask (World.serve_updateStatus_of_eq hupdate)
        (World.serve_updateStatus_of_eq hupdate') ?_
      refine .done (hread.commit rfl ?_) trivial
      intro old hold
      obtain ⟨o, o', ho, ho', huid, -⟩ := h.kept _ _ old hold
      obtain rfl := Option.some.inj (hfind.symm.trans ho)
      exact ⟨huid, huid⟩

theorem concludePass (h : Sweeping root ns other s s' w w') (hns : root.metadata.ns = some ns)
    (hne : ns ≠ other) {server server' : Object .deployment}
    {database database' : Object .statefulSet} (hserver : server'.anonymous = server.anonymous)
    (hdatabase : database'.anonymous = database.anonymous) :
    Together (Abreast other s s') Eq w w' (Submarine.concludePass root server database)
      (Submarine.concludePass root server' database') := by
  obtain ⟨uid, version, rfl⟩ := Object.exists_marked hserver
  obtain ⟨uid', version', rfl⟩ := Object.exists_marked hdatabase
  have hreport : Together (Abreast other s s') (fun _ _ ↦ True) w w'
      (Submarine.reportStatus root server database)
      (Submarine.reportStatus root (server.marked uid version)
        (database.marked uid' version')) := by
    have hnow : w'.serve .now = (some w.clock, w') := by
      rw [← h.clock]
      rfl
    refine .ask rfl hnow ?_
    dsimp only
    have hobserved : observedStatus root (server.marked uid version)
        (database.marked uid' version') w.clock = observedStatus root server database w.clock := rfl
    rw [hobserved]
    split
    · exact .done h.toAbreast trivial
    · exact (h.updateStatus hns hne _).bind (fun _ _ h ↦ h) fun _ _ v v' _ hv ↦ .done hv trivial
  refine hreport.bind (fun _ _ h ↦ h) fun _ _ v v' _ hv ↦ ?_
  exact .ask rfl rfl (.done (hv.publish _) rfl)

theorem reconcileRoot (h : Sweeping root ns other s s' w w') (hns : root.metadata.ns = some ns)
    (hne : ns ≠ other) :
    Together (Abreast other s s') Eq w w' (Submarine.reconcileRoot root)
      (Submarine.reconcileRoot root) := by
  rw [reconcileRoot_eq]
  refine (h.convergePlan hns hne).bind (fun _ _ h ↦ h.toAbreast) ?_
  intro found found' v v' ⟨hserver, hdatabase⟩ hv
  exact hv.concludePass hns hne hserver hdatabase

end Sweeping

end Submarine
