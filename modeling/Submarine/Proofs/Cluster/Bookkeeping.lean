import Submarine.Proofs.Cluster.Outages
import Submarine.Proofs.Cluster.Versions
import Submarine.Proofs.Object.Remaining
import Mathlib.Data.List.Nodup
import Mathlib.Data.List.Range

namespace Submarine

variable {k : Kind}

def SpecPart : Kind → Type
  | .submarine => InstallationSpec
  | .deployment => Option DeploymentSpec
  | .statefulSet => Option StatefulSetSpec
  | .service => Option ServiceSpec
  | .persistentVolumeClaim => Option ClaimSpec
  | .ingress => Option IngressSpec
  | .ingressRoute => IngressRouteSpec
  | .configMap | .serviceAccount | .secret | .role | .roleBinding => Unit

namespace Content

def specPart : {k : Kind} → Content k → SpecPart k
  | .submarine, (c : InstallationContent) => c.spec
  | .deployment, (c : DeploymentContent) => c.spec
  | .statefulSet, (c : StatefulSetContent) => c.spec
  | .service, (c : ServiceContent) => c.spec
  | .persistentVolumeClaim, (c : ClaimContent) => c.spec
  | .ingress, (c : IngressContent) => c.spec
  | .ingressRoute, (c : IngressRouteContent) => c.spec
  | .configMap, _ | .serviceAccount, _ | .secret, _ | .role, _ | .roleBinding, _ => ()

def member (c : Content k) (name : String) : Option Json := (c.members.lookup name).join

theorem sameSpec_iff (a b : Content k) : a.sameSpec b ↔ a.specPart = b.specPart := by
  cases k with
  | configMap | serviceAccount | secret | role | roleBinding => exact iff_of_true rfl rfl
  | _ => exact decide_eq_true_iff

theorem specPart_withStatusOf (a b : Content k) : (a.withStatusOf b).specPart = a.specPart := by
  cases k <;> rfl

theorem member_withStatusOf (a b : Content k) (name : String) :
    (a.withStatusOf b).member name =
      if name = "status" then b.member "status" else a.member name := by
  split
  · next hname =>
    subst hname
    cases k <;> simp [member, members, withStatusOf, List.lookup_cons,
      Remainder.lookup_members_of_not_mem]
  · next hname =>
    cases k <;> simp [member, members, withStatusOf, List.lookup_cons, beq_false_of_ne hname]

end Content

namespace Cluster

variable {c c' : Cluster}

/-- The versions given so far. A removal gives none. -/
def given (c : Cluster) : List (Option String) :=
  (c.log.filter fun change ↦ ¬ change.isRemoval).map
    fun change ↦ change.object.object.metadata.resourceVersion

theorem Effect.given_cases (he : Effect c c') :
    c'.version = c.version ∧ c'.given = c.given ∨
      c'.version = c.version + 1 ∧
        c'.given = c.given ++ [some (toString (c.version + 1))] := by
  cases he with
  | unchanged h => exact .inl ⟨h.version, by rw [given, h.log, given]⟩
  | stores p o h =>
    refine .inr ⟨h.version, ?_⟩
    rw [given, h.log, List.filter_append, List.map_append]
    rfl
  | removes p o h =>
    refine .inl ⟨h.version, ?_⟩
    rw [given, h.log, List.filter_append, List.map_append]
    exact List.append_nil _

theorem given_eq (h : Reachable c) :
    c.given = (List.range' 1 c.version).map (some ∘ toString) := by
  induction h with
  | empty => rfl
  | @perform c op _ ih =>
    rcases (Effect.perform c op).given_cases with ⟨hversion, hgiven⟩ | ⟨hversion, hgiven⟩
    · rw [hgiven, hversion, ih]
    · rw [hgiven, hversion, ih, List.range'_1_concat, List.map_append, Nat.add_comm 1]
      rfl

theorem nodup_given (h : Reachable c) : c.given.Nodup := by
  rw [given_eq h]
  refine List.Nodup.map (fun m n hmn ↦ ?_) (List.nodup_range' 1)
  let o : Object .configMap := ⟨{ resourceVersion := some (toString m) }, ({} : ConfigMapContent)⟩
  have hm : o.HasVersion m := rfl
  have hn : o.HasVersion n := hmn
  exact hm.unique hn

/-- Every stored object bears a version that was given. -/
theorem mem_given (h : Reachable c) {p : Place} {o : Object k} (hfind : c.find? k p = some o) :
    o.metadata.resourceVersion ∈ c.given := by
  induction h generalizing k p o with
  | empty => simp [find?, Cluster.empty] at hfind
  | @perform c op _ ih =>
    have heffect := Effect.perform c op
    rcases heffect.find?_cases hfind with hold | ⟨hversion, hnew, -⟩ <;>
      rcases heffect.given_cases with ⟨hsame, hgiven⟩ | ⟨hnext, hgiven⟩ <;> rw [hgiven]
    · exact ih hold
    · exact List.mem_append_left _ (ih hold)
    · omega
    · rw [hnew, hversion]
      exact List.mem_append_right _ List.mem_cons_self

def Clears (c : Cluster) (k : Kind) (p : Place) (op : Operation) : Prop :=
  ∃ edit : Object k → Option (Object k), op = .modify k p edit ∧
    ∃ old after, c.find? k p = some old ∧ edit old = some after ∧
      old.metadata.uid.isSome ∧ after.metadata.uid = none

/-- An edit took its uid from the object in that place, which has had none ever since. -/
def Cleared (ops : List Operation) (k : Kind) (p : Place) : Prop :=
  ∃ before op after, ops = before ++ op :: after ∧ (empty.performAll before).Clears k p op ∧
    ∀ later, later <+: after → ∃ o : Object k,
      (empty.performAll (before ++ op :: later)).find? k p = some o ∧ o.metadata.uid = none

theorem Stores.find?_of_lacks_uid {j : Kind} {q p : Place} {o' : Object j} {o : Object k}
    {uid : String} (h : Stores c q o' c') (hgiven : o'.metadata.uid = some uid)
    (hfind : c'.find? k p = some o) (hnone : o.metadata.uid = none) : c.find? k p = some o := by
  rcases h.find?_cases hfind with hold | ⟨-, ⟨⟩⟩
  · exact hold
  · exact absurd (hgiven.symm.trans hnone) nofun

theorem uid_of_edited? {stored after o : Object k} (h : edited? stored after = some o) :
    o.metadata.uid = after.metadata.uid := by
  unfold edited? at h
  split at h
  · obtain rfl := Option.some.inj h
    rfl
  · obtain ⟨generation, -, rfl⟩ := Option.map_eq_some_iff.1 h
    rfl

theorem uid_of_replaced? {stored incoming merged : Object k}
    (h : replaced? stored incoming = some merged) : merged.metadata.uid = stored.metadata.uid := by
  obtain ⟨generation, -, rfl⟩ := Option.map_eq_some_iff.1 h
  rfl

theorem lacks_uid_of_write {verb : Verb} {j : Kind} {o' : Object j}
    {merge? : Object j → Object j → Option (Object j)}
    (hmerge : ∀ stored merged, merge? stored o' = some merged →
      merged.metadata.uid = stored.metadata.uid)
    {p : Place} {o : Object k} (h : (c.write verb merge? o').2.find? k p = some o)
    (hnone : o.metadata.uid = none) : ∃ old, c.find? k p = some old ∧ old.metadata.uid = none := by
  rcases write_spec (Prod.eta (c.write verb merge? o')) with
    ⟨q, stored, merged, -, hfind, -, hmerged, hstores, -⟩ | ⟨hsame, -⟩
  · rcases hstores.find?_cases h with hold | ⟨rfl, ⟨⟩⟩
    · exact ⟨o, hold, hnone⟩
    · exact ⟨stored, hfind, hmerge stored merged hmerged ▸ hnone⟩
  · exact ⟨o, hsame.find? k p ▸ h, hnone⟩

/-- An object without uid had none before the operation, unless that took it. -/
theorem lacks_uid_cases {op : Operation} {p : Place} {o : Object k}
    (h : (c.perform op).find? k p = some o) (hnone : o.metadata.uid = none) :
    (∃ old, c.find? k p = some old ∧ old.metadata.uid = none) ∨ c.Clears k p op := by
  have hkept {c' : Cluster} (hsame : Unchanged c c') (hfind : c'.find? k p = some o) :
      (∃ old, c.find? k p = some old ∧ old.metadata.uid = none) ∨ c.Clears k p op :=
    .inl ⟨o, hsame.find? k p ▸ hfind, hnone⟩
  cases op with
  | get => exact hkept (get_spec (Prod.eta _)).1 h
  | create j o' =>
    rcases create_spec (Prod.eta (c.create o')) with ⟨q, uid, -, -, hstores, -⟩ | ⟨hsame, -⟩
    · exact .inl ⟨o, hstores.find?_of_lacks_uid rfl h hnone, hnone⟩
    · exact hkept hsame h
  | update j o' => exact .inl (lacks_uid_of_write (fun _ _ ↦ uid_of_replaced?) h hnone)
  | updateStatus j o' =>
    refine .inl (lacks_uid_of_write (fun stored merged hmerged ↦ ?_) h hnone)
    obtain rfl := Option.some.inj hmerged
    rfl
  | insert j o' =>
    rcases hinsert : c.insert? o' with _ | ⟨stored, c'⟩ <;> rw [perform, hinsert] at h
    · exact .inl ⟨o, h, hnone⟩
    · obtain ⟨q, uid, -, -, hstores⟩ := insert?_spec hinsert
      exact .inl ⟨o, hstores.find?_of_lacks_uid rfl h hnone, hnone⟩
  | modify j q edit =>
    rcases modify_spec (Prod.eta (c.modify q edit)) with
      ⟨stored, after, o', hfind, hafter, ho', hstores⟩ | hsame
    · rcases hstores.find?_cases h with hold | ⟨rfl, ⟨⟩⟩
      · exact .inl ⟨o, hold, hnone⟩
      · have huid := (uid_of_edited? ho').symm.trans hnone
        cases hstored : stored.metadata.uid with
        | none => exact .inl ⟨stored, hfind, hstored⟩
        | some uid =>
          exact .inr ⟨edit, rfl, stored, after, hfind, hafter, by rw [hstored]; rfl, huid⟩
    · exact hkept hsame h
  | remove j q =>
    rcases hremove : c.remove? j q with _ | ⟨removed, c'⟩ <;> rw [perform, hremove] at h
    · exact .inl ⟨o, h, hnone⟩
    · rcases remove?_spec hremove with ⟨o', hremoves⟩ | hsame
      · exact .inl ⟨o, hremoves.find?_of_some h, hnone⟩
      · exact hkept hsame h
  | failNext | clearCalls => exact .inl ⟨o, h, hnone⟩

theorem cleared_of_lacks_uid {ops : List Operation} {p : Place} {o : Object k}
    (h : (empty.performAll ops).find? k p = some o) (hnone : o.metadata.uid = none) :
    Cleared ops k p := by
  induction ops using List.reverseRecOn generalizing o with
  | nil => simp [performAll, find?, Cluster.empty] at h
  | append_singleton ops op ih =>
    have hlast := h
    rw [performAll_concat] at h
    rcases lacks_uid_cases h hnone with ⟨old, hold, huid⟩ | hclears
    · obtain ⟨before, cause, after, rfl, hclears, hsince⟩ := ih hold huid
      refine ⟨before, cause, after ++ [op], by simp, hclears, fun later hlater ↦ ?_⟩
      rcases List.prefix_concat_iff.1 hlater with rfl | hearlier
      · exact ⟨o, by simpa using hlast, hnone⟩
      · exact hsince later hearlier
    · refine ⟨ops, op, [], rfl, hclears, fun later hlater ↦ ?_⟩
      rw [List.prefix_nil.1 hlater]
      exact ⟨o, hlast, hnone⟩

def errorOf? (reply : Reply k) : Option ApiError :=
  match reply with
  | some (.error e) => some e
  | _ => none

/-- The error that an operation comes to. An insertion asks where the object is to be stored, too;
the other operations of others give no errors. -/
def refusal? (c : Cluster) : Operation → Option ApiError
  | .get k p => errorOf? (c.get k p).1
  | .create _ o => errorOf? (c.create o).1
  | .update _ o => errorOf? (c.update o).1
  | .updateStatus _ o => errorOf? (c.updateStatus o).1
  | .insert _ o =>
    match o.place with
    | .error e => some e
    | .ok _ => none
  | .modify .. | .remove .. | .failNext .. | .clearCalls => none

theorem errorOf?_eq_some {reply : Reply k} {e : ApiError} (h : errorOf? reply = some e) :
    reply = some (.error e) := by
  unfold errorOf? at h
  split at h
  · obtain rfl := Option.some.inj h
    rfl
  · contradiction

theorem unchanged_of_write {verb : Verb} {merge? : Object k → Object k → Option (Object k)}
    {o : Object k} {e : ApiError} (h : (c.write verb merge? o).1 = some (.error e)) :
    Unchanged c (c.write verb merge? o).2 := by
  rcases hwrite : c.write verb merge? o with ⟨reply, c'⟩
  rw [hwrite] at h
  rcases write_spec hwrite with ⟨p, stored, merged, -, -, -, -, -, hreply, -⟩ | ⟨hsame, -⟩
  · simp [hreply] at h
  · exact hsame

theorem unchanged_of_refusal {op : Operation} {e : ApiError} (h : c.refusal? op = some e) :
    Unchanged c (c.perform op) := by
  cases op with
  | get k p => exact (get_spec (Prod.eta _)).1
  | create k o =>
    have hreply := errorOf?_eq_some h
    rw [perform]
    rcases hcreate : c.create o with ⟨reply, c'⟩
    rw [hcreate] at hreply
    rcases create_spec hcreate with ⟨p, uid, -, -, -, hstored, -⟩ | ⟨hsame, -⟩
    · simp [hstored] at hreply
    · exact hsame
  | update k o => exact unchanged_of_write (errorOf?_eq_some h)
  | updateStatus k o => exact unchanged_of_write (errorOf?_eq_some h)
  | insert k o =>
    rw [perform, insert?]
    rw [refusal?] at h
    cases hplace : o.place with
    | error e' => exact .refl c
    | ok p => simp [hplace] at h
  | modify | remove | failNext | clearCalls => contradiction

/-- What is stored for the second object, written as an update of the first one, under that version.
The stored generation, one if there is none, moves on by one where the spec changes. -/
structure Updates (old incoming stored : Object k) (version : Nat) : Prop where
  uid : stored.metadata.uid = old.metadata.uid
  status : stored.content.member "status" = old.content.member "status"
  generation : ∃ g current, stored.metadata.generation = some g ∧
    current = old.metadata.generation.getD 1 ∧
    (old.content.specPart = incoming.content.specPart → g = current) ∧
    (old.content.specPart ≠ incoming.content.specPart → g.toInt = current.toInt + 1)
  version : stored.HasVersion version
  metadata : stored.metadata = { incoming.metadata with
    uid := stored.metadata.uid
    generation := stored.metadata.generation
    resourceVersion := stored.metadata.resourceVersion }
  members : ∀ name ≠ "status", stored.content.member name = incoming.content.member name

structure UpdatesStatus (old incoming stored : Object k) (version : Nat) : Prop where
  status : stored.content.member "status" = incoming.content.member "status"
  version : stored.HasVersion version
  metadata : stored.metadata =
    { old.metadata with resourceVersion := stored.metadata.resourceVersion }
  spec : stored.content.specPart = old.content.specPart
  members : ∀ name ≠ "status", stored.content.member name = old.content.member name

/-- The update has a generation to give: the spec stays, or the last one is not reached. -/
def HasGeneration (old incoming : Object k) : Prop :=
  old.content.specPart = incoming.content.specPart ∨ old.metadata.generation ≠ some Int64.maxValue

theorem toInt_add_one {g : Int64} (h : g ≠ Int64.maxValue) : (g + 1).toInt = g.toInt + 1 := by
  have hle := g.toInt_le
  have hge := g.le_toInt
  have hmax : Int64.maxValue.toInt = 2 ^ 63 - 1 := by decide
  have hmin : Int64.minValue.toInt = -2 ^ 63 := by decide
  have hne : g.toInt ≠ Int64.maxValue.toInt := fun heq ↦ h (Int64.toInt_inj.1 heq)
  rw [Int64.toInt_add, Int64.toInt_one]
  rw [Int.bmod_eq_of_le] <;> omega

theorem generationAfter?_spec {old incoming : Object k} {g : Int64}
    (h : generationAfter? old incoming = some g) :
    (old.content.specPart = incoming.content.specPart → g = old.metadata.generation.getD 1) ∧
      (old.content.specPart ≠ incoming.content.specPart →
        g.toInt = (old.metadata.generation.getD 1).toInt + 1) := by
  unfold generationAfter? at h
  dsimp only at h
  split at h
  · next hspec =>
    obtain rfl := Option.some.inj h
    exact ⟨fun _ ↦ rfl, absurd ((Content.sameSpec_iff _ _).1 hspec)⟩
  · next hspec =>
    split at h
    · contradiction
    · next hmore =>
      obtain rfl := Option.some.inj h
      exact ⟨fun heq ↦ absurd ((Content.sameSpec_iff _ _).2 heq) hspec, fun _ ↦ toInt_add_one hmore⟩

theorem isSome_generationAfter?_iff {old incoming : Object k} :
    (generationAfter? old incoming).isSome ↔ HasGeneration old incoming := by
  have hlast : old.metadata.generation.getD 1 = Int64.maxValue ↔
      old.metadata.generation = some Int64.maxValue := by
    cases old.metadata.generation with
    | none => simp [show (1 : Int64) ≠ Int64.maxValue by decide]
    | some g => simp
  rw [HasGeneration, ← Content.sameSpec_iff, Ne, ← hlast, generationAfter?]
  split
  · next hspec => simp [hspec]
  · next hspec =>
    split
    · next hend => simp [hspec, hend]
    · next hmore => simp [hspec, hmore]

theorem versionAgrees_iff {incoming stored : Object k} :
    versionAgrees incoming stored ↔ incoming.metadata.resourceVersion = none ∨
      incoming.metadata.resourceVersion = stored.metadata.resourceVersion := by
  simp [versionAgrees]

section Write

variable {verb : Verb} {merge? : Object k → Object k → Option (Object k)} {o stored old : Object k}
  {p : Place}

theorem Stores.withVersion {c' : Cluster} (h : Stores c p o c') :
    Stores c p (o.withVersion (c.version + 1)) c' :=
  ⟨h.find?_self, h.find?_of_ne, h.version, h.log⟩

theorem stores_of_write (h : (c.write verb merge? o).1 = some (.ok stored)) :
    ∃ p old merged, o.place = .ok p ∧ c.find? k p = some old ∧ merge? old o = some merged ∧
      stored = merged.withVersion (c.version + 1) ∧
      Stores c p stored (c.write verb merge? o).2 := by
  rcases write_spec (Prod.eta (c.write verb merge? o)) with
    ⟨p, old, merged, hplace, hfind, -, hmerged, hstores, hreply, -⟩ | ⟨-, hfailed⟩
  · obtain rfl := Except.ok.inj (Option.some.inj (h.symm.trans hreply))
    exact ⟨p, old, merged, hplace, hfind, hmerged, rfl, hstores.withVersion⟩
  · exact absurd h (hfailed stored)

theorem stores_of_update (h : (c.update o).1 = some (.ok stored)) :
    ∃ p old, o.place = .ok p ∧ c.find? k p = some old ∧ Updates old o stored (c.version + 1) ∧
      Stores c p stored (c.update o).2 := by
  obtain ⟨p, old, merged, hplace, hfind, hmerged, rfl, hstores⟩ := stores_of_write h
  obtain ⟨g, hg, rfl⟩ := Option.map_eq_some_iff.1 hmerged
  obtain ⟨hkept, hmoved⟩ := generationAfter?_spec hg
  refine ⟨p, old, hplace, hfind, ⟨rfl, ?_, ⟨g, _, rfl, rfl, hkept, hmoved⟩, .withVersion _ _, rfl,
    fun name hname ↦ ?_⟩, hstores⟩
  · exact (Content.member_withStatusOf _ _ _).trans (if_pos rfl)
  · exact (Content.member_withStatusOf _ _ _).trans (if_neg hname)

theorem stores_of_updateStatus (h : (c.updateStatus o).1 = some (.ok stored)) :
    ∃ p old, o.place = .ok p ∧ c.find? k p = some old ∧
      UpdatesStatus old o stored (c.version + 1) ∧ Stores c p stored (c.updateStatus o).2 := by
  obtain ⟨p, old, merged, hplace, hfind, hmerged, rfl, hstores⟩ := stores_of_write h
  obtain rfl := Option.some.inj hmerged
  refine ⟨p, old, hplace, hfind, ⟨?_, .withVersion _ _, rfl, Content.specPart_withStatusOf _ _,
    fun name hname ↦ ?_⟩, hstores⟩
  · exact (Content.member_withStatusOf _ _ _).trans (if_pos rfl)
  · exact (Content.member_withStatusOf _ _ _).trans (if_neg hname)

/-- A write on a stored object that can be carried out and meets no outage is judged by its version
alone. -/
theorem write_isOk_iff (hwhole : c.isBroken = false) (htake : takeOutage verb k c.outages = none)
    (hplace : o.place = .ok p) (hfind : c.find? k p = some old) (hmerge : (merge? old o).isSome) :
    (∃ stored, (c.write verb merge? o).1 = some (.ok stored)) ↔
      o.metadata.resourceVersion = none ∨
        o.metadata.resourceVersion = old.metadata.resourceVersion := by
  obtain ⟨merged, hmerged⟩ := Option.isSome_iff_exists.1 hmerge
  rw [← versionAgrees_iff]
  cases hversion : versionAgrees o old with
  | true =>
    rw [write_of_agrees htake hwhole hplace hfind hversion hmerged]
    simp
  | false =>
    rw [write_of_conflict htake hwhole hplace hfind hversion]
    simp

end Write

/-- Over any history of calls and edits, whatever failures were put in their way: versions are given
one after the other and none twice. Every stored object bears one, and a uid unless an edit took it.
A call that comes to an error leaves objects, version and log as they are. An update that succeeds
keeps uid and status and counts the changes of the spec, and an update of the status changes nothing
but status and version. While the cluster is whole, each of the two succeeds on a stored object just
if it names no version or the stored one, where no outage meets it and, for an update, there is a
generation to give. -/
theorem keeps_its_books {ops : List Operation} (hc : c = empty.performAll ops) :
    (c.given = (List.range' 1 c.version).map (some ∘ toString) ∧ c.given.Nodup) ∧
    (∀ (k : Kind) (p : Place) (o : Object k), c.find? k p = some o →
      o.metadata.resourceVersion ∈ c.given ∧ (o.metadata.uid = none → Cleared ops k p)) ∧
    (∀ op e, c.refusal? op = some e → Unchanged c (c.perform op)) ∧
    (∀ (k : Kind) (o stored : Object k), (c.update o).1 = some (.ok stored) →
      ∃ p old, o.place = .ok p ∧ c.find? k p = some old ∧
        Updates old o stored (c.version + 1) ∧ Stores c p stored (c.update o).2) ∧
    (∀ (k : Kind) (o stored : Object k), (c.updateStatus o).1 = some (.ok stored) →
      ∃ p old, o.place = .ok p ∧ c.find? k p = some old ∧
        UpdatesStatus old o stored (c.version + 1) ∧ Stores c p stored (c.updateStatus o).2) ∧
    ∀ (k : Kind) (p : Place) (o old : Object k),
      c.isBroken = false → o.place = .ok p → c.find? k p = some old →
      (takeOutage .update k c.outages = none → HasGeneration old o →
        ((∃ stored, (c.update o).1 = some (.ok stored)) ↔
          o.metadata.resourceVersion = none ∨
            o.metadata.resourceVersion = old.metadata.resourceVersion)) ∧
      (takeOutage .updateStatus k c.outages = none →
        ((∃ stored, (c.updateStatus o).1 = some (.ok stored)) ↔
          o.metadata.resourceVersion = none ∨
            o.metadata.resourceVersion = old.metadata.resourceVersion)) := by
  have hreach : Reachable c := hc ▸ .performAll .empty ops
  refine ⟨⟨given_eq hreach, nodup_given hreach⟩, fun k p o hfind ↦ ⟨mem_given hreach hfind, ?_⟩,
    fun op e ↦ unchanged_of_refusal, fun k o stored ↦ stores_of_update,
    fun k o stored ↦ stores_of_updateStatus, fun k p o old hwhole hplace hfind ↦ ⟨?_, ?_⟩⟩
  · rw [hc] at hfind
    exact cleared_of_lacks_uid hfind
  · intro htake hgeneration
    have hmerge : (replaced? old o).isSome := by
      rw [replaced?, Option.isSome_map]
      exact isSome_generationAfter?_iff.2 hgeneration
    exact write_isOk_iff hwhole htake hplace hfind hmerge
  · exact fun htake ↦ write_isOk_iff hwhole htake hplace hfind rfl

def sampleService (type : String) (generation : Option Int64) : Object .service where
  metadata := { name := some "a", ns := some "n", generation }
  content := show ServiceContent from { spec := some { type := some type } }

def sampleOperations : List Operation :=
  [.insert .service (sampleService "ClusterIP" none),
    .modify .service ⟨"n", "a"⟩ fun o ↦ some { o with metadata := { o.metadata with uid := none } },
    .failNext .update .service .conflict, .update .service (sampleService "NodePort" none)]

theorem keeps_its_books_of_sample :
    let c := empty.performAll sampleOperations
    c.given = [some "1", some "2"] ∧ Cleared sampleOperations .service ⟨"n", "a"⟩ ∧
      ∃ stored, (c.update (sampleService "NodePort" none)).1 = some (.ok stored) ∧
        stored.metadata.generation = some 2 ∧ stored.HasVersion 3 := by
  intro c
  obtain ⟨⟨hgiven, -⟩, hbears, -, hupdate, -, hjudged⟩ :=
    keeps_its_books (show c = empty.performAll sampleOperations from rfl)
  have hversion : c.version = 2 := by decide +kernel
  have hfind : c.find? .service ⟨"n", "a"⟩ =
      some ((sampleService "ClusterIP" none).withVersion 2) := by decide +kernel
  have hspec : ¬ (sampleService "ClusterIP" none).content.sameSpec
      (sampleService "NodePort" none).content := by decide
  have htake : takeOutage .update .service c.outages = none := by decide +kernel
  have hplace : (sampleService "NodePort" none).place = .ok ⟨"n", "a"⟩ := rfl
  obtain ⟨hjudge, -⟩ := hjudged .service _ _ _ (by decide +kernel) hplace hfind
  obtain ⟨stored, hstored⟩ := (hjudge htake (.inr nofun)).2 (.inl rfl)
  obtain ⟨p, old, hplaced, hold, hupdates, -⟩ := hupdate .service _ stored hstored
  obtain rfl := Except.ok.inj (hplace.symm.trans hplaced)
  obtain rfl := Option.some.inj (hfind.symm.trans hold)
  rw [hversion] at hupdates
  obtain ⟨g, current, hg, rfl, -, hmoved⟩ := hupdates.generation
  have hgeneration : g = 2 :=
    Int64.toInt_inj.1 (hmoved fun heq ↦ hspec ((Content.sameSpec_iff _ _).2 heq))
  refine ⟨?_, (hbears .service _ _ hfind).2 rfl, stored, hstored, hgeneration ▸ hg,
    hupdates.version⟩
  rw [hgiven, hversion]
  decide +kernel

/-- The generation of a service cannot move on. The update breaks off, and after it one of the
status does. -/
theorem update_breaks_off :
    let c := empty.perform (.insert .service (sampleService "ClusterIP" (some Int64.maxValue)))
    let o := sampleService "NodePort" none
    ∃ old, c.isBroken = false ∧ c.outages = [] ∧ o.place = .ok ⟨"n", "a"⟩ ∧
      c.find? .service ⟨"n", "a"⟩ = some old ∧ o.metadata.resourceVersion = none ∧
      (c.update o).1 = none ∧ (c.update o).2.find? .service ⟨"n", "a"⟩ = some old ∧
      ((c.update o).2.updateStatus o).1 = none := by
  let old : Object .service := { sampleService "ClusterIP" (some Int64.maxValue) with
    metadata := { (sampleService "ClusterIP" (some Int64.maxValue)).metadata with
      uid := some empty.nextUid, resourceVersion := some "1" } }
  exact ⟨old, by decide +kernel, by decide +kernel, rfl, by decide +kernel, rfl,
    by decide +kernel, by decide +kernel, by decide +kernel⟩

end Cluster

end Submarine
