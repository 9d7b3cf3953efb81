import Submarine.Proofs.Cluster.Outages
import Submarine.Proofs.Cluster.Versions

namespace Submarine

variable {k : Kind}

namespace Object

def anonymous (o : Object k) : Object k :=
  { o with metadata := { o.metadata with uid := none, resourceVersion := none } }

def marked (o : Object k) (uid version : Option String) : Object k :=
  { o with metadata := { o.metadata with uid, resourceVersion := version } }

variable {o o' : Object k}

theorem exists_marked (h : o'.anonymous = o.anonymous) : ∃ uid version, o' = o.marked uid version := by
  refine ⟨o'.metadata.uid, o'.metadata.resourceVersion, ?_⟩
  obtain ⟨m, content⟩ := o
  obtain ⟨m', content'⟩ := o'
  obtain ⟨⟩ := m
  obtain ⟨⟩ := m'
  simpa [anonymous, marked] using h

theorem anonymous_marked (o : Object k) (uid version : Option String) :
    (o.marked uid version).anonymous = o.anonymous := rfl

@[simp] theorem anonymous_withVersion (o : Object k) (n : Nat) :
    (o.withVersion n).anonymous = o.anonymous := rfl

theorem anonymous_born (o : Object k) (uid uid' : String) :
    (o.born uid).anonymous = (o.born uid').anonymous := rfl

end Object

def Change.anonymous (change : Change) : Change :=
  { change with object := ⟨change.object.kind, change.object.object.anonymous⟩ }

namespace Cluster

variable {c : Cluster} {o : Object k} {p q : Place}

section Calls

variable (houtages : c.outages = []) (hwhole : c.isBroken = false) (hplace : o.place = .ok p)

include houtages hwhole hplace

/-- The object bears another place than it is stored in, so the write is made against a version
that no object bears in that other place. -/
theorem update_of_strayed {live : Object k} (hc : Stamped c) (hlive : c.find? k q = some live)
    (hsame : o.metadata.resourceVersion = live.metadata.resourceVersion) (hstray : p ≠ q) :
    c.update o =
      (some (.error (if (c.find? k p).isSome then .conflict (describe k p)
          else .notFound (describe k p))),
        c.record ⟨.update, k, p⟩) := by
  have htake := takeOutage_of_outages houtages .update k
  cases hfind : c.find? k p with
  | none => exact write_of_missing htake hwhole hplace hfind
  | some other =>
    refine write_of_conflict htake hwhole hplace hfind (Bool.eq_false_iff.2 fun hversion ↦ ?_)
    exact hstray ((Remembers.of_find? hc hlive).eq_of_versionAgrees hfind hsame hversion).1

/-- Where two clusters hold the same, a report of the status is judged alike. -/
theorem updateStatus_alike {c' : Cluster} (houtages' : c'.outages = [])
    (hwhole' : c'.isBroken = false) (hsame : c'.find? k p = c.find? k p) :
    (∃ e, c.updateStatus o = (some (.error e), c.record ⟨.updateStatus, k, p⟩) ∧
        c'.updateStatus o = (some (.error e), c'.record ⟨.updateStatus, k, p⟩)) ∨
      ∃ stored, c.find? k p = some stored ∧
        c.updateStatus o = (some (.ok ((withStatus stored o).withVersion (c.version + 1))),
          ((c.record ⟨.updateStatus, k, p⟩).commit p (withStatus stored o)).2) ∧
        c'.updateStatus o = (some (.ok ((withStatus stored o).withVersion (c'.version + 1))),
          ((c'.record ⟨.updateStatus, k, p⟩).commit p (withStatus stored o)).2) := by
  have htake := takeOutage_of_outages houtages .updateStatus k
  have htake' := takeOutage_of_outages houtages' .updateStatus k
  cases hfind : c.find? k p with
  | none =>
    exact .inl ⟨_, write_of_missing htake hwhole hplace hfind,
      write_of_missing htake' hwhole' hplace (hsame.trans hfind)⟩
  | some stored =>
    cases hversion : versionAgrees o stored with
    | false =>
      exact .inl ⟨_, write_of_conflict htake hwhole hplace hfind hversion,
        write_of_conflict htake' hwhole' hplace (hsame.trans hfind) hversion⟩
    | true =>
      exact .inr ⟨stored, rfl, write_of_agrees htake hwhole hplace hfind hversion rfl,
        write_of_agrees htake' hwhole' hplace (hsame.trans hfind) hversion rfl⟩

end Calls

end Cluster

end Submarine
