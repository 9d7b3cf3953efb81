import Submarine.Proofs.Cluster.Effects

namespace Submarine

variable {k : Kind}

theorem takeOutage_eq_some {verb : Verb} {outages rest : List PendingOutage} {outage : Outage}
    (h : takeOutage verb k outages = some (outage, rest)) :
    ∃ before after o, outages = before ++ o :: after ∧ rest = before ++ after ∧
      o.outage = outage := by
  induction outages generalizing rest with
  | nil => simp [takeOutage] at h
  | cons f later ih =>
    rw [takeOutage] at h
    split at h
    · obtain ⟨hf, rfl⟩ := Prod.mk.inj (Option.some.inj h)
      exact ⟨[], later, f, rfl, rfl, hf⟩
    · obtain ⟨⟨taken, left⟩, htake, heq⟩ := Option.map_eq_some_iff.1 h
      obtain ⟨rfl, rfl⟩ := Prod.mk.inj heq
      obtain ⟨before, after, o, rfl, rfl, ho⟩ := ih htake
      exact ⟨f :: before, after, o, rfl, rfl, ho⟩

namespace Cluster

variable {c c' c'' : Cluster}

/-- The failure comes from one of the outages. That one is used up, and no other. -/
def Spends (c : Cluster) (f : Failure) (c' : Cluster) : Prop :=
  ∃ before after o what, c.outages = before ++ o :: after ∧ c'.outages = before ++ after ∧
    f = .cluster (Outage.error o.outage what)

namespace Spends

variable {f : Failure}

theorem severity (h : c.Spends f c') : f.severity = .transient := by
  obtain ⟨_, _, o, _, -, -, rfl⟩ := h
  rfl

theorem length (h : c.Spends f c') : c'.outages.length + 1 = c.outages.length := by
  obtain ⟨before, after, o, _, hold, hnew, -⟩ := h
  rw [hold, hnew]
  simp only [List.length_append, List.length_cons]
  omega

theorem of_outages_eq (hsame : c'.outages = c.outages) (h : c'.Spends f c'') : c.Spends f c'' := by
  rwa [Spends, ← hsame]

end Spends

inductive Meets (c : Cluster) (usual : Except ApiError (Object k) → Prop) (reply : Reply k)
    (c' : Cluster) : Prop where
  | outage (e : ApiError) (reply_eq : reply = some (.error e)) (spends : c.Spends (.cluster e) c')
      (found : ∀ what, e ≠ .notFound what) (same : Unchanged c c') (whole : c'.isBroken = false)
  | course (answer : Except ApiError (Object k)) (reply_eq : reply = some answer)
      (answered : usual answer) (outages : c'.outages = c.outages) (whole : c'.isBroken = false)

variable {o : Object k} {p : Place} {reply : Reply k}

theorem note_cases {verb : Verb} {failure : Option ApiError} (hwhole : c.isBroken = false)
    (h : c.note verb k p = (failure, c')) :
    (∃ e, failure = some e ∧ ∀ usual, c.Meets usual (some (.error e) : Reply k) c') ∨
      failure = none ∧ Unchanged c c' ∧ c'.outages = c.outages ∧ c'.isBroken = false := by
  obtain ⟨hsame, hbroken, hfailure⟩ := note_spec h
  have hwhole' : c'.isBroken = false := hbroken.trans hwhole
  simp only [note] at h
  split at h
  · next outage outages htake =>
    obtain ⟨rfl, rfl⟩ := Prod.mk.inj h
    obtain ⟨before, after, o, hold, rfl, rfl⟩ := takeOutage_eq_some htake
    refine .inl ⟨_, rfl, fun _ ↦ .outage _ rfl ?_ (hfailure _ rfl) hsame hwhole'⟩
    exact ⟨before, after, o, _, hold, rfl, rfl⟩
  · obtain ⟨rfl, rfl⟩ := Prod.mk.inj h
    exact .inr ⟨rfl, hsame, rfl, hwhole'⟩

namespace Meets

theorem get (hwhole : c.isBroken = false) (h : c.get k p = (reply, c')) :
    c.Meets (fun answer ↦ (∃ live, c.find? k p = some live ∧ answer = .ok live) ∨
      c.find? k p = none ∧ ∃ what, answer = .error (.notFound what)) reply c' := by
  rw [Cluster.get, if_neg (by simp [hwhole])] at h
  rcases hn : c.note .get k p with ⟨failure, c₁⟩
  rw [hn] at h
  rcases note_cases hwhole hn with ⟨e, rfl, hmeets⟩ | ⟨rfl, hsame, houtages, hwhole₁⟩
  · obtain ⟨rfl, rfl⟩ := Prod.mk.inj h
    exact hmeets _
  · have hfind := hsame.find? k p
    dsimp only at h
    rcases hstored : c₁.find? k p with _ | live <;> rw [hstored] at h hfind <;>
      obtain ⟨rfl, rfl⟩ := Prod.mk.inj h
    · exact .course _ rfl (.inr ⟨hfind.symm, _, rfl⟩) houtages hwhole₁
    · exact .course _ rfl (.inl ⟨live, hfind.symm, rfl⟩) houtages hwhole₁

theorem create (hwhole : c.isBroken = false) (hplace : o.place = .ok p)
    (hfree : c.find? k p = none) (h : c.create o = (reply, c')) :
    c.Meets (fun answer ↦ ∃ stored, answer = .ok stored) reply c' := by
  unfold Cluster.create at h
  rw [hplace] at h
  dsimp only at h
  rw [if_neg (by simp [hwhole])] at h
  rcases hn : c.note .create k p with ⟨failure, c₁⟩
  rw [hn] at h
  rcases note_cases hwhole hn with ⟨e, rfl, hmeets⟩ | ⟨rfl, hsame, houtages, hwhole₁⟩
  · obtain ⟨rfl, rfl⟩ := Prod.mk.inj h
    exact hmeets _
  · dsimp only at h
    rw [if_neg (by simp [hsame.find?, hfree])] at h
    obtain ⟨rfl, rfl⟩ := Prod.mk.inj h
    exact .course _ rfl ⟨_, rfl⟩ houtages hwhole₁

theorem write {verb : Verb} {merge? : Object k → Object k → Option (Object k)}
    {stored : Object k} (hwhole : c.isBroken = false) (hplace : o.place = .ok p)
    (hfind : c.find? k p = some stored) (hversion : versionAgrees o stored)
    (hmerge : (merge? stored o).isSome) (h : c.write verb merge? o = (reply, c')) :
    c.Meets (fun answer ↦ ∃ written, answer = .ok written) reply c' := by
  unfold Cluster.write at h
  rw [hplace] at h
  dsimp only at h
  rw [if_neg (by simp [hwhole])] at h
  rcases hn : c.note verb k p with ⟨failure, c₁⟩
  rw [hn] at h
  rcases note_cases hwhole hn with ⟨e, rfl, hmeets⟩ | ⟨rfl, hsame, houtages, hwhole₁⟩
  · obtain ⟨rfl, rfl⟩ := Prod.mk.inj h
    exact hmeets _
  · obtain ⟨merged, hmerged⟩ := Option.isSome_iff_exists.1 hmerge
    dsimp only at h
    rw [hsame.find?, hfind] at h
    dsimp only at h
    rw [if_pos hversion, hmerged] at h
    obtain ⟨rfl, rfl⟩ := Prod.mk.inj h
    exact .course _ rfl ⟨_, rfl⟩ houtages hwhole₁

end Meets

def record (c : Cluster) (call : Call) : Cluster := { c with calls := c.calls ++ [call] }

theorem find?_record (c : Cluster) (call : Call) (k : Kind) (p : Place) :
    (c.record call).find? k p = c.find? k p := rfl

section NoOutages

variable {stored merged : Object k} {verb : Verb}
  {merge? : Object k → Object k → Option (Object k)}

theorem note_of_takeOutage {verb : Verb} (htake : takeOutage verb k c.outages = none) (p : Place) :
    c.note verb k p = (none, c.record ⟨verb, k, p⟩) := by
  rw [note]
  dsimp only
  rw [htake]
  rfl

theorem takeOutage_of_outages (houtages : c.outages = []) (verb : Verb) (k : Kind) :
    takeOutage verb k c.outages = none := by
  rw [houtages, takeOutage]

theorem note_of_outages (houtages : c.outages = []) (verb : Verb) (k : Kind) (p : Place) :
    c.note verb k p = (none, c.record ⟨verb, k, p⟩) :=
  note_of_takeOutage (takeOutage_of_outages houtages verb k) p

theorem get_of_stored (houtages : c.outages = []) (hwhole : c.isBroken = false)
    (hfind : c.find? k p = some o) : c.get k p = (some (.ok o), c.record ⟨.get, k, p⟩) := by
  rw [get, if_neg (by simp [hwhole]), note_of_outages houtages]
  dsimp only
  rw [find?_record, hfind]

theorem get_of_missing (houtages : c.outages = []) (hwhole : c.isBroken = false)
    (hfree : c.find? k p = none) :
    c.get k p = (some (.error (.notFound (describe k p))), c.record ⟨.get, k, p⟩) := by
  rw [get, if_neg (by simp [hwhole]), note_of_outages houtages]
  dsimp only
  rw [find?_record, hfree]

theorem create_of_outages (houtages : c.outages = []) (hwhole : c.isBroken = false)
    (hplace : o.place = .ok p) (hfree : c.find? k p = none) :
    c.create o = (some (.ok ((o.born c.nextUid).withVersion (c.version + 1))),
      ((c.record ⟨.create, k, p⟩).giveUid.2.commit p (o.born c.nextUid)).2) := by
  unfold create
  rw [hplace]
  dsimp only
  rw [if_neg (by simp [hwhole]), note_of_outages houtages]
  dsimp only
  rw [find?_record, hfree]
  rfl

theorem write_of_place_error {e : ApiError} (hplace : o.place = .error e) :
    c.write verb merge? o = (some (.error e), c) := by
  unfold write
  rw [hplace]

section Write

variable (htake : takeOutage verb k c.outages = none) (hwhole : c.isBroken = false)
  (hplace : o.place = .ok p)

include htake hwhole hplace

/-- A write is recorded, then it is judged by what is stored. -/
theorem write_of_takeOutage :
    c.write verb merge? o =
      match c.find? k p with
      | none => (some (.error (.notFound (describe k p))), c.record ⟨verb, k, p⟩)
      | some stored =>
        if versionAgrees o stored then
          match merge? stored o with
          | none => (none, (c.record ⟨verb, k, p⟩).breakOff)
          | some merged =>
            (some (.ok (merged.withVersion (c.version + 1))),
              ((c.record ⟨verb, k, p⟩).commit p merged).2)
        else (some (.error (.conflict (describe k p))), c.record ⟨verb, k, p⟩) := by
  unfold write
  rw [hplace]
  dsimp only
  rw [if_neg (by simp [hwhole]), note_of_takeOutage htake]
  dsimp only
  rw [find?_record]
  rfl

theorem write_of_missing (hfree : c.find? k p = none) :
    c.write verb merge? o =
      (some (.error (.notFound (describe k p))), c.record ⟨verb, k, p⟩) := by
  rw [write_of_takeOutage htake hwhole hplace, hfree]

theorem write_of_conflict (hfind : c.find? k p = some stored)
    (hversion : versionAgrees o stored = false) :
    c.write verb merge? o =
      (some (.error (.conflict (describe k p))), c.record ⟨verb, k, p⟩) := by
  rw [write_of_takeOutage htake hwhole hplace, hfind]
  dsimp only
  rw [if_neg (by simp [hversion])]

theorem write_of_agrees (hfind : c.find? k p = some stored) (hversion : versionAgrees o stored)
    (hmerge : merge? stored o = some merged) :
    c.write verb merge? o = (some (.ok (merged.withVersion (c.version + 1))),
      ((c.record ⟨verb, k, p⟩).commit p merged).2) := by
  rw [write_of_takeOutage htake hwhole hplace, hfind]
  dsimp only
  rw [if_pos hversion, hmerge]

end Write

end NoOutages

end Cluster

end Submarine
