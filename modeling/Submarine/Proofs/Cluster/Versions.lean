import Submarine.Proofs.Cluster.Effects

namespace Submarine

variable {k : Kind}

def Object.HasVersion (o : Object k) (n : Nat) : Prop :=
  o.metadata.resourceVersion = some (toString n)

namespace Object.HasVersion

variable {o : Object k} {m n : Nat}

theorem unique (hm : o.HasVersion m) (hn : o.HasVersion n) : m = n := by
  have htext : toString m = toString n := Option.some.inj (hm.symm.trans hn)
  have hdigits : Nat.toDigits 10 m = Nat.toDigits 10 n := by
    simpa [← String.toList_inj] using htext
  simpa [Nat.ofDigitChars_toDigits] using congrArg (Nat.ofDigitChars 10 · 0) hdigits

theorem withVersion (o : Object k) (n : Nat) : (o.withVersion n).HasVersion n := rfl

end Object.HasVersion

namespace Cluster

/-- What others do to a cluster, and the failures that are put in the way of calls. -/
inductive Operation where
  | get (k : Kind) (p : Place)
  | create (k : Kind) (o : Object k)
  | update (k : Kind) (o : Object k)
  | updateStatus (k : Kind) (o : Object k)
  | insert (k : Kind) (o : Object k)
  | modify (k : Kind) (p : Place) (edit : Object k → Option (Object k))
  | remove (k : Kind) (p : Place)
  | failNext (verb : Verb) (k : Kind) (outage : Outage)
  | clearCalls

/-- An insertion or removal that comes to nothing leaves the cluster as it is. -/
def perform (c : Cluster) : Operation → Cluster
  | .get k p => (c.get k p).2
  | .create _ o => (c.create o).2
  | .update _ o => (c.update o).2
  | .updateStatus _ o => (c.updateStatus o).2
  | .insert _ o => ((c.insert? o).map Prod.snd).getD c
  | .modify _ p edit => (c.modify p edit).2
  | .remove k p => ((c.remove? k p).map Prod.snd).getD c
  | .failNext verb k outage => c.failNext verb k outage
  | .clearCalls => c.clearCalls

inductive Reachable : Cluster → Prop where
  | empty : Reachable empty
  | perform {c : Cluster} (op : Operation) (h : Reachable c) : Reachable (c.perform op)

def performAll (c : Cluster) (ops : List Operation) : Cluster := ops.foldl perform c

theorem performAll_concat (c : Cluster) (ops : List Operation) (op : Operation) :
    c.performAll (ops ++ [op]) = (c.performAll ops).perform op := by
  simp [performAll]

theorem Reachable.performAll {c : Cluster} (h : Reachable c) (ops : List Operation) :
    Reachable (c.performAll ops) := by
  induction ops generalizing c with
  | nil => exact h
  | cons op rest ih => exact ih (.perform op h)

variable {c c' : Cluster}

namespace Effect

theorem get (c : Cluster) (k : Kind) (p : Place) : Effect c (c.get k p).2 :=
  .unchanged (get_spec (Prod.eta _)).1

theorem create (c : Cluster) (o : Object k) : Effect c (c.create o).2 := by
  rcases create_spec (Prod.eta (c.create o)) with ⟨p, uid, -, -, hstores, -⟩ | ⟨hsame, -⟩
  · exact .stores p _ hstores
  · exact .unchanged hsame

theorem write (c : Cluster) (verb : Verb) (merge? : Object k → Object k → Option (Object k))
    (o : Object k) : Effect c (c.write verb merge? o).2 := by
  rcases write_spec (Prod.eta (c.write verb merge? o)) with
    ⟨p, _, merged, -, -, -, -, hstores, -⟩ | ⟨hsame, -⟩
  · exact .stores p merged hstores
  · exact .unchanged hsame

theorem update (c : Cluster) (o : Object k) : Effect c (c.update o).2 := write c .update _ o

theorem updateStatus (c : Cluster) (o : Object k) : Effect c (c.updateStatus o).2 :=
  write c .updateStatus _ o

theorem insert (c : Cluster) (o : Object k) :
    Effect c (((c.insert? o).map Prod.snd).getD c) := by
  rcases h : c.insert? o with _ | ⟨stored, c'⟩
  · exact .unchanged (.refl c)
  · obtain ⟨p, _, -, -, hstores⟩ := insert?_spec h
    exact .stores p _ hstores

theorem modify (c : Cluster) (p : Place) (edit : Object k → Option (Object k)) :
    Effect c (c.modify p edit).2 := by
  rcases modify_spec (Prod.eta (c.modify p edit)) with ⟨_, _, o, -, -, -, hstores⟩ | hsame
  · exact .stores p o hstores
  · exact .unchanged hsame

theorem remove (c : Cluster) (k : Kind) (p : Place) :
    Effect c (((c.remove? k p).map Prod.snd).getD c) := by
  rcases h : c.remove? k p with _ | ⟨removed, c'⟩
  · exact .unchanged (.refl c)
  · rcases remove?_spec h with ⟨o, hremoves⟩ | hsame
    · exact .removes p o hremoves
    · exact .unchanged hsame

theorem perform (c : Cluster) (op : Operation) : Effect c (c.perform op) := by
  cases op with
  | get k p => exact get c k p
  | create k o => exact create c o
  | update k o => exact update c o
  | updateStatus k o => exact updateStatus c o
  | insert k o => exact insert c o
  | modify k p edit => exact modify c p edit
  | remove k p => exact remove c k p
  | failNext | clearCalls => exact .unchanged ⟨rfl, rfl, rfl⟩

end Effect

/-- Every stored object bears a version that has been given, and no two bear the same. -/
structure Stamped (c : Cluster) : Prop where
  bears : ∀ {k : Kind} {p : Place} {o : Object k}, c.find? k p = some o →
    ∃ n ≤ c.version, o.HasVersion n
  single : ∀ {k j : Kind} {p q : Place} {o : Object k} {o' : Object j} {n : Nat},
    c.find? k p = some o → c.find? j q = some o' → o.HasVersion n → o'.HasVersion n →
      j = k ∧ q = p

def Remembers (c : Cluster) (p : Place) (live : Object k) : Prop :=
  ∃ n ≤ c.version, live.HasVersion n ∧ ∀ {j : Kind} {q : Place} {o : Object j},
    c.find? j q = some o → o.HasVersion n → q = p ∧ AnyObject.mk j o = ⟨k, live⟩

/-- What is stored after an operation was stored before, or is the one object that bears the version
given by it. -/
theorem Effect.find?_cases (he : Effect c c') {p : Place} {o : Object k}
    (h : c'.find? k p = some o) :
    c.find? k p = some o ∨
      c'.version = c.version + 1 ∧ o.HasVersion c'.version ∧
        ∀ j q, ¬ (j = k ∧ q = p) → c'.find? j q = c.find? j q := by
  cases he with
  | unchanged hsame => exact .inl (hsame.find? k p ▸ h)
  | stores q o' hstores =>
    rcases hstores.find?_cases h with hold | ⟨rfl, ⟨⟩⟩
    · exact .inl hold
    · refine .inr ⟨hstores.version, ?_, hstores.find?_of_ne⟩
      rw [hstores.version]
      exact .withVersion o' _
  | removes q o' hremoves => exact .inl (hremoves.find?_of_some h)

theorem Effect.version_le (he : Effect c c') : c.version ≤ c'.version := by
  cases he with
  | unchanged hsame => exact Nat.le_of_eq hsame.version.symm
  | stores p o hstores => rw [hstores.version]; omega
  | removes p o hremoves => exact Nat.le_of_eq hremoves.version.symm

theorem Effect.length_log_le (he : Effect c c') : c.log.length ≤ c'.log.length := by
  cases he with
  | unchanged hsame => exact Nat.le_of_eq (congrArg List.length hsame.log.symm)
  | stores p o hstores => rw [hstores.log, List.length_append]; omega
  | removes p o hremoves => rw [hremoves.log, List.length_append]; omega

namespace Stamped

theorem empty : Stamped empty where
  bears h := by simp [find?, Cluster.empty] at h
  single h := by simp [find?, Cluster.empty] at h

theorem effect (hc : Stamped c) (he : Effect c c') : Stamped c' where
  bears {k p o} h := by
    rcases he.find?_cases h with hold | ⟨-, hnew, -⟩
    · obtain ⟨n, hn, hbears⟩ := hc.bears hold
      exact ⟨n, Nat.le_trans hn he.version_le, hbears⟩
    · exact ⟨c'.version, Nat.le_refl _, hnew⟩
  single {k j p q o o' n} h h' hn hn' := by
    -- Two new objects would differ from the old ones in two places.
    rcases he.find?_cases h with hold | ⟨hversion, hnew, hother⟩
    · rcases he.find?_cases h' with hold' | ⟨hversion, hnew', -⟩
      · exact hc.single hold hold' hn hn'
      · obtain ⟨m, hm, hbears⟩ := hc.bears hold
        have := hn.unique hbears
        have := hn'.unique hnew'
        omega
    · refine Decidable.byContradiction fun hne ↦ ?_
      obtain ⟨m, hm, hbears⟩ := hc.bears (hother j q hne ▸ h')
      have := hn'.unique hbears
      have := hn.unique hnew
      omega

theorem reachable (h : Reachable c) : Stamped c := by
  induction h with
  | empty => exact .empty
  | perform op _ ih => exact ih.effect (.perform _ op)

end Stamped

namespace Remembers

variable {p : Place} {live : Object k}

theorem of_find? (hc : Stamped c) (h : c.find? k p = some live) : c.Remembers p live := by
  obtain ⟨n, hn, hbears⟩ := hc.bears h
  refine ⟨n, hn, hbears, fun {j q o} hfind hversion ↦ ?_⟩
  obtain ⟨rfl, rfl⟩ := hc.single h hfind hbears hversion
  obtain rfl := Option.some.inj (h.symm.trans hfind)
  exact ⟨rfl, rfl⟩

theorem effect (h : c.Remembers p live) (he : Effect c c') : c'.Remembers p live := by
  obtain ⟨n, hn, hbears, hall⟩ := h
  refine ⟨n, Nat.le_trans hn he.version_le, hbears, fun {j q o} hfind hversion ↦ ?_⟩
  rcases he.find?_cases hfind with hold | ⟨hnext, hnew, -⟩
  · exact hall hold hversion
  · have := hversion.unique hnew
    omega

/-- A write against the version of an object that was read replaces that very object. -/
theorem eq_of_versionAgrees (h : c.Remembers p live) {q : Place} {incoming stored : Object k}
    (hfind : c.find? k q = some stored)
    (hsame : incoming.metadata.resourceVersion = live.metadata.resourceVersion)
    (hagrees : versionAgrees incoming stored) : q = p ∧ stored = live := by
  obtain ⟨n, -, hbears, hall⟩ := h
  have hincoming : incoming.metadata.resourceVersion = some (toString n) := hsame.trans hbears
  have hstored : stored.HasVersion n := by
    simpa [versionAgrees, hincoming, Object.HasVersion, eq_comm] using hagrees
  obtain ⟨rfl, heq⟩ := hall hfind hstored
  exact ⟨rfl, by simpa using heq⟩

end Remembers

end Cluster

end Submarine
