import Submarine.Reconcile.Basic

namespace Submarine

variable {α : Type} {root : Root}

theorem Pass.bind_assoc {β γ : Type} (p : Pass α) (f : α → Pass β) (g : β → Pass γ) :
    (p.bind f).bind g = p.bind fun a ↦ (f a).bind g := by
  induction p with
  | done a => rfl
  | fail e => rfl
  | ask r next ih => exact congrArg (Pass.ask r) (funext ih)

def convergeAll (root : Root) : List AnyChild → Pass Unit
  | [] => .done ()
  | c :: rest => (converge root c.child).bind fun _ ↦ convergeAll root rest

theorem convergeAll_nil_bind (next : Unit → Pass α) : (convergeAll root []).bind next = next () :=
  rfl

theorem convergeAll_cons_bind (c : AnyChild) (rest : List AnyChild) (next : Unit → Pass α) :
    (convergeAll root (c :: rest)).bind next =
      (converge root c.child).bind fun _ ↦ (convergeAll root rest).bind next :=
  Pass.bind_assoc ..

theorem convergeAll_append (first second : List AnyChild) :
    convergeAll root (first ++ second) =
      (convergeAll root first).bind fun _ ↦ convergeAll root second := by
  induction first with
  | nil => rfl
  | cons c rest ih => rw [List.cons_append, convergeAll_cons_bind, ← ih, convergeAll]

theorem convergeAuxiliaries_eq (all : List Manifest.Auxiliary) :
    convergeAuxiliaries root all =
      convergeAll root ((all.filter (·.enabled root)).flatMap Plan.auxiliary) := by
  induction all with
  | nil => rfl
  | cons aux rest ih =>
    by_cases henabled : aux.enabled root
    · rw [List.filter_cons, if_pos henabled, List.flatMap_cons, convergeAll_append, ← ih,
        convergeAuxiliaries, if_pos henabled]
      simp only [Plan.auxiliary, convergeAll_cons_bind, convergeAll_nil_bind]
      rfl
    · rw [List.filter_cons, if_neg henabled, ← ih, convergeAuxiliaries, if_neg henabled]

def convergeDatabaseSet (root : Root) : Pass (Object .statefulSet) := do
  let set ← converge root Child.databaseSet
  let _ ← converge root Child.databaseService
  return set

theorem convergeDatabase_eq (root : Root) :
    convergeDatabase root = (converge root Child.databaseClaim).bind fun _ ↦
      if Manifest.Database.managesSecret root then
        (converge root Child.databaseSecret).bind fun _ ↦ convergeDatabaseSet root
      else convergeDatabaseSet root := rfl

/-- After the server and the database, a pass goes through what is left of the plan. -/
theorem reconcileRoot_eq_planned (root : Root) :
    reconcileRoot root = (convergeServer root).bind fun server ↦
      (convergeDatabase root).bind fun database ↦ (convergeAll root Plan.access).bind fun _ ↦
        (convergeAll root (Plan.auxiliaries root)).bind fun _ ↦
          (reportStatus root server database).bind fun _ ↦
            (Pass.request (.publish (.synced root))).bind fun _ ↦ .done () := by
  have hauxiliaries : convergeAll root (Plan.auxiliaries root) =
      convergeAuxiliaries root Manifest.Auxiliary.all :=
    (convergeAuxiliaries_eq _).symm
  simp only [hauxiliaries, Plan.access, convergeAll_cons_bind, convergeAll_nil_bind]
  rfl

end Submarine
