import Submarine.Proofs.Cluster.Versions
import Submarine.Reconcile.World

namespace Submarine.World

open Cluster (Effect Stamped)

variable {k : Kind} {w w' : World}

/-- Only a request that breaks off is served in any other way than by an answer. -/
theorem answer_of_serve {r : Request} {answer : r.Answer} (h : w.serve r = (some answer, w')) :
    w.answer r = (some answer, w') := by
  unfold serve at h
  split at h
  · simp at h
  · exact h

theorem serve_eq_answer (h : ∀ k, w.crashes k = 0) (r : Request) : w.serve r = w.answer r := by
  have hnone : w.crashKind? r = none := by
    cases r with
    | get k ns name => exact if_pos (h k)
    | _ => rfl
  rw [serve, hnone]

theorem effect_answer (w : World) (r : Request) : Effect w.cluster (w.answer r).2.cluster := by
  cases r with
  | get k ns name => exact .get w.cluster k ⟨ns, name⟩
  | create k o => exact .create w.cluster o
  | update k o => exact .update w.cluster o
  | updateStatus k o => exact .updateStatus w.cluster o
  | cachedRoot | publish | now => exact .unchanged (.refl _)

theorem effect_serve (w : World) (r : Request) : Effect w.cluster (w.serve r).2.cluster := by
  unfold serve
  split
  · exact .unchanged (.refl _)
  · exact effect_answer w r

theorem step_ask {α : Type} (w : World) (r : Request) (next : r.Answer → Pass α) :
    (w.step (.ask r next)).2 = (w.serve r).2 := by
  rw [step]
  split <;> next hserve => rw [hserve]

theorem effect_step {α : Type} (w : World) (p : Pass α) :
    Effect w.cluster (w.step p).2.cluster := by
  cases p with
  | done | fail => exact .unchanged (.refl _)
  | ask r next => rw [step_ask]; exact effect_serve w r

theorem get_of_serve {ns name : String} {found : Except ApiError (Object k)}
    (h : w.serve (.get k ns name) = (some found, w')) :
    w.cluster.get k ⟨ns, name⟩ = (some found, w'.cluster) := by
  obtain ⟨hreply, rfl⟩ := Prod.mk.inj (answer_of_serve h)
  exact Prod.ext hreply rfl

theorem create_of_serve {o : Object k} {reply : Reply k}
    (h : w.serve (.create k o) = (reply, w')) : w.cluster.create o = (reply, w'.cluster) := by
  obtain ⟨hreply, rfl⟩ := Prod.mk.inj h
  exact Prod.ext hreply rfl

theorem update_of_serve {o : Object k} {reply : Reply k}
    (h : w.serve (.update k o) = (reply, w')) : w.cluster.update o = (reply, w'.cluster) := by
  obtain ⟨hreply, rfl⟩ := Prod.mk.inj h
  exact Prod.ext hreply rfl

theorem updateStatus_of_serve {o : Object k} {reply : Reply k}
    (h : w.serve (.updateStatus k o) = (reply, w')) : w.cluster.updateStatus o = (reply, w'.cluster) := by
  obtain ⟨hreply, rfl⟩ := Prod.mk.inj h
  exact Prod.ext hreply rfl

theorem unchanged_serve_of_not_write {r : Request} (w : World) (hr : r.isWrite = false) :
    Cluster.Unchanged w.cluster (w.serve r).2.cluster := by
  unfold serve
  split
  · exact .refl _
  · cases r with
    | get j ns name => exact (Cluster.get_spec (Prod.eta (w.cluster.get j ⟨ns, name⟩))).1
    | create | update | updateStatus => contradiction
    | cachedRoot | publish | now => exact .refl _

end Submarine.World
