import Submarine.Reconcile.World

namespace Submarine

/-- Notes of type `σ`, and the rules that are judged by them. -/
structure Account (σ : Type) where
  allows : σ → Request → Prop
  tolerates : Failure → Prop
  note : σ → (r : Request) → r.Answer → σ

namespace Pass

variable {σ α β : Type} {A : Account σ} {Q : σ → α → Prop} {R : σ → β → Prop} {s : σ}

/-- However it is answered, the pass keeps to the rules of the account, and where it ends with a
value the notes and the value satisfy `Q`. -/
def Obeys (A : Account σ) (Q : σ → α → Prop) : σ → Pass α → Prop
  | s, done a => Q s a
  | _, fail e => A.tolerates e
  | s, ask r next => A.allows s r ∧ ∀ answer, (next answer).Obeys A Q (A.note s r answer)

theorem Obeys.mono {Q' : σ → α → Prop} {p : Pass α} (h : p.Obeys A Q s)
    (hQ : ∀ s a, Q s a → Q' s a) : p.Obeys A Q' s := by
  induction p generalizing s with
  | done a => exact hQ s a h
  | fail e => exact h
  | ask r next ih => exact ⟨h.1, fun answer ↦ ih answer (h.2 answer)⟩

theorem Obeys.bind {p : Pass α} {f : α → Pass β} (h : p.Obeys A Q s)
    (hf : ∀ s a, Q s a → (f a).Obeys A R s) : (p.bind f).Obeys A R s := by
  induction p generalizing s with
  | done a => exact hf s a h
  | fail e => exact h
  | ask r next ih => exact ⟨h.1, fun answer ↦ ih answer (h.2 answer)⟩

end Pass

end Submarine
