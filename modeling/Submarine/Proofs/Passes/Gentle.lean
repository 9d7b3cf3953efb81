import Submarine.Proofs.Cluster.Manners
import Submarine.Proofs.Passes.Guarded

namespace Submarine

open Cluster (Proper Gentle)

variable {k : Kind} {c c' : Cluster} {p : Place} {root : Root} {child : AnyChild}

namespace Plan

theorem kind_mem_childKinds (h : child ∈ plan root) : child.kind ∈ childKinds := by
  have hfull : ∀ child ∈ full, child.kind ∈ childKinds := by decide +kernel
  exact hfull child ((sublist_full root).subset h)

theorem isKeyed (hp : p.IsKeyed) (h : child ∈ plan root) :
    Place.IsKeyed ⟨p.ns, child.child.name⟩ := by
  have hfull : ∀ child ∈ full, child.child.name ≠ "" ∧ '/' ∉ child.child.name.toList := by
    decide +kernel
  obtain ⟨hne, hslash⟩ := hfull child ((sublist_full root).subset h)
  exact ⟨hp.ns_ne, hne, hp.ns_slash, hslash⟩

end Plan

theorem Written.gentle {seen : Option Sight} (hc : Proper c) (hroot : root.Named p)
    (h : Written root (plan root) seen c c') : Gentle c c' := by
  cases h with
  | nothing same => exact .unchanged same
  | created child ns o declared home free place controlled known stores =>
    obtain rfl : p.ns = ns := Option.some.inj (hroot.ns.symm.trans home)
    have hnamed : o.Named ⟨p.ns, child.name⟩ :=
      .of_place place known (Plan.isKeyed hroot.isKeyed declared)
    refine .stores _ o hnamed (fun _ old hold ↦ ?_) stores
    rw [free] at hold
    contradiction
  | updated child ns live o declared home sight there controlled metadata stores =>
    obtain ⟨generation, hmetadata⟩ := metadata
    have hlive := hc.named there
    have hnamed : o.Named ⟨ns, child.name⟩ := by
      refine hlive.congr ?_ ?_ ?_
      · rw [hmetadata]
      · rw [hmetadata]
      · rw [hmetadata]
        exact hlive.uid
    refine .stores _ o hnamed (fun _ old hold link hlink ↦ ?_) stores
    obtain rfl := Option.some.inj (there.symm.trans hold)
    rwa [Object.controller?, hmetadata]
  | reported q live o place there version metadata stores =>
    have hlive := hc.named there
    have hnamed : o.Named q := by
      refine hlive.congr ?_ ?_ ?_
      · rw [metadata]
      · rw [metadata]
      · rw [metadata]
        exact hlive.uid
    refine .stores _ o hnamed (fun hk ↦ ?_) stores
    have hnone : Kind.submarine ∉ childKinds := by decide
    exact absurd hk hnone

end Submarine
