import Mathlib.Algebra.Group.Nat.Defs
import Submarine.Controller.Basic
import Submarine.Proofs.Settings.Loading

namespace Submarine

open Time (nanosPerMilli nanosPerSecond)

namespace Backoff

def lastDoubling : Nat := 31

variable {b : Backoff} {m n : Nat}

/-- A product that is no length of time is above the longest delay, as that is one. -/
theorem delay_eq_min (hmax : b.max ≤ Time.maxDelay) (n : Nat) :
    b.delay n = min (b.base * 2 ^ min n lastDoubling) b.max := by
  unfold delay
  dsimp only
  split
  · next hlong => exact (Nat.min_eq_right (Nat.le_of_lt (Nat.lt_of_le_of_lt hmax hlong))).symm
  · rfl

theorem delay_of_le (hmax : b.max ≤ Time.maxDelay) (hn : n ≤ lastDoubling) :
    b.delay n = min (b.base * 2 ^ n) b.max := by
  rw [delay_eq_min hmax, Nat.min_eq_left hn]

theorem delay_of_ge (hmax : b.max ≤ Time.maxDelay) (hn : lastDoubling ≤ n) :
    b.delay n = min (b.base * 2 ^ lastDoubling) b.max := by
  rw [delay_eq_min hmax, Nat.min_eq_right hn]

theorem delay_mono (hmax : b.max ≤ Time.maxDelay) (h : m ≤ n) : b.delay m ≤ b.delay n := by
  have hfactor : 2 ^ min m lastDoubling ≤ 2 ^ min n lastDoubling :=
    Nat.pow_le_pow_right (by decide) (by omega)
  have hproduct := Nat.mul_le_mul_left b.base hfactor
  rw [delay_eq_min hmax, delay_eq_min hmax]
  omega

theorem delay_zero (hmax : b.max ≤ Time.maxDelay) (hle : b.base ≤ b.max) : b.delay 0 = b.base := by
  rw [delay_of_le hmax (Nat.zero_le _), Nat.pow_zero, Nat.mul_one, Nat.min_eq_left hle]

theorem delay_succ (hmax : b.max ≤ Time.maxDelay) (hn : n < lastDoubling) :
    b.delay (n + 1) = min (2 * b.delay n) b.max := by
  rw [delay_of_le hmax hn, delay_of_le hmax (Nat.le_of_lt hn), Nat.pow_succ, ← Nat.mul_assoc]
  omega

/-- The delay keeps to the doubling as long as it is made, and for good where it leads to the
longest delay. -/
theorem delay_eq_iff (hmax : b.max ≤ Time.maxDelay) (hbase : 0 < b.base) :
    b.delay n = min (b.base * 2 ^ n) b.max ↔
      n ≤ lastDoubling ∨ b.max ≤ b.base * 2 ^ lastDoubling := by
  by_cases hn : n ≤ lastDoubling
  · exact iff_of_true (delay_of_le hmax hn) (.inl hn)
  · have hfactor : 2 ^ lastDoubling < 2 ^ n :=
      Nat.pow_lt_pow_right (by decide) (Nat.not_le.1 hn)
    have hproduct : b.base * 2 ^ lastDoubling < b.base * 2 ^ n :=
      Nat.mul_lt_mul_of_pos_left hfactor hbase
    rw [delay_of_ge hmax (Nat.le_of_not_le hn), or_iff_right hn]
    generalize b.base * 2 ^ lastDoubling = last, b.base * 2 ^ n = product at hproduct
    omega

theorem reaches_max_iff (hmax : b.max ≤ Time.maxDelay) :
    (∃ n, ∀ m, n ≤ m → b.delay m = b.max) ↔ b.max ≤ b.base * 2 ^ lastDoubling := by
  constructor
  · rintro ⟨n, hreached⟩
    have hlate := hreached (Nat.max n lastDoubling) (Nat.le_max_left _ _)
    rw [delay_of_ge hmax (Nat.le_max_right _ _)] at hlate
    exact hlate ▸ Nat.min_le_left _ _
  · intro hle
    refine ⟨lastDoubling, fun m hm ↦ ?_⟩
    rw [delay_of_ge hmax hm, Nat.min_eq_right hle]

end Backoff

namespace Settings

def backoff (s : Settings) : Backoff := ⟨s.baseDelay, s.maxDelay⟩

variable {env : Environment} {s : Settings}

theorem StandsFor.le_maxNumber {v : Variable} {standard n : Nat} (h : StandsFor env v standard n)
    (hstandard : standard ≤ maxNumber) : n ≤ maxNumber := by
  unfold StandsFor at h
  split at h
  · exact h ▸ hstandard
  · obtain ⟨core, -, -, hn⟩ := h
    exact hn

structure HasDelays (s : Settings) : Prop where
  base_pos : 0 < s.baseDelay
  base_le_max : s.baseDelay ≤ s.maxDelay
  max_le : s.maxDelay ≤ Time.maxDelay

theorem Follows.hasDelays (h : s.Follows env) : s.HasDelays := by
  obtain ⟨base, max, hallows, hbase, hmax⟩ := h.allows
  have hone := hallows.one_le_base
  have hle := hallows.base_le_max
  have hmaxNumber : max ≤ maxNumber := hallows.standsForMax.le_maxNumber (by decide)
  unfold nanosPerMilli at hbase
  unfold nanosPerSecond at hmax
  unfold maxNumber at hmaxNumber
  constructor
  · omega
  · omega
  · unfold Time.maxDelay
    omega

/-- Under settings that were loaded both delays are lengths of time, and so is every retry delay:
the factor fits into 32 bits, and a product that is too long is never used. The delay starts from the
first one, grows with the failures up to the longest one and not above it, and doubles with each of
the first thirty-one failures until it is reached. It is what doubling without end would give just
where there are no more failures than that, or the longest delay is reached by then; where it is not,
it never is. -/
theorem delays_double (h : load env = .ok s) (n : Nat) :
    (0 < s.baseDelay ∧ s.baseDelay ≤ s.maxDelay ∧ s.maxDelay ≤ Time.maxDelay) ∧
    (2 ^ min n Backoff.lastDoubling < 2 ^ 32 ∧ s.backoff.delay n ≤ Time.maxDelay) ∧
    s.backoff.delay 0 = s.baseDelay ∧
    s.backoff.delay n ≤ s.backoff.delay (n + 1) ∧
    s.backoff.delay n ≤ s.maxDelay ∧
    (n < Backoff.lastDoubling →
      s.backoff.delay (n + 1) = min (2 * s.backoff.delay n) s.maxDelay) ∧
    (s.backoff.delay n = min (s.baseDelay * 2 ^ n) s.maxDelay ↔
      n ≤ Backoff.lastDoubling ∨ s.maxDelay ≤ s.baseDelay * 2 ^ Backoff.lastDoubling) ∧
    ((∃ m, ∀ k, m ≤ k → s.backoff.delay k = s.maxDelay) ↔
      s.maxDelay ≤ s.baseDelay * 2 ^ Backoff.lastDoubling) := by
  obtain ⟨hpos, hle, hmax⟩ := (follows_of_load h).hasDelays
  have hbound : s.backoff.delay n ≤ s.maxDelay := s.backoff.delay_le_max n
  have hfactor : 2 ^ min n Backoff.lastDoubling < 2 ^ 32 :=
    Nat.pow_lt_pow_right (by decide) (Nat.lt_of_le_of_lt (Nat.min_le_right _ _) (by decide))
  exact ⟨⟨hpos, hle, hmax⟩, ⟨hfactor, Nat.le_trans hbound hmax⟩, Backoff.delay_zero hmax hle,
    Backoff.delay_mono hmax (Nat.le_succ n), hbound, Backoff.delay_succ hmax,
    Backoff.delay_eq_iff hmax hpos, Backoff.reaches_max_iff hmax⟩

/-- The standard delays: the eighteenth doubling passes the longest one. -/
theorem delays_double_of_standard :
    load (fun _ ↦ none) = .ok {} ∧ 5000000 * 2 ^ 17 < 1000000000000 ∧
      ({} : Settings).backoff.delay 40 = min (5000000 * 2 ^ 40) 1000000000000 ∧
      ∃ m, ∀ k, m ≤ k → ({} : Settings).backoff.delay k = 1000000000000 := by
  have hload : load (fun _ ↦ none) = .ok {} := by rfl
  have hreached : 1000000000000 ≤ 5000000 * 2 ^ Backoff.lastDoubling := by decide
  obtain ⟨-, -, -, -, -, -, hdoubles, hreaches⟩ := delays_double hload 40
  exact ⟨hload, by decide, hdoubles.2 (.inr hreached), hreaches.2 hreached⟩

open Backoff (delay_eq_iff delay_of_ge lastDoubling)

def patient : Environment
  | .queueBaseDelayMs => some "1"
  | .queueMaxDelaySecs => some "2592000"
  | _ => none

/-- After thirty-two failures the delay would be thirty days, but it stays at less than twenty-five
however many failures there are. -/
theorem delay_stays_below_longest :
    ∃ s, load patient = .ok s ∧
      s.backoff.delay 32 ≠ min (s.baseDelay * 2 ^ 32) s.maxDelay ∧
      2147483648000000 < s.maxDelay ∧
      ∀ n, lastDoubling ≤ n → s.backoff.delay n = 2147483648000000 := by
  have hload : load patient = .ok { baseDelay := 1000000, maxDelay := 2592000000000000 } := by
    cbv
  have hmax : 2592000000000000 ≤ Time.maxDelay := by decide
  have hlate : ¬ (32 ≤ lastDoubling ∨ 2592000000000000 ≤ 1000000 * 2 ^ lastDoubling) := by decide
  refine ⟨_, hload, (delay_eq_iff hmax (by decide)).not.2 hlate, by decide, fun n hn ↦ ?_⟩
  exact (delay_of_ge hmax hn).trans (by decide)

end Settings

end Submarine
