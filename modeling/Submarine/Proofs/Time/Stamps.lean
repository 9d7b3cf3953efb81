import Mathlib.Algebra.Group.Nat.Defs
import Submarine.Proofs.Time.Calendar
import Submarine.Time.Rfc3339

namespace Submarine.Time

namespace Instant

theorem isRegular (t : Instant) :
    t.nanos < 1000000000 ∨ (t.nanos < 2000000000 ∧ t.seconds % 60 = 59) := by
  have hfraction := t.fraction.isLt
  unfold nanos
  split
  · next hleap => exact .inr ⟨by omega, t.second.endsMinute hleap⟩
  · exact .inl hfraction

end Instant

namespace Rfc3339

open Submarine.Text (isBlank trimStart)

theorem digit_spec : ∀ n < 10, (Char.ofNat (48 + n)).isDigit ∧
    (Char.ofNat (48 + n)).toNat - 48 = n := by decide

@[simp] theorem length_padded (width n : Nat) : (padded width n).length = width := by
  induction width generalizing n with
  | zero => rfl
  | succ width ih => simp [padded, ih]

theorem isDigit_of_mem_padded {width n : Nat} {c : Char} (h : c ∈ padded width n) : c.isDigit := by
  induction width generalizing n with
  | zero => simp [padded] at h
  | succ width ih =>
    rcases List.mem_append.1 h with h | h
    · exact ih h
    · exact List.mem_singleton.1 h ▸ (digit_spec _ (Nat.mod_lt n (by decide))).1

theorem foldl_padded {width n : Nat} (h : n < 10 ^ width) :
    (padded width n).foldl (fun n d ↦ n * 10 + (d.toNat - 48)) 0 = n := by
  induction width generalizing n with
  | zero => simp [padded] at *; omega
  | succ width ih =>
    rw [padded, List.foldl_append, ih (by omega), List.foldl_cons, List.foldl_nil,
      (digit_spec _ (Nat.mod_lt n (by decide))).2]
    omega

/-- A number is read up to what is not a digit. -/
theorem digits_padded {most width n : Nat} {c : Char} (rest : List Char) (h : n < 10 ^ width)
    (hwidth : 0 < width) (hmost : width ≤ most) (hc : c.isDigit = false) :
    digits most (padded width n ++ c :: rest) = some (n, c :: rest) := by
  have htaken : ((padded width n ++ c :: rest).take most).takeWhile Char.isDigit =
      padded width n := by
    rw [List.take_append, List.take_of_length_le (by simpa using hmost),
      List.takeWhile_append_of_pos fun d hd ↦ isDigit_of_mem_padded hd]
    cases most - (padded width n).length <;> simp [hc]
  have hne : (padded width n).isEmpty = false := by
    rw [List.isEmpty_eq_false_iff, ← List.length_pos_iff, length_padded]
    exact hwidth
  simp only [digits, htaken, hne, foldl_padded h, Bool.false_eq_true, if_false, length_padded]
  rw [List.drop_append_of_le_length (by simp)]
  simp [List.drop_of_length_le]

theorem toNat_of_isDigit {c : Char} (h : c.isDigit) : 48 ≤ c.toNat ∧ c.toNat ≤ 57 := by
  simp only [Char.isDigit, Bool.and_eq_true, decide_eq_true_eq, ge_iff_le,
    UInt32.le_iff_toNat_le] at h
  exact h

theorem not_isBlank_of_isDigit {c : Char} (h : c.isDigit) : isBlank c = false := by
  have hc := toNat_of_isDigit h
  simp only [isBlank, Bool.or_eq_false_iff, Bool.and_eq_false_iff, decide_eq_false_iff_not]
  omega

theorem padded_eq_cons {width : Nat} (h : 0 < width) (n : Nat) :
    ∃ d ds, padded width n = d :: ds ∧ d.isDigit := by
  cases hds : padded width n with
  | nil =>
    have hlength := congrArg List.length hds
    simp only [length_padded, List.length_nil] at hlength
    omega
  | cons d ds =>
    have hd : d ∈ padded width n := by simp [hds]
    exact ⟨d, ds, rfl, isDigit_of_mem_padded hd⟩

theorem trimStart_padded {width : Nat} (h : 0 < width) (n : Nat) (rest : List Char) :
    trimStart (padded width n ++ rest) = padded width n ++ rest := by
  obtain ⟨d, ds, hds, hd⟩ := padded_eq_cons h n
  simp [hds, trimStart, not_isBlank_of_isDigit hd]

theorem number_padded {n : Nat} {c : Char} (rest : List Char) (h : n < 100)
    (hc : c.isDigit = false) : number 2 (padded 2 n ++ c :: rest) = some (n, c :: rest) := by
  rw [number, trimStart_padded (by decide)]
  exact digits_padded rest h (by decide) (by decide) hc

theorem year_padded {y : Int} (h : 0 ≤ y ∧ y ≤ 9999) (rest : List Char) :
    year (padded 4 y.natAbs ++ '-' :: rest) = some (y, '-' :: rest) := by
  have hdigits : digits 4 (padded 4 y.natAbs ++ '-' :: rest) = some (y.natAbs, '-' :: rest) :=
    digits_padded rest (by omega) (by decide) (by decide) (by decide)
  rw [year, trimStart_padded (by decide)]
  obtain ⟨d, ds, hds, hd⟩ := padded_eq_cons (by decide : 0 < 4) y.natAbs
  split
  · next heq =>
    rw [hds, List.cons_append, List.cons.injEq] at heq
    exact absurd hd (heq.1 ▸ by decide)
  · next heq =>
    rw [hds, List.cons_append, List.cons.injEq] at heq
    exact absurd hd (heq.1 ▸ by decide)
  · rw [hdigits]
    simp [Int.natAbs_of_nonneg h.1]

theorem lt_pow_length_toDigits (n : Nat) : n < 10 ^ max 4 (Nat.toDigits 10 n).length :=
  (Nat.length_toDigits_le_iff (by decide) (by omega)).1 (Nat.le_max_right ..)

theorem year_write (y : Int) (rest : List Char) :
    year (writeYear y ++ '-' :: rest) = some (y, '-' :: rest) := by
  rw [writeYear]
  split
  · next h => exact year_padded h rest
  · next h =>
    -- After a sign there may be any number of digits.
    have hdigits : allDigits (padded (max 4 (Nat.toDigits 10 y.natAbs).length) y.natAbs ++
        '-' :: rest) = some (y.natAbs, '-' :: rest) :=
      digits_padded rest (lt_pow_length_toDigits _) (by omega) (by simp) (by decide)
    split
    · next hneg =>
      have hread (cs : List Char) :
          year ('-' :: cs) = (allDigits cs).map fun r ↦ (-(r.1 : Int), r.2) := rfl
      rw [List.cons_append, hread, hdigits, Option.map_some, show -(y.natAbs : Int) = y by omega]
    · next hneg =>
      have hread (cs : List Char) :
          year ('+' :: cs) = (allDigits cs).map fun r ↦ ((r.1 : Int), r.2) := rfl
      rw [List.cons_append, hread, hdigits, Option.map_some, show (y.natAbs : Int) = y by omega]

theorem literal_cons {c : Char} (rest : List Char) (h : isBlank c = false) :
    literal c (c :: rest) = some rest := by
  simp [literal, trimStart, h]

/-- A fraction of so many digits, the unit being that of the last digit. -/
theorem fraction_padded {width n : Nat} (h : n < 10 ^ width) (hwidth : 0 < width)
    (hmost : width ≤ 9) :
    fraction ('.' :: padded width n ++ ['Z']) = some (n * 10 ^ (9 - width), ['Z']) := by
  have hdigits : digits 9 (padded width n ++ ['Z']) = some (n, ['Z']) :=
    digits_padded [] h hwidth hmost (by decide)
  simp [fraction, hdigits]

theorem fraction_write {n : Nat} (h : n < 1000000000) :
    fraction (writeFraction n ++ ['Z']) = some (n, ['Z']) := by
  unfold writeFraction
  split
  · next hn => simp [hn, fraction]
  · split
    · rw [fraction_padded (by omega) (by decide) (by decide),
        show n / 1000000 * 10 ^ (9 - 3) = n by omega]
    · split
      · rw [fraction_padded (by omega) (by decide) (by decide),
          show n / 1000 * 10 ^ (9 - 6) = n by omega]
      · rw [fraction_padded (by omega) (by decide) (by decide), show n * 10 ^ (9 - 9) = n by omega]

theorem writeFraction_eq_cons (n : Nat) :
    ∃ c rest, writeFraction n ++ ['Z'] = c :: rest ∧ c.isDigit = false := by
  unfold writeFraction
  split
  · exact ⟨_, _, rfl, by decide⟩
  · split
    · exact ⟨_, _, rfl, by decide⟩
    · split <;> exact ⟨_, _, rfl, by decide⟩

theorem date_bounds (seconds : Int) :
    (dateAt seconds).month < 100 ∧ (dateAt seconds).day < 100 := by
  have hvalid : (dateAt seconds).isValid := Date.isValid_ofDays _
  have hshort (year : Int) (month : Nat) : daysInMonth year month ≤ 31 := by
    unfold daysInMonth
    split <;> split <;> omega
  have := hshort (dateAt seconds).year (dateAt seconds).month
  simp only [Date.isValid, Bool.and_eq_true, decide_eq_true_eq] at hvalid
  omega

/-- The date and the time of day of an instant stand for it. -/
theorem instant?_self (t : Instant) :
    instant? t.date (secondOfDay t.seconds / 3600) (secondOfDay t.seconds / 60 % 60)
      (secondOfDay t.seconds % 60 + t.nanos / 1000000000) (t.nanos % 1000000000) 0 = some t := by
  obtain ⟨⟨number, isLeap, inRange, endsMinute⟩, fraction⟩ := t
  have hvalid : (dateAt number).isValid := Date.isValid_ofDays _
  have hdays : (dateAt number).toDays = number / 86400 + epochDay := Date.toDays_ofDays _
  obtain ⟨s, hs⟩ : ∃ s, s = secondOfDay number := ⟨_, rfl⟩
  have hofDay : (s : Int) = number % 86400 := by
    rw [hs, secondOfDay]
    omega
  have hfraction := fraction.isLt
  have hleap : (if isLeap then 1000000000 + fraction.val else fraction.val) / 1000000000 =
      if isLeap then 1 else 0 := by
    split <;> omega
  have hnanos : (if isLeap then 1000000000 + fraction.val else fraction.val) % 1000000000 =
      fraction.val := by
    split <;> omega
  have hminute : s % 60 + (if isLeap then 1 else 0) ≤ 60 := by split <;> omega
  have hnumber : ((dateAt number).toDays - epochDay) * 86400 + ((s / 3600 * 3600 +
      s / 60 % 60 * 60 + min (s % 60 + if isLeap then 1 else 0) 59 : Nat) : Int) - 0 = number := by
    rw [hdays]
    cases isLeap with
    | false => simp only [Bool.false_eq_true, if_false]; omega
    | true =>
      have := endsMinute rfl
      simp only [if_true]
      omega
  have hlast : decide (s % 60 + (if isLeap then 1 else 0) = 60) = isLeap := by
    cases isLeap with
    | false => simp only [Bool.false_eq_true, if_false, decide_eq_false_iff_not]; omega
    | true =>
      have := endsMinute rfl
      simp only [if_true, decide_eq_true_eq]
      omega
  have hsecond : Second.of? number isLeap = some ⟨number, isLeap, inRange, endsMinute⟩ :=
    dif_pos ⟨inRange, endsMinute⟩
  simp only [Instant.nanos, Instant.date, Instant.seconds, hleap, hnanos, ← hs]
  rw [instant?, if_pos ⟨hvalid, inRange, by omega, by omega, hminute⟩]
  simp only [hnumber, hlast, hsecond, Option.map_some]
  congr
  exact Fin.ext (Nat.mod_eq_of_lt hfraction)

theorem read?_write (t : Instant) : read? (write t) = some t := by
  obtain ⟨hmonth, hday⟩ := date_bounds t.seconds
  have hofDay : secondOfDay t.seconds < 86400 := by
    rw [secondOfDay]
    omega
  -- A leap second is written as the 60th, which still has two digits.
  have hsecond : secondOfDay t.seconds % 60 + t.nanos / 1000000000 < 100 := by
    have := t.isRegular
    omega
  have hfraction := fraction_write (Nat.mod_lt t.nanos (by decide : 1000000000 > 0))
  obtain ⟨c, rest, hrest, hc⟩ := writeFraction_eq_cons (t.nanos % 1000000000)
  rw [hrest] at hfraction
  have step {α β : Type} {x : Option α} {a : α} {f : α → Option β} {b : β} (hx : x = some a)
      (hf : f a = some b) : x >>= f = some b := Option.bind_eq_some_iff.2 ⟨a, hx, hf⟩
  simp only [write, writeParts, writeSeconds, List.append_assoc, List.cons_append, hrest, read?]
  exact step (year_write _ _) <| step (literal_cons _ (by decide)) <|
    step (number_padded _ hmonth (by decide)) <| step (literal_cons _ (by decide)) <|
    step (number_padded _ hday (by decide)) <| step rfl <|
    step (number_padded _ (by omega) (by decide)) <| step (literal_cons _ (by decide)) <|
    step (number_padded _ (by omega) (by decide)) <| step (literal_cons _ (by decide)) <|
    step (number_padded _ hsecond hc) <| step hfraction <| step rfl <| instant?_self t

theorem parse?_render (t : Instant) : parse? (render t) = some t := by
  rw [parse?, render, String.toList_ofList, read?_write]

theorem foldl_digits_lt {ds : List Char} (h : ∀ d ∈ ds, d.isDigit) (n : Nat) :
    ds.foldl (fun n d ↦ n * 10 + (d.toNat - 48)) n < (n + 1) * 10 ^ ds.length := by
  induction ds generalizing n with
  | nil => simp
  | cons d ds ih =>
    obtain ⟨hd, hds⟩ := List.forall_mem_cons.1 h
    have hdigit := toNat_of_isDigit hd
    calc ds.foldl _ (n * 10 + (d.toNat - 48))
      _ < (n * 10 + (d.toNat - 48) + 1) * 10 ^ ds.length := ih hds _
      _ ≤ ((n + 1) * 10) * 10 ^ ds.length := Nat.mul_le_mul_right _ (by omega)
      _ = (n + 1) * 10 ^ (d :: ds).length := by
        rw [List.length_cons, Nat.pow_succ', Nat.mul_assoc]

theorem digits_lt {most n : Nat} {cs rest : List Char} (h : digits most cs = some (n, rest)) :
    n < 10 ^ (cs.length - rest.length) ∧ cs.length - rest.length ≤ most := by
  unfold digits at h
  extract_lets ds at h
  split at h
  · contradiction
  · obtain ⟨rfl, rfl⟩ := Prod.mk.inj (Option.some.inj h)
    have hds : ∀ d ∈ ds, d.isDigit := fun d hd ↦ List.all_eq_true.1 List.all_takeWhile d hd
    have hprefix : ds.length ≤ (cs.take most).length := (List.takeWhile_prefix _).length_le
    rw [List.length_take] at hprefix
    rw [List.length_drop, show cs.length - (cs.length - ds.length) = ds.length by omega]
    exact ⟨by simpa using foldl_digits_lt hds 0, by omega⟩

theorem fraction_lt {n : Nat} {cs rest : List Char} (h : fraction cs = some (n, rest)) :
    n < 1000000000 := by
  unfold fraction at h
  split at h
  · next text =>
    obtain ⟨⟨m, after⟩, hdigits, h⟩ := Option.bind_eq_some_iff.1 h
    obtain ⟨rfl, -⟩ := Prod.mk.inj (Option.some.inj h)
    obtain ⟨hlt, hle⟩ := digits_lt hdigits
    calc m * 10 ^ (9 - (text.length - after.length))
      _ < 10 ^ (text.length - after.length) * 10 ^ (9 - (text.length - after.length)) :=
        Nat.mul_lt_mul_of_pos_right hlt (Nat.pow_pos (by decide))
      _ = 1000000000 := by rw [← Nat.pow_add, Nat.add_sub_cancel' hle]
  · obtain ⟨rfl, -⟩ := Prod.mk.inj (Option.some.inj h)
    decide

/-- An offset is a number of whole minutes. -/
theorem offset_emod {o : Int} {cs rest : List Char} (h : offset cs = some (o, rest)) :
    o % 60 = 0 := by
  unfold offset at h
  extract_lets magnitude at h
  have hmagnitude {cs rest : List Char} {n : Nat} (h : magnitude cs = some (n, rest)) :
      n % 60 = 0 := by
    simp only [magnitude, Option.bind_eq_bind, Option.bind_eq_some_iff, Prod.exists,
      Option.ite_none_right_eq_some] at h
    obtain ⟨hours, after, -, minutes, after', -, -, h⟩ := h
    obtain ⟨rfl, -⟩ := Prod.mk.inj (Option.some.inj h)
    omega
  cases cs with
  | nil => contradiction
  | cons c after =>
    dsimp only at h
    split at h
    · obtain ⟨rfl, -⟩ := Prod.mk.inj (Option.some.inj h)
      rfl
    · split at h
      · obtain ⟨rfl, -⟩ := Prod.mk.inj (Option.some.inj h)
        rfl
      · split at h
        · obtain ⟨⟨n, after'⟩, hn, h⟩ := Option.map_eq_some_iff.1 h
          obtain ⟨rfl, -⟩ := Prod.mk.inj h
          have := hmagnitude hn
          omega
        · rw [Option.ite_none_right_eq_some] at h
          obtain ⟨⟨n, after'⟩, hn, h⟩ := Option.map_eq_some_iff.1 h.2
          obtain ⟨rfl, -⟩ := Prod.mk.inj h
          have := hmagnitude hn
          omega

/-- A leap second is the 60th of a minute in UTC as well, so that no time of day is refused. -/
theorem instant?_eq_some {date : Date} {hour minute second nanos : Nat} {east number : Int}
    {afterPoint afterFraction zone afterZone : List Char}
    (hfraction : fraction afterPoint = some (nanos, afterFraction))
    (hzone : offset zone = some (east, afterZone))
    (hgiven : date.isValid ∧ date.isInRange ∧ hour < 24 ∧ minute < 60 ∧ second ≤ 60)
    (hnumber : number = (date.toDays - epochDay) * 86400 +
      (hour * 3600 + minute * 60 + min second 59 : Nat) - east)
    (hrange : (dateAt number).isInRange) :
    ∃ t, instant? date hour minute second nanos east = some t ∧ t.seconds = number ∧
      t.nanos = nanos + if second = 60 then 1000000000 else 0 := by
  have heast := offset_emod hzone
  have hends : decide (second = 60) = true → number % 60 = 59 := by
    intro hleap
    obtain rfl := of_decide_eq_true hleap
    omega
  have hsecond : Second.of? number (second = 60) = some ⟨number, second = 60, hrange, hends⟩ :=
    dif_pos ⟨hrange, hends⟩
  refine ⟨⟨⟨number, second = 60, hrange, hends⟩, Fin.ofNat _ nanos⟩, ?_, rfl, ?_⟩
  · rw [instant?, if_pos hgiven]
    simp only [← hnumber, hsecond, Option.map_some]
  · have hkept : (Fin.ofNat 1000000000 nanos).val = nanos := Nat.mod_eq_of_lt (fraction_lt hfraction)
    simp only [Instant.nanos, hkept, decide_eq_true_eq]
    split <;> omega

end Rfc3339

end Submarine.Time
