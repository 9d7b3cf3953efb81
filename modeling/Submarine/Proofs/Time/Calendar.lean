import Submarine.Time.Instant

namespace Submarine.Time

namespace Date

/-- A day of 400 years as so many centuries, groups of four years, years and days. Only a leap year
has the day 365, and it is the last one of its group. -/
theorem exists_cycles {d : Int} (h0 : 0 ≤ d) (h : d < 146097) : ∃ c q a e : Int,
    d = 36524 * c + 1461 * q + 365 * a + e ∧ (0 ≤ c ∧ c ≤ 3) ∧ (0 ≤ q ∧ q ≤ 24) ∧
      (0 ≤ a ∧ a ≤ 3) ∧ (0 ≤ e ∧ e ≤ 365) ∧ (e = 365 → a = 3 ∧ (q = 24 → c = 3)) := by
  obtain ⟨c, r, hd, hc, hr, hlast⟩ : ∃ c r : Int, d = 36524 * c + r ∧ (0 ≤ c ∧ c ≤ 3) ∧
      (0 ≤ r ∧ r ≤ 36524) ∧ (r = 36524 → c = 3) :=
    ⟨min (d / 36524) 3, d - 36524 * min (d / 36524) 3, by omega⟩
  obtain ⟨q, s, hrs, hq, hs, hlast'⟩ : ∃ q s : Int, r = 1461 * q + s ∧ (0 ≤ q ∧ q ≤ 24) ∧
      (0 ≤ s ∧ s ≤ 1460) ∧ (q = 24 → s = 1460 → c = 3) :=
    ⟨r / 1461, r % 1461, by omega⟩
  exact ⟨c, q, min (s / 365) 3, s - 365 * min (s / 365) 3, by omega⟩

theorem yearOfEra_cycles {c q a e d : Int} (hd : d = 36524 * c + 1461 * q + 365 * a + e)
    (hc : 0 ≤ c ∧ c ≤ 3) (hq : 0 ≤ q ∧ q ≤ 24) (ha : 0 ≤ a ∧ a ≤ 3) (he : 0 ≤ e ∧ e ≤ 365)
    (hlast : e = 365 → a = 3 ∧ (q = 24 → c = 3)) :
    (d - d / 1460 + d / 36524 - d / 146096) / 365 = 100 * c + 4 * q + a := by
  have hcentury : d / 36524 - d / 146096 = c := by
    obtain hlt | rfl : d < 36524 * c + 36524 ∨ d = 146096 := by omega
    · have : d / 36524 = c := by omega
      omega
    · omega
  have hgroups : d / 1460 = 25 * c + q + (24 * c + q + 365 * a + e) / 1460 := by omega
  have hrest : (e - (24 * c + q + 365 * a + e) / 1460) / 365 = 0 := by omega
  omega

/-- The date of a day of a year that begins on the first of March. -/
def ofYearDay (year day : Int) : Date :=
  let m := (5 * day + 2) / 153
  let month := if m < 10 then m + 3 else m - 9
  ⟨year + if month ≤ 2 then 1 else 0, month.toNat, (day - (153 * m + 2) / 5 + 1).toNat⟩

def yearStart (year : Int) : Int := 365 * year + year / 4 - year / 100 + year / 400

theorem yearStart_cycles {c q a : Int} (hc : 0 ≤ c ∧ c ≤ 3) (hq : 0 ≤ q ∧ q ≤ 24)
    (ha : 0 ≤ a ∧ a ≤ 3) (n : Int) :
    yearStart (100 * c + 4 * q + a + n * 400) = 36524 * c + 1461 * q + 365 * a + n * 146097 := by
  have h4 : (100 * c + 4 * q + a + n * 400) / 4 = 25 * c + q + 100 * n := by omega
  have h100 : (100 * c + 4 * q + a + n * 400) / 100 = c + 4 * n := by omega
  have h400 : (100 * c + 4 * q + a + n * 400) / 400 = n := by omega
  rw [yearStart, h4, h100, h400]
  omega

theorem isLeapYear_cycles {c q : Int} (hq : 0 ≤ q ∧ q ≤ 24) (hlast : q = 24 → c = 3) (n : Int) :
    isLeapYear (100 * c + 4 * q + 3 + n * 400 + 1) := by
  simp only [isLeapYear, Bool.and_eq_true, Bool.or_eq_true, decide_eq_true_eq]
  refine ⟨by omega, ?_⟩
  by_cases h : q = 24
  · exact .inr (by omega)
  · exact .inl (by omega)

theorem ofDays_eq_ofYearDay (n : Int) : ∃ y d : Int,
    n = yearStart y + d ∧ (0 ≤ d ∧ d ≤ 365) ∧
      (d = 365 → isLeapYear (y + 1)) ∧ ofDays n = ofYearDay y d := by
  obtain ⟨c, q, a, e, hd, hc, hq, ha, he, hlast⟩ :=
    exists_cycles (Int.emod_nonneg n (by decide : (146097 : Int) ≠ 0))
      (Int.emod_lt_of_pos n (by decide))
  have hyear := yearOfEra_cycles hd hc hq ha he hlast
  have hstart : 365 * (100 * c + 4 * q + a) + (100 * c + 4 * q + a) / 4 -
      (100 * c + 4 * q + a) / 100 = 36524 * c + 1461 * q + 365 * a := by
    clear hd hyear hlast
    omega
  refine ⟨100 * c + 4 * q + a + n / 146097 * 400, e, ?_, he, fun h ↦ ?_, ?_⟩
  · rw [yearStart_cycles hc hq ha]
    omega
  · obtain ⟨rfl, hcentury⟩ := hlast h
    exact isLeapYear_cycles hq hcentury _
  · have hday : n % 146097 - (36524 * c + 1461 * q + 365 * a) = e := by omega
    simp only [ofDays, hyear, hstart, hday, ofYearDay]

theorem toDays_ofYearDay {y d : Int} (h0 : 0 ≤ d) (h : d ≤ 365) :
    (ofYearDay y d).toDays = yearStart y + d := by
  obtain ⟨m, hm⟩ : ∃ m, m = (5 * d + 2) / 153 := ⟨_, rfl⟩
  simp only [ofYearDay, toDays, ← hm]
  have hday : 0 ≤ d - (153 * m + 2) / 5 := by omega
  by_cases hspring : m < 10
  · have hlate : ¬ m + 3 ≤ 2 := by omega
    have hlate' : ¬ (m + 3).toNat ≤ 2 := by omega
    have hmonth : (((m + 3).toNat : Int) + 9) % 12 = m := by omega
    simp only [hspring, hlate, hlate', hmonth, if_true, if_false, yearStart, Int.add_zero]
    omega
  · have hlate : m - 9 ≤ 2 := by omega
    have hlate' : (m - 9).toNat ≤ 2 := by omega
    have hmonth : (((m - 9).toNat : Int) + 9) % 12 = m := by omega
    simp only [hspring, hlate, hlate', hmonth, if_true, if_false, yearStart, Int.add_sub_cancel]
    omega

theorem le_daysInMonth {y : Int} {month day : Nat} (hne : month ≠ 2) (h : day ≤ 31)
    (hshort : month = 4 ∨ month = 6 ∨ month = 9 ∨ month = 11 → day ≤ 30) :
    day ≤ daysInMonth y month := by
  rw [daysInMonth, if_neg hne]
  split
  · next h => exact hshort h
  · exact h

theorem isValid_ofYearDay {y d : Int} (h0 : 0 ≤ d) (h : d ≤ 365)
    (hleap : d = 365 → isLeapYear (y + 1)) : (ofYearDay y d).isValid := by
  obtain ⟨m, hm⟩ : ∃ m, m = (5 * d + 2) / 153 := ⟨_, rfl⟩
  have hday : 1 ≤ d - (153 * m + 2) / 5 + 1 ∧ d - (153 * m + 2) / 5 + 1 ≤ 31 := by omega
  simp only [ofYearDay, isValid, ← hm, Bool.and_eq_true, decide_eq_true_eq]
  refine ⟨⟨by split <;> omega, by omega⟩, ?_⟩
  by_cases hfebruary : m = 11
  · subst hfebruary
    have hlast : isLeapYear (y + 1) = false → d ≠ 365 := fun hcommon hd ↦ by
      simp [hleap hd] at hcommon
    simp only [daysInMonth, Int.reduceLT, Int.reduceSub, Int.reduceLE, Int.reduceToNat, if_true,
      if_false]
    split
    · omega
    · next hcommon =>
      have := hlast (Bool.eq_false_iff.2 hcommon)
      omega
  · have hshort : m = 1 ∨ m = 3 ∨ m = 6 ∨ m = 8 → d - (153 * m + 2) / 5 + 1 ≤ 30 := by omega
    exact le_daysInMonth (by split <;> omega) (by omega) fun h ↦ by split at h <;> omega

theorem toDays_ofDays (n : Int) : (ofDays n).toDays = n := by
  obtain ⟨y, d, hn, ⟨h0, h⟩, -, hdate⟩ := ofDays_eq_ofYearDay n
  rw [hdate, toDays_ofYearDay h0 h, hn]

theorem isValid_ofDays (n : Int) : (ofDays n).isValid := by
  obtain ⟨y, d, -, ⟨h0, h⟩, hleap, hdate⟩ := ofDays_eq_ofYearDay n
  exact hdate ▸ isValid_ofYearDay h0 h hleap

end Date

end Submarine.Time
