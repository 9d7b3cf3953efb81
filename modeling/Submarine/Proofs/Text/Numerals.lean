import Mathlib.Data.List.DropRight
import Submarine.Text.Blank
import Submarine.Text.Digits

namespace Submarine.Text

structure Trims (cs core : List Char) : Prop where
  around : ∃ before after, cs = before ++ (core ++ after) ∧
    (∀ c ∈ before, isBlank c) ∧ ∀ c ∈ after, isBlank c
  head : ∀ c ∈ core.head?, ¬ isBlank c
  last : ∀ c ∈ core.getLast?, ¬ isBlank c

theorem trim_eq_rdropWhile (cs : List Char) :
    trim cs = (cs.dropWhile isBlank).rdropWhile isBlank := rfl

theorem trims_trim (cs : List Char) : Trims cs (trim cs) where
  around := by
    refine ⟨cs.takeWhile isBlank, (cs.dropWhile isBlank).rtakeWhile isBlank, ?_, ?_, ?_⟩
    · rw [trim_eq_rdropWhile, List.rdropWhile_append_rtakeWhile, List.takeWhile_append_dropWhile]
    · exact fun _ ↦ List.mem_takeWhile_imp
    · exact fun _ ↦ List.mem_rtakeWhile_imp
  head c hc := by
    obtain ⟨after, hafter⟩ : trim cs <+: cs.dropWhile isBlank := List.rdropWhile_prefix _ _
    have hhead : (cs.dropWhile isBlank).head? = some c := by
      rw [← hafter, List.head?_append, Option.mem_def.1 hc]
      rfl
    have hnot := List.head?_dropWhile_not isBlank cs
    rw [hhead] at hnot
    exact Bool.not_eq_true _ ▸ hnot
  last c hc := by
    have hne : trim cs ≠ [] := by
      rintro hnil
      rw [hnil] at hc
      exact absurd hc nofun
    rw [List.getLast?_eq_some_getLast hne] at hc
    obtain rfl := Option.some.inj hc
    exact List.rdropWhile_last_not isBlank _ hne

theorem Trims.trim_eq {cs core : List Char} (h : Trims cs core) : trim cs = core := by
  obtain ⟨before, after, rfl, hbefore, hafter⟩ := h.around
  rw [trim_eq_rdropWhile, List.dropWhile_append_of_pos hbefore]
  cases core with
  | nil =>
    rw [List.nil_append, List.dropWhile_eq_nil_iff.2 hafter, List.rdropWhile_nil]
  | cons c rest =>
    have hlast : (c :: rest).rdropWhile isBlank = c :: rest :=
      List.rdropWhile_eq_self_iff.2 fun hne ↦ h.last _ (List.getLast?_eq_some_getLast hne)
    rw [List.cons_append, List.dropWhile_cons_of_neg (h.head c rfl), ← List.cons_append,
      List.rdropWhile, List.reverse_append,
      List.dropWhile_append_of_pos fun a ha ↦ hafter a (List.mem_reverse.1 ha)]
    exact hlast

theorem trim_eq_iff {cs core : List Char} : trim cs = core ↔ Trims cs core :=
  ⟨fun h ↦ h ▸ trims_trim cs, Trims.trim_eq⟩

theorem trim_eq_nil_iff {cs : List Char} : trim cs = [] ↔ ∀ c ∈ cs, isBlank c := by
  rw [trim_eq_iff]
  constructor
  · rintro ⟨⟨before, after, rfl, hbefore, hafter⟩, -, -⟩
    exact List.forall_mem_append.2 ⟨hbefore, hafter⟩
  · intro h
    exact ⟨⟨cs, [], (List.append_nil cs).symm, h, nofun⟩, nofun, nofun⟩

/-- A decimal numeral of the number: one plus sign at most, then one digit at least. -/
def IsNumeral (cs : List Char) (n : Nat) : Prop :=
  ∃ sign digits, cs = sign ++ digits ∧ (sign = [] ∨ sign = ['+']) ∧ digits ≠ [] ∧
    (∀ c ∈ digits, c.isDigit) ∧ Nat.ofDigitChars 10 digits 0 = n

def afterSign : List Char → List Char
  | '+' :: rest => rest
  | cs => cs

def NumberFault.Stops (limit n : Nat) (cs : List Char) : NumberFault → Prop
  | empty => False
  | invalidDigit => ∃ digits c rest, cs = digits ++ c :: rest ∧ (∀ d ∈ digits, d.isDigit) ∧
      ¬ c.isDigit ∧ Nat.ofDigitChars 10 digits n ≤ limit
  | tooLarge => ∃ digits rest, cs = digits ++ rest ∧ (∀ d ∈ digits, d.isDigit) ∧
      limit < Nat.ofDigitChars 10 digits n

/-- What is wrong with a text that is no numeral up to the limit. -/
def NumberFault.Explains (limit : Nat) (cs : List Char) (fault : NumberFault) : Prop :=
  if cs = [] then fault = empty
  else if afterSign cs = [] then fault = invalidDigit
  else fault.Stops limit 0 (afterSign cs)

theorem digitValue?_eq (c : Char) :
    digitValue? c = if c.isDigit then some (c.toNat - '0'.toNat) else none := by
  unfold digitValue?
  congr 1
  simp [Char.isDigit, Char.le_def]

theorem le_ofDigitChars (cs : List Char) (n : Nat) : n ≤ Nat.ofDigitChars 10 cs n := by
  induction cs generalizing n with
  | nil => exact Nat.le_refl n
  | cons c rest ih =>
    rw [Nat.ofDigitChars_cons]
    have := ih (10 * n + (c.toNat - '0'.toNat))
    omega

section From

variable {limit n m : Nat} {c : Char} {rest : List Char}

theorem unsignedFrom_of_isDigit (hc : c.isDigit) :
    unsignedFrom limit n (c :: rest) =
      if limit < 10 * n + (c.toNat - '0'.toNat) then .error .tooLarge
      else unsignedFrom limit (10 * n + (c.toNat - '0'.toNat)) rest := by
  rw [unsignedFrom, digitValue?_eq, if_pos hc, Nat.mul_comm n 10]

theorem unsignedFrom_of_not_isDigit (hc : ¬ c.isDigit) :
    unsignedFrom limit n (c :: rest) = .error .invalidDigit := by
  rw [unsignedFrom, digitValue?_eq, if_neg hc]

theorem unsignedFrom_eq_ok_iff {cs : List Char} (hn : n ≤ limit) :
    unsignedFrom limit n cs = .ok m ↔
      (∀ c ∈ cs, c.isDigit) ∧ Nat.ofDigitChars 10 cs n = m ∧ m ≤ limit := by
  induction cs generalizing n with
  | nil =>
    rw [unsignedFrom, Nat.ofDigitChars_nil, Except.ok.injEq]
    constructor
    · rintro rfl
      exact ⟨nofun, rfl, hn⟩
    · exact fun h ↦ h.2.1
  | cons c rest ih =>
    by_cases hc : c.isDigit
    · rw [unsignedFrom_of_isDigit hc, Nat.ofDigitChars_cons]
      split
      · next hlarge =>
        have hle := le_ofDigitChars rest (10 * n + (c.toNat - '0'.toNat))
        constructor
        · exact nofun
        · rintro ⟨-, rfl, hm⟩
          omega
      · next hsmall =>
        rw [ih (Nat.not_lt.1 hsmall), List.forall_mem_cons]
        exact ⟨fun h ↦ ⟨⟨hc, h.1⟩, h.2⟩, fun h ↦ ⟨h.1.2, h.2⟩⟩
    · simp [unsignedFrom_of_not_isDigit hc, hc]

theorem not_stops_nil {fault : NumberFault} (hn : n ≤ limit) : ¬ fault.Stops limit n [] := by
  cases fault with
  | empty => exact id
  | invalidDigit =>
    rintro ⟨digits, c, rest, hnil, -⟩
    simp at hnil
  | tooLarge =>
    rintro ⟨digits, rest, hnil, -, hlarge⟩
    obtain ⟨rfl, rfl⟩ := List.append_eq_nil_iff.1 hnil.symm
    exact absurd hlarge (Nat.not_lt.2 hn)

theorem stops_of_lt {cs : List Char} {fault : NumberFault} (hn : limit < n) :
    fault.Stops limit n cs ↔ fault = .tooLarge := by
  cases fault with
  | empty => exact iff_of_false id nofun
  | invalidDigit =>
    refine iff_of_false ?_ nofun
    rintro ⟨digits, c, rest, -, -, -, hsmall⟩
    have := le_ofDigitChars digits n
    omega
  | tooLarge => exact iff_of_true ⟨[], cs, rfl, nofun, hn⟩ rfl

theorem stops_of_not_isDigit {fault : NumberFault} (hn : n ≤ limit) (hc : ¬ c.isDigit) :
    fault.Stops limit n (c :: rest) ↔ fault = .invalidDigit := by
  cases fault with
  | empty => exact iff_of_false id nofun
  | invalidDigit => exact iff_of_true ⟨[], c, rest, rfl, nofun, hc, hn⟩ rfl
  | tooLarge =>
    refine iff_of_false ?_ nofun
    rintro ⟨digits, after, heq, hdigits, hlarge⟩
    cases digits with
    | nil => exact absurd hlarge (Nat.not_lt.2 hn)
    | cons d digits =>
      obtain ⟨rfl, -⟩ := List.cons.inj heq
      exact hc (hdigits c List.mem_cons_self)

theorem stops_of_isDigit {fault : NumberFault} (hn : n ≤ limit) (hc : c.isDigit) :
    fault.Stops limit n (c :: rest) ↔
      fault.Stops limit (10 * n + (c.toNat - '0'.toNat)) rest := by
  cases fault with
  | empty => exact .rfl
  | invalidDigit =>
    constructor
    · rintro ⟨digits, e, after, heq, hdigits, he, hsmall⟩
      cases digits with
      | nil =>
        obtain ⟨rfl, -⟩ := List.cons.inj heq
        exact absurd hc he
      | cons d digits =>
        obtain ⟨rfl, hrest⟩ := List.cons.inj heq
        exact ⟨digits, e, after, hrest, (List.forall_mem_cons.1 hdigits).2, he, hsmall⟩
    · rintro ⟨digits, e, after, rfl, hdigits, he, hsmall⟩
      exact ⟨c :: digits, e, after, rfl, List.forall_mem_cons.2 ⟨hc, hdigits⟩, he, hsmall⟩
  | tooLarge =>
    constructor
    · rintro ⟨digits, after, heq, hdigits, hlarge⟩
      cases digits with
      | nil => exact absurd hlarge (Nat.not_lt.2 hn)
      | cons d digits =>
        obtain ⟨rfl, hrest⟩ := List.cons.inj heq
        exact ⟨digits, after, hrest, (List.forall_mem_cons.1 hdigits).2, hlarge⟩
    · rintro ⟨digits, after, rfl, hdigits, hlarge⟩
      exact ⟨c :: digits, after, rfl, List.forall_mem_cons.2 ⟨hc, hdigits⟩, hlarge⟩

theorem unsignedFrom_eq_error_iff {cs : List Char} {fault : NumberFault} (hn : n ≤ limit) :
    unsignedFrom limit n cs = .error fault ↔ fault.Stops limit n cs := by
  induction cs generalizing n with
  | nil => exact iff_of_false nofun (not_stops_nil hn)
  | cons c rest ih =>
    by_cases hc : c.isDigit
    · rw [unsignedFrom_of_isDigit hc, stops_of_isDigit hn hc]
      split
      · next hlarge => rw [stops_of_lt hlarge, Except.error.injEq, eq_comm]
      · next hsmall => exact ih (Nat.not_lt.1 hsmall)
    · rw [unsignedFrom_of_not_isDigit hc, stops_of_not_isDigit hn hc, Except.error.injEq, eq_comm]

end From

section Unsigned

variable {limit n : Nat} {cs : List Char}

theorem afterSign_of_ne {c : Char} {rest : List Char} (hc : c ≠ '+') :
    afterSign (c :: rest) = c :: rest := by
  unfold afterSign
  split
  · next heq =>
    obtain ⟨rfl, -⟩ := List.cons.inj heq
    contradiction
  · rfl

theorem unsigned?_eq (limit : Nat) (cs : List Char) :
    unsigned? limit cs =
      if cs = [] then .error .empty
      else if afterSign cs = [] then .error .invalidDigit
      else unsignedFrom limit 0 (afterSign cs) := by
  cases cs with
  | nil => rfl
  | cons c rest =>
    rw [if_neg (List.cons_ne_nil c rest)]
    by_cases hc : c = '+'
    · subst hc
      cases rest <;> rfl
    · rw [afterSign_of_ne hc, if_neg (List.cons_ne_nil c rest), unsigned?]
      · exact nofun
      · exact fun heq ↦ hc (List.cons.inj heq).1
      · exact fun tail heq ↦ hc (List.cons.inj heq).1

theorem exists_eq_append_afterSign (cs : List Char) :
    ∃ sign, cs = sign ++ afterSign cs ∧ (sign = [] ∨ sign = ['+']) := by
  unfold afterSign
  split
  · exact ⟨['+'], rfl, .inr rfl⟩
  · exact ⟨[], rfl, .inl rfl⟩

theorem isNumeral_iff :
    IsNumeral cs n ↔ afterSign cs ≠ [] ∧ (∀ c ∈ afterSign cs, c.isDigit) ∧
      Nat.ofDigitChars 10 (afterSign cs) 0 = n := by
  constructor
  · rintro ⟨sign, digits, rfl, rfl | rfl, hne, hdigits, hvalue⟩
    · have hsame : afterSign ([] ++ digits) = digits := by
        obtain ⟨d, rest, rfl⟩ := List.exists_cons_of_ne_nil hne
        apply afterSign_of_ne
        rintro rfl
        exact absurd (hdigits '+' List.mem_cons_self) (by decide)
      rw [hsame]
      exact ⟨hne, hdigits, hvalue⟩
    · exact ⟨hne, hdigits, hvalue⟩
  · intro h
    obtain ⟨sign, heq, hsign⟩ := exists_eq_append_afterSign cs
    exact ⟨sign, afterSign cs, heq, hsign, h⟩

theorem unsigned?_eq_ok_iff : unsigned? limit cs = .ok n ↔ IsNumeral cs n ∧ n ≤ limit := by
  rw [unsigned?_eq, isNumeral_iff]
  split
  · next hnil =>
    subst hnil
    exact iff_of_false nofun fun h ↦ h.1.1 rfl
  · split
    · next hbare => exact iff_of_false nofun fun h ↦ h.1.1 hbare
    · next hne =>
      rw [unsignedFrom_eq_ok_iff (Nat.zero_le limit)]
      exact ⟨fun h ↦ ⟨⟨hne, h.1, h.2.1⟩, h.2.2⟩, fun h ↦ ⟨h.1.2.1, h.1.2.2, h.2⟩⟩

theorem unsigned?_eq_error_iff {fault : NumberFault} :
    unsigned? limit cs = .error fault ↔ fault.Explains limit cs := by
  rw [unsigned?_eq, NumberFault.Explains]
  split
  · rw [Except.error.injEq, eq_comm]
  · split
    · rw [Except.error.injEq, eq_comm]
    · exact unsignedFrom_eq_error_iff (Nat.zero_le limit)

theorem IsNumeral.unique {m : Nat} (hm : IsNumeral cs m) (hn : IsNumeral cs n) : m = n :=
  (isNumeral_iff.1 hm).2.2.symm.trans (isNumeral_iff.1 hn).2.2

end Unsigned

end Submarine.Text
