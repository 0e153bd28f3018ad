import CyberAccountant.Api.Fields

/-! The texts of dates in the bodies of requests: which of them the tables take, and their order. -/

namespace CyberAccountant.Api.Validation

open CyberAccountant.Ledger

/-- The text is of a day of the year 0, for which a valid date may be written but not cast. -/
def InYearZero (s : String) : Prop := ∃ month day, dateGroups s = some (0, month, day)

theorem castDate_of_valid {s : String} (hValid : isValidDate s = true) (hYear : ¬InYearZero s) :
    ∃ d, castDate s = some d := by
  unfold isValidDate at hValid
  unfold castDate
  cases hGroups : dateGroups s with
  | none => simp [hGroups] at hValid
  | some groups =>
    obtain ⟨year, month, day⟩ := groups
    simp only [hGroups, decide_eq_true_eq] at hValid
    have hPos : 1 ≤ year := by
      by_contra hZero
      obtain rfl : year = 0 := by omega
      exact hYear ⟨month, day, hGroups⟩
    have hDay : IsCalendarDay year month day := ⟨hPos, hValid⟩
    exact ⟨_, dif_pos hDay⟩

/-- The digits of such a text. -/
theorem dateGroups_eq_some {s : String} {year month day : Nat} (h : dateGroups s = some (year, month, day)) :
    ∃ y₁ y₂ y₃ y₄ m₁ m₂ d₁ d₂, s.toList = [y₁, y₂, y₃, y₄, '-', m₁, m₂, '-', d₁, d₂] ∧
      [y₁, y₂, y₃, y₄, m₁, m₂, d₁, d₂].all Char.isDigit ∧ year = Nat.ofDigitChars 10 [y₁, y₂, y₃, y₄] 0 ∧
      month = Nat.ofDigitChars 10 [m₁, m₂] 0 ∧ day = Nat.ofDigitChars 10 [d₁, d₂] 0 := by
  unfold dateGroups at h
  split at h
  · rename_i y₁ y₂ y₃ y₄ m₁ m₂ d₁ d₂ hText
    split_ifs at h with hDigits
    simp only [Option.some.injEq, Prod.mk.injEq] at h
    exact ⟨y₁, y₂, y₃, y₄, m₁, m₂, d₁, d₂, hText, hDigits, h.1.symm, h.2.1.symm, h.2.2.symm⟩
  · cases h

theorem castDate_groups {s : String} {d : Date} (h : castDate s = some d) :
    dateGroups s = some (d.year, d.month, d.day) := by
  unfold castDate at h
  split at h
  · cases h
  · rename_i hGroups
    split_ifs at h
    cases h
    exact hGroups

theorem digit_range {c : Char} (h : c.isDigit = true) : 48 ≤ c.toNat ∧ c.toNat ≤ 57 := by
  simp only [Char.isDigit, Bool.and_eq_true, decide_eq_true_eq] at h
  exact h

/-- Digits that say less stand before as many others in the order of texts. -/
theorem lt_of_ofDigitChars_lt {as bs : List Char} (hLength : as.length = bs.length) (hAs : as.all Char.isDigit)
    (hBs : bs.all Char.isDigit) {n : Nat} (h : Nat.ofDigitChars 10 as n < Nat.ofDigitChars 10 bs n) : as < bs := by
  induction as generalizing bs n with
  | nil =>
    obtain rfl : bs = [] := List.length_eq_zero_iff.mp hLength.symm
    exact absurd h (Nat.lt_irrefl _)
  | cons a as ih =>
    cases bs with
    | nil => cases hLength
    | cons b bs =>
      simp only [List.length_cons, Nat.add_right_cancel_iff] at hLength
      simp only [List.all_cons, Bool.and_eq_true] at hAs hBs
      obtain ⟨hA, hA'⟩ := digit_range hAs.1
      obtain ⟨hB, hB'⟩ := digit_range hBs.1
      have hZero : '0'.toNat = 48 := rfl
      rw [Nat.ofDigitChars_cons, Nat.ofDigitChars_cons] at h
      rw [List.cons_lt_cons_iff]
      rcases Nat.lt_trichotomy a.toNat b.toNat with hLess | hSame | hMore
      · exact .inl hLess
      · obtain rfl : a = b := Char.toNat_inj.mp hSame
        exact .inr ⟨rfl, ih hLength hAs.2 hBs.2 h⟩
      · -- The first digit says more than all that follow it in the other text.
        exfalso
        have hRest : Nat.ofDigitChars 10 bs 0 < 10 ^ bs.length := ofDigitChars_lt hBs.2
        rw [Nat.ofDigitChars_eq_ofDigitChars_zero, Nat.ofDigitChars_eq_ofDigitChars_zero (l := bs), hLength] at h
        have hHead : 10 ^ bs.length * (10 * n + (b.toNat - '0'.toNat) + 1) ≤
            10 ^ bs.length * (10 * n + (a.toNat - '0'.toNat)) := Nat.mul_le_mul_left _ (by omega)
        rw [Nat.mul_add, Nat.mul_one] at hHead
        omega

/-- Two texts of dates are in the order of the dates. -/
theorem castDate_le {s t : String} {d e : Date} (hd : castDate s = some d) (he : castDate t = some e)
    (h : ¬t < s) : d ≤ e := by
  obtain ⟨y₁, y₂, y₃, y₄, m₁, m₂, d₁, d₂, hText, hDigits, hYear, hMonth, hDay⟩ := dateGroups_eq_some (castDate_groups hd)
  obtain ⟨y₁', y₂', y₃', y₄', m₁', m₂', d₁', d₂', hText', hDigits', hYear', hMonth', hDay'⟩ :=
    dateGroups_eq_some (castDate_groups he)
  have hNotLess : ¬[y₁', y₂', y₃', y₄', m₁', m₂', d₁', d₂'] < [y₁, y₂, y₃, y₄, m₁, m₂, d₁, d₂] := by
    rw [String.lt_iff_toList_lt, hText, hText'] at h
    simpa only [List.cons_lt_cons_iff, Char.lt_irrefl, false_or, true_and] using h
  have hValue : Nat.ofDigitChars 10 [y₁, y₂, y₃, y₄, m₁, m₂, d₁, d₂] 0 ≤
      Nat.ofDigitChars 10 [y₁', y₂', y₃', y₄', m₁', m₂', d₁', d₂'] 0 :=
    Nat.le_of_not_lt fun hLess => hNotLess (lt_of_ofDigitChars_lt rfl hDigits' hDigits hLess)
  simp only [List.all_cons, List.all_nil, Bool.and_true, Bool.and_eq_true] at hDigits hDigits'
  simp only [Nat.ofDigitChars_cons, Nat.ofDigitChars_nil] at hYear hMonth hDay hYear' hMonth' hDay' hValue
  have hDigit : ∀ {c : Char}, c.isDigit = true → c.toNat - '0'.toNat ≤ 9 := fun hc => by
    have hRange := digit_range hc
    have hZero : '0'.toNat = 48 := rfl
    omega
  have hM₁ := hDigit hDigits.2.2.2.2.1
  have hM₂ := hDigit hDigits.2.2.2.2.2.1
  have hD₁ := hDigit hDigits.2.2.2.2.2.2.1
  have hD₂ := hDigit hDigits.2.2.2.2.2.2.2
  have hM₁' := hDigit hDigits'.2.2.2.2.1
  have hM₂' := hDigit hDigits'.2.2.2.2.2.1
  have hD₁' := hDigit hDigits'.2.2.2.2.2.2.1
  have hD₂' := hDigit hDigits'.2.2.2.2.2.2.2
  show d.year < e.year ∨ d.year = e.year ∧ (d.month < e.month ∨ d.month = e.month ∧ d.day ≤ e.day)
  omega

end CyberAccountant.Api.Validation
