import Mathlib.Data.Nat.Digits.Defs

/-! Amounts of money as text. -/

namespace CyberAccountant.Money

/-- Digits from the last to the first, with a blank after every third. -/
def groupDigits (digits : List Char) : List Char :=
  (digits.foldl (fun (state : Nat × List Char) c =>
    (state.1 + 1, if 0 < state.1 ∧ state.1 % 3 = 0 then state.2 ++ [' ', c] else state.2 ++ [c])) (0, [])).2

/-- `%02lld` of what is below 100. -/
def twoDigits (n : Nat) : List Char := [Nat.digitChar (n / 10), Nat.digitChar (n % 10)]

/-- The amount with its whole part in groups of three; nothing where it is negative. -/
def formatTiynRu (tiyn : Int) : Option String :=
  if tiyn < 0 then none
  else
    let digits := Nat.toDigits 10 (tiyn.toNat / 100)
    some (String.ofList ((groupDigits digits.reverse).reverse ++ ',' :: twoDigits (tiyn.toNat % 100)))

example : formatTiynRu 123456789 = some "1 234 567,89" := by decide +kernel

/-! ### Reading an amount -/

/-- The number that a text of digits says. -/
def readDigits (cs : List Char) : Option Nat :=
  if cs ≠ [] ∧ cs.all Char.isDigit then some (Nat.ofDigitChars 10 cs 0) else none

/-- The amount in tiyn that is printed as a whole part in groups and two digits after the comma. -/
def readTiynRu (text : String) : Option Nat :=
  match (text.toList.filter (· ≠ ' ')).splitOn ',' with
  | [whole, frac] => do
    let tenge ← readDigits whole
    let tiyn ← readDigits frac
    if frac.length = 2 then some (tenge * 100 + tiyn) else none
  | _ => none

theorem readDigits_toDigits (n : Nat) : readDigits (Nat.toDigits 10 n) = some n := by
  have hDigits : (Nat.toDigits 10 n).all Char.isDigit :=
    List.all_eq_true.mpr fun c hc => Nat.isDigit_of_mem_toDigits (by decide) (by decide) hc
  unfold readDigits
  rw [if_pos ⟨Nat.toDigits_ne_nil, hDigits⟩, Nat.ofDigitChars_ten_toDigits]

theorem twoDigits_isDigit {n : Nat} (h : n < 100) : (twoDigits n).all Char.isDigit := by
  have hHigh : n / 10 < 10 := by omega
  have hLow : n % 10 < 10 := by omega
  simp [twoDigits, Nat.isDigit_digitChar, hHigh, hLow]

theorem readDigits_twoDigits {n : Nat} (h : n < 100) : readDigits (twoDigits n) = some n := by
  have hCheck : ∀ m < 100, readDigits (twoDigits m) = some m := by decide +kernel
  exact hCheck n h

/-- The blanks are all that the grouping adds. -/
theorem groupDigits_filter {digits : List Char} (h : ∀ c ∈ digits, c ≠ ' ') :
    (groupDigits digits).filter (· ≠ ' ') = digits := by
  have hRun : ∀ (rest : List Char) (state : Nat × List Char), (∀ c ∈ rest, c ≠ ' ') →
      (rest.foldl (fun (state : Nat × List Char) c => (state.1 + 1,
        if 0 < state.1 ∧ state.1 % 3 = 0 then state.2 ++ [' ', c] else state.2 ++ [c])) state).2.filter
          (· ≠ ' ') = state.2.filter (· ≠ ' ') ++ rest := by
    intro rest
    induction rest with
    | nil => intro state _; simp
    | cons c rest ih =>
      intro state hRest
      rw [List.forall_mem_cons] at hRest
      rw [List.foldl_cons, ih _ hRest.2]
      split <;> simp [List.filter_append, hRest.1]
  rw [groupDigits, hRun digits (0, []) h]
  rfl

theorem isDigit_ne {c : Char} (d : Char) (h : c.isDigit) (hOther : d.isDigit = false) : c ≠ d := by
  rintro rfl
  rw [hOther] at h
  cases h

/-- What is printed says the amount. -/
theorem readTiynRu_formatTiynRu {tiyn : Int} {text : String} (h : formatTiynRu tiyn = some text) :
    0 ≤ tiyn ∧ readTiynRu text = some tiyn.toNat := by
  unfold formatTiynRu at h
  split_ifs at h with hSign
  obtain ⟨n, rfl⟩ := Int.eq_ofNat_of_zero_le (show 0 ≤ tiyn by omega)
  refine ⟨by omega, ?_⟩
  rw [← Option.some.inj h, Int.toNat_natCast]
  have hWhole : ∀ c ∈ Nat.toDigits 10 (n / 100), c.isDigit := fun c hc =>
    Nat.isDigit_of_mem_toDigits (by decide) (by decide) hc
  have hFrac : ∀ c ∈ twoDigits (n % 100), c.isDigit :=
    List.all_eq_true.mp (twoDigits_isDigit (Nat.mod_lt n (by decide)))
  have hGroups : ((groupDigits (Nat.toDigits 10 (n / 100)).reverse).reverse).filter (· ≠ ' ') =
      Nat.toDigits 10 (n / 100) := by
    rw [List.filter_reverse, groupDigits_filter, List.reverse_reverse]
    exact fun c hc => isDigit_ne ' ' (hWhole c (List.mem_reverse.mp hc)) rfl
  have hTail : (',' :: twoDigits (n % 100)).filter (· ≠ ' ') = ',' :: twoDigits (n % 100) := by
    refine List.filter_eq_self.mpr (List.forall_mem_cons.mpr ⟨by decide, fun c hc => ?_⟩)
    simpa using isDigit_ne ' ' (hFrac c hc) rfl
  have hSplit : (Nat.toDigits 10 (n / 100) ++ ',' :: twoDigits (n % 100)).splitOn ',' =
      [Nat.toDigits 10 (n / 100), twoDigits (n % 100)] := by
    have hJoin : Nat.toDigits 10 (n / 100) ++ ',' :: twoDigits (n % 100) =
        [','].intercalate [Nat.toDigits 10 (n / 100), twoDigits (n % 100)] := by
      simp [List.intercalate_cons_cons]
    rw [hJoin]
    refine List.splitOn_intercalate ',' (fun part hPart hComma => ?_) (List.cons_ne_nil _ _)
    simp only [List.mem_cons, List.not_mem_nil, or_false] at hPart
    rcases hPart with rfl | rfl
    · exact isDigit_ne ',' (hWhole _ hComma) rfl rfl
    · exact isDigit_ne ',' (hFrac _ hComma) rfl rfl
  unfold readTiynRu
  rw [String.toList_ofList, List.filter_append, hGroups, hTail, hSplit]
  simp only [readDigits_toDigits, readDigits_twoDigits (Nat.mod_lt n (by decide)),
    Option.bind_eq_bind, Option.bind_some]
  rw [if_pos (show (twoDigits (n % 100)).length = 2 from rfl)]
  exact congrArg some (by omega)

end CyberAccountant.Money
