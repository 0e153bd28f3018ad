import Mathlib.Data.List.TakeWhile
import Mathlib.Data.Nat.Digits.Defs

/-! Decimal numerals with an optional sign, an optional point and an optional exponent: how they are read,
the numbers that they say, and the rounding of these numbers to a fixed count of decimals. -/

namespace CyberAccountant.Library

/-- The number `mantissa * 10 ^ exponent`, or its negative. -/
structure Numeral where
  negative : Bool
  mantissa : Nat
  exponent : Int
  deriving DecidableEq

namespace Numeral

/-- The magnitude in units of `10 ^ -scale`, as numerator and denominator. -/
def units (n : Numeral) (scale : Nat) : Nat × Nat :=
  if 0 ≤ n.exponent + scale then (n.mantissa * 10 ^ (n.exponent + scale).toNat, 1)
  else (n.mantissa, 10 ^ (-(n.exponent + scale)).toNat)

/-- The number is this many units exactly. -/
def Says (n : Numeral) (scale count : Nat) : Prop :=
  (n.units scale).1 = count * (n.units scale).2 ∧ (n.negative → count = 0)

instance (n : Numeral) (scale count : Nat) : Decidable (n.Says scale count) :=
  inferInstanceAs (Decidable (_ ∧ _))

/-- The nearest whole number of units, a tie away from zero. -/
def round (n : Numeral) (scale : Nat) : Int :=
  let magnitude := (2 * (n.units scale).1 + (n.units scale).2) / (2 * (n.units scale).2)
  if n.negative then -(magnitude : Int) else magnitude

theorem units_pos (n : Numeral) (scale : Nat) : 0 < (n.units scale).2 := by
  unfold units
  split_ifs
  · exact Nat.one_pos
  · exact Nat.pow_pos (by decide)

/-- A whole number of units is not rounded. -/
theorem round_of_says {n : Numeral} {scale count : Nat} (h : n.Says scale count) :
    n.round scale = count := by
  obtain ⟨hUnits, hSign⟩ := h
  have hPos := n.units_pos scale
  have hMagnitude : (2 * (n.units scale).1 + (n.units scale).2) / (2 * (n.units scale).2) = count := by
    rw [hUnits]
    generalize (n.units scale).2 = den at hPos
    calc (2 * (count * den) + den) / (2 * den)
        = (den + 2 * den * count) / (2 * den) := by rw [Nat.mul_comm count, ← Nat.mul_assoc, Nat.add_comm]
      _ = den / (2 * den) + count := Nat.add_mul_div_left _ _ (by omega)
      _ = count := by rw [Nat.div_eq_of_lt (by omega), Nat.zero_add]
  unfold round
  simp only [hMagnitude]
  split_ifs with hNegative
  · rw [hSign hNegative]
    rfl
  · rfl

/-- What a number without exponent and with this many decimals says. -/
theorem says_of_decimals (mantissa : Nat) {decimals scale : Nat} (h : decimals ≤ scale) :
    Says ⟨false, mantissa, -decimals⟩ scale (mantissa * 10 ^ (scale - decimals)) := by
  have hScale : (-(decimals : Int) + scale).toNat = scale - decimals := by omega
  refine ⟨?_, fun hNegative => by cases hNegative⟩
  rw [units, if_pos (by simp only; omega)]
  simp only [hScale, Nat.mul_one]

end Numeral

/-! ### Reading -/

def isSpace (c : Char) : Bool := c == ' ' || '\t'.toNat ≤ c.toNat && c.toNat ≤ '\r'.toNat

def trimSpaces (cs : List Char) : List Char :=
  ((cs.dropWhile isSpace).reverse.dropWhile isSpace).reverse

/-- An optional sign, and what follows it. -/
def readSign : List Char → Bool × List Char
  | '-' :: cs => (true, cs)
  | '+' :: cs => (false, cs)
  | cs => (false, cs)

/-- The digits after a point, and what follows them. -/
def readFraction : List Char → List Char × List Char
  | '.' :: cs => (cs.takeWhile Char.isDigit, cs.dropWhile Char.isDigit)
  | cs => ([], cs)

/-- The exponent that ends a numeral; a larger one than the limit is refused. -/
def readExponent (limit : Nat) : List Char → Option Int
  | [] => some 0
  | c :: cs =>
    let (negative, digits) := readSign cs
    let size := Nat.ofDigitChars 10 digits 0
    if (c = 'e' ∨ c = 'E') ∧ digits ≠ [] ∧ digits.all Char.isDigit ∧ size ≤ limit then
      some (if negative then -(size : Int) else size)
    else none

def readNumeral (limit : Nat) (text : List Char) : Option Numeral :=
  let (negative, unsigned) := readSign (trimSpaces text)
  let whole := unsigned.takeWhile Char.isDigit
  let (frac, rest) := readFraction (unsigned.dropWhile Char.isDigit)
  if whole = [] ∧ frac = [] then none
  else (readExponent limit rest).map fun e => ⟨negative, Nat.ofDigitChars 10 (whole ++ frac) 0, e - frac.length⟩

theorem not_isSpace {c : Char} (h : c.isDigit ∨ c = '.') : isSpace c = false := by
  rcases h with h | rfl
  · simp only [Char.isDigit, Bool.and_eq_true, decide_eq_true_eq] at h
    have hLow : 48 ≤ c.toNat := h.1
    have hNe : c ≠ ' ' := by
      rintro rfl
      exact absurd hLow (by decide)
    have hHigh : 13 < c.toNat := by omega
    simp [isSpace, hNe, hHigh]
  · rfl

theorem trimSpaces_of_plain {cs : List Char} (h : ∀ c ∈ cs, c.isDigit ∨ c = '.') : trimSpaces cs = cs := by
  have hDrop : ∀ {ds : List Char}, (∀ c ∈ ds, c.isDigit ∨ c = '.') → ds.dropWhile isSpace = ds := by
    intro ds hds
    cases ds with
    | nil => rfl
    | cons d ds => rw [List.dropWhile_cons, if_neg (by simp [not_isSpace (hds d List.mem_cons_self)])]
  rw [trimSpaces, hDrop h, hDrop fun c hc => h c (List.mem_reverse.mp hc), List.reverse_reverse]

theorem readSign_of_digit {c : Char} {cs : List Char} (h : c.isDigit) : readSign (c :: cs) = (false, c :: cs) := by
  unfold readSign
  split
  · rename_i hEq
    cases hEq
    exact absurd h (by decide)
  · rename_i hEq
    cases hEq
    exact absurd h (by decide)
  · rfl

/-- Digits, with a point and digits after them or without, say what they say without the point. -/
theorem readNumeral_plain (limit : Nat) {whole frac : List Char} (hWhole : whole.all Char.isDigit)
    (hSome : whole ≠ []) (hFrac : frac.all Char.isDigit) {rest : List Char}
    (hRest : rest = '.' :: frac ∨ rest = [] ∧ frac = []) :
    readNumeral limit (whole ++ rest) = some ⟨false, Nat.ofDigitChars 10 (whole ++ frac) 0, -frac.length⟩ := by
  have hPlain : ∀ c ∈ whole ++ rest, c.isDigit ∨ c = '.' := by
    intro c hc
    rcases List.mem_append.mp hc with hc | hc
    · exact .inl (List.all_eq_true.mp hWhole c hc)
    · rcases hRest with rfl | ⟨rfl, -⟩
      · rcases List.mem_cons.mp hc with rfl | hc
        · exact .inr rfl
        · exact .inl (List.all_eq_true.mp hFrac c hc)
      · cases hc
  have hSign : readSign (whole ++ rest) = (false, whole ++ rest) := by
    cases whole with
    | nil => exact absurd rfl hSome
    | cons c cs => exact readSign_of_digit (List.all_eq_true.mp hWhole c List.mem_cons_self)
  have hTake : (whole ++ rest).takeWhile Char.isDigit = whole := by
    rw [List.takeWhile_append_of_pos (List.all_eq_true.mp hWhole)]
    rcases hRest with rfl | ⟨rfl, -⟩ <;> simp [Char.isDigit]
  have hDrop : (whole ++ rest).dropWhile Char.isDigit = rest := by
    rw [List.dropWhile_append_of_pos (List.all_eq_true.mp hWhole)]
    rcases hRest with rfl | ⟨rfl, -⟩ <;> simp [Char.isDigit]
  have hFraction : readFraction rest = (frac, []) := by
    rcases hRest with rfl | ⟨rfl, rfl⟩
    · have hDigits := List.all_eq_true.mp hFrac
      rw [readFraction, List.takeWhile_eq_self_iff.mpr hDigits, List.dropWhile_eq_nil_iff.mpr hDigits]
    · rfl
  simp only [readNumeral, trimSpaces_of_plain hPlain, hSign, hTake, hDrop, hFraction, hSome, false_and, if_false,
    readExponent, Option.map_some, Int.zero_sub]

end CyberAccountant.Library
