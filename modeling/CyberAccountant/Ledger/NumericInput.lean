import CyberAccountant.Ledger.Money
import CyberAccountant.Library.Decimals

/-! How the database reads a text as `NUMERIC(18,2)`: as a decimal numeral, rounded to two decimals, or as
`NaN`.  Amounts are texts that the service has parsed before; VAT amounts are not. -/

namespace CyberAccountant.Ledger

open CyberAccountant.Library

/-- The numeral of a text, with the largest exponent that the database takes. -/
def numeralOf (text : String) : Option Numeral := readNumeral 1073741822 text.toList

/-- The value that `NUMERIC(18,2)` takes of a numeral; none where it has too many digits. -/
def storedNumeral (n : Numeral) : Option Numeric :=
  if (Numeric.tiyn (n.round 2)).Fits then some (.tiyn (n.round 2)) else none

/-- The text says a finite amount, not negative and with at most two decimals. -/
def Denotes (text : String) (tiyn : Nat) : Prop := ∃ n ∈ numeralOf text, n.Says 2 tiyn

/-- The documented reading of the type `NUMERIC(18,2)`. -/
structure ReadsNumerals (num : NumericText) : Prop where
  numeral : ∀ text n, numeralOf text = some n → num.read text = storedNumeral n
  nan : num.read "NaN" = some .nan

/-- A text that says an amount is read as that amount, or refused. -/
theorem ReadsNumerals.read_of_denotes {num : NumericText} (hNum : ReadsNumerals num) {text : String} {tiyn : Nat}
    (h : Denotes text tiyn) {v : Numeric} (hRead : num.read text = some v) : v = .tiyn tiyn := by
  obtain ⟨n, hNumeral, hSays⟩ := h
  rw [hNum.numeral text n hNumeral, storedNumeral, Numeral.round_of_says hSays] at hRead
  split_ifs at hRead
  exact (Option.some.inj hRead).symm

/-- What `parseTiyn` accepts says the amount that it returns. -/
theorem parseTiyn_denotes {amount : String} {tiyn : Int} (h : parseTiyn amount = .ok tiyn) :
    ∃ count : Nat, tiyn = count ∧ Denotes amount count := by
  obtain ⟨whole, frac, rest, hText, hRest, hWhole, hSome, -, hFrac, hTwo, hTiyn, -⟩ := parseTiyn_parts h
  have hNumeral := readNumeral_plain 1073741822 hWhole hSome hFrac hRest
  have hSays := Numeral.says_of_decimals (Nat.ofDigitChars 10 (whole ++ frac) 0) hTwo
  have hCount : Nat.ofDigitChars 10 (whole ++ frac) 0 * 10 ^ (2 - frac.length) =
      Nat.ofDigitChars 10 whole 0 * 100 + Nat.ofDigitChars 10 (padFrac frac) 0 := by
    have hHundred : 10 ^ frac.length * 10 ^ (2 - frac.length) = 100 := by
      rw [← Nat.pow_add, show frac.length + (2 - frac.length) = 2 by omega]
    rw [Nat.ofDigitChars_append, Nat.ofDigitChars_eq_ofDigitChars_zero, ofDigitChars_padFrac, Nat.add_mul,
      Nat.mul_right_comm, hHundred, Nat.mul_comm 100]
  exact ⟨_, hTiyn, _, by rw [numeralOf, hText]; exact hNumeral, hCount ▸ hSays⟩

/-- The reading of the database, as documented. -/
def readPostgres (text : String) : Option Numeric :=
  match numeralOf text with
  | some n => storedNumeral n
  | none => if (trimSpaces text.toList).map Char.toLower = ['n', 'a', 'n'] then some .nan else none

theorem readPostgres_parsed {amount : String} {tiyn : Int} (h : parseTiyn amount = .ok tiyn) :
    readPostgres amount = some (.tiyn tiyn) := by
  obtain ⟨hPos, hMax⟩ := parseTiyn_bounds h
  obtain ⟨count, rfl, n, hNumeral, hSays⟩ := parseTiyn_denotes h
  have hFits : (Numeric.tiyn count).Fits := ⟨by omega, hMax⟩
  have hNumeral : numeralOf amount = some n := hNumeral
  simp only [readPostgres, hNumeral, storedNumeral, Numeral.round_of_says hSays, if_pos hFits]

/-- Values are written with two decimals. -/
def writePostgres : Numeric → String
  | .nan => "NaN"
  | .tiyn x => tiynText x.toNat

theorem readPostgres_written (v : Numeric) (hSign : v.NonNeg) (hFits : v.Fits) :
    readPostgres (writePostgres v) = some v := by
  cases v with
  | nan => decide
  | tiyn x =>
    obtain ⟨n, rfl⟩ := Int.eq_ofNat_of_zero_le hSign
    have hMax : (n : Int) ≤ 999999999999999999 := hFits.2
    by_cases hPos : 0 < n
    · exact readPostgres_parsed (parseTiyn_tiynText hPos (by omega))
    · obtain rfl : n = 0 := by omega
      decide

def NumericText.postgres : NumericText where
  read := readPostgres
  write := writePostgres
  read_decimal _ _ := readPostgres_parsed
  read_write := readPostgres_written

theorem postgres_readsNumerals : ReadsNumerals .postgres where
  numeral text n h := by
    change readPostgres text = _
    simp only [readPostgres, h]
  nan := by decide

example : readPostgres "1.005" = some (.tiyn 101) := by decide

example : readPostgres " +1e3 " = some (.tiyn 100000) := by decide

end CyberAccountant.Ledger
