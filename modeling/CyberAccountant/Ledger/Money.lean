import CyberAccountant.Library.Word64
import Mathlib.Algebra.Group.Defs
import Mathlib.Algebra.GroupWithZero.Nat
import Mathlib.Algebra.BigOperators.Group.List.Basic
import Mathlib.Order.Defs.LinearOrder

/-! Money: amounts as decimal text ("1234.56"), as tiyn (1/100 of a tenge) and as values of the
database type `NUMERIC(18,2)`. -/

namespace CyberAccountant.Ledger

open CyberAccountant.Library

/-- The number of bytes of a text, which is what `std::string::size` counts. -/
def byteSize (cs : List Char) : Nat := (cs.map Char.utf8Size).sum

/-- `std::stoll` on decimal digits; `none` where it throws `std::out_of_range`. -/
def stoll (digits : List Char) : Option Int :=
  let value : Int := Nat.ofDigitChars 10 digits 0
  if InInt64 value then some value else none

/-- The digits after the point, with zeros added up to two of them. -/
def padFrac (frac : List Char) : List Char := frac ++ List.replicate (2 - frac.length) '0'

/-- Why `parseTiyn` refuses a text. -/
inductive TiynFault where
  | emptyAmount
  | twoPoints
  | longFraction
  | noInteger
  | nonDigit
  | nonDigitFraction
  | longInteger
  | overflow
  | notPositive
  deriving DecidableEq

/-- The message of the `std::invalid_argument` that `parseTiyn` throws on `amount`. -/
def TiynFault.what (amount : String) : TiynFault → String
  | .emptyAmount => "parse_tiyn: empty amount"
  | .twoPoints => "parse_tiyn: more than one decimal point in '" ++ amount ++ "'"
  | .longFraction =>
    "parse_tiyn: more than 2 digits after the decimal point in '" ++ amount ++ "'"
  | .noInteger => "parse_tiyn: missing integer part in '" ++ amount ++ "'"
  | .nonDigit => "parse_tiyn: non-digit character (no sign allowed) in '" ++ amount ++ "'"
  | .nonDigitFraction =>
    "parse_tiyn: non-digit character in fractional part of '" ++ amount ++ "'"
  | .longInteger => "parse_tiyn: integer part too long (max 16 digits) in '" ++ amount ++ "'"
  | .overflow => "parse_tiyn: integer overflow in '" ++ amount ++ "'"
  | .notPositive => "parse_tiyn: amount must be strictly positive, got '" ++ amount ++ "'"

/-- The amount in tiyn that a decimal text says. -/
def parseTiyn (amount : String) : Except TiynFault Int :=
  let intPart := amount.toList.takeWhile (· != '.')
  let fracPart := (amount.toList.dropWhile (· != '.')).drop 1
  if amount.toList = [] then .error .emptyAmount
  else if '.' ∈ fracPart then .error .twoPoints
  else if 2 < byteSize fracPart then .error .longFraction
  else if intPart = [] then .error .noInteger
  else if ¬intPart.all Char.isDigit then .error .nonDigit
  else if ¬fracPart.all Char.isDigit then .error .nonDigitFraction
  else if 16 < byteSize intPart then .error .longInteger
  else
    match stoll intPart, stoll (padFrac fracPart) with
    | some whole, some frac =>
      let tiyn := wrap64 (wrap64 (whole * 100) + frac)
      if tiyn ≤ 0 then .error .notPositive else .ok tiyn
    | _, _ => .error .overflow

/-- `%02lld` of a number that is not negative. -/
def twoDigits (n : Nat) : List Char :=
  if n < 10 then '0' :: Nat.toDigits 10 n else Nat.toDigits 10 n

/-- The decimal text of an amount in tiyn. -/
def formatTiyn (tiyn : Int) : Except String String :=
  if tiyn < 0 then
    .error ("format_tiyn: amount must be non-negative, got " ++ toString tiyn)
  else
    .ok (String.ofList
      (Nat.toDigits 10 (tiyn.tdiv 100).toNat ++ '.' :: twoDigits (tiyn.tmod 100).toNat))

/-! ### Texts of digits -/

theorem length_le_byteSize (cs : List Char) : cs.length ≤ byteSize cs := by
  induction cs with
  | nil => simp [byteSize]
  | cons c cs ih =>
    have := Char.utf8Size_pos c
    simp only [byteSize, List.map_cons, List.sum_cons, List.length_cons] at ih ⊢
    omega

theorem utf8Size_of_isDigit {c : Char} (h : c.isDigit) : c.utf8Size = 1 := by
  simp only [Char.isDigit, Bool.and_eq_true, decide_eq_true_eq] at h
  have hHigh : c.val.toNat ≤ 57 := h.2
  have hByte : c.val ≤ 127 := UInt32.le_iff_toNat_le.mpr (hHigh.trans (by decide))
  simp [Char.utf8Size, hByte]

theorem byteSize_of_digits {cs : List Char} (h : cs.all Char.isDigit) :
    byteSize cs = cs.length := by
  induction cs with
  | nil => rfl
  | cons c cs ih =>
    simp only [List.all_cons, Bool.and_eq_true] at h
    have := ih h.2
    simp only [byteSize, List.map_cons, List.sum_cons, List.length_cons] at this ⊢
    rw [utf8Size_of_isDigit h.1]
    omega

theorem digit_value_lt {c : Char} (h : c.isDigit) : c.toNat - '0'.toNat < 10 := by
  simp only [Char.isDigit, Bool.and_eq_true, decide_eq_true_eq] at h
  have hHigh : c.val.toNat ≤ 57 := h.2
  have hZero : '0'.toNat = 48 := rfl
  simp only [Char.toNat] at *
  omega

/-- A text of `n` digits says a number below `10 ^ n`. -/
theorem ofDigitChars_lt {cs : List Char} (h : cs.all Char.isDigit) :
    Nat.ofDigitChars 10 cs 0 < 10 ^ cs.length := by
  induction cs with
  | nil => simp
  | cons c cs ih =>
    simp only [List.all_cons, Bool.and_eq_true] at h
    have hTail := ih h.2
    have hHead := digit_value_lt h.1
    have hMul : 10 ^ cs.length * (c.toNat - '0'.toNat) ≤ 10 ^ cs.length * 9 :=
      Nat.mul_le_mul_left _ (by omega)
    rw [Nat.ofDigitChars_cons, Nat.ofDigitChars_eq_ofDigitChars_zero, List.length_cons, Nat.pow_succ]
    simp only [Nat.mul_zero, Nat.zero_add]
    omega

theorem stoll_of_digits {cs : List Char} (h : cs.all Char.isDigit) (hLen : cs.length ≤ 16) :
    stoll cs = some ((Nat.ofDigitChars 10 cs 0 : Nat) : Int) := by
  have hLt := ofDigitChars_lt h
  have hPow : 10 ^ cs.length ≤ 10 ^ 16 := Nat.pow_le_pow_right (show 0 < 10 by decide) hLen
  have hFits : InInt64 (Nat.ofDigitChars 10 cs 0 : Nat) := ⟨by omega, by omega⟩
  unfold stoll
  exact if_pos hFits

theorem padFrac_length {frac : List Char} (h : frac.length ≤ 2) : (padFrac frac).length = 2 := by
  simp only [padFrac, List.length_append, List.length_replicate]
  omega

theorem padFrac_digits {frac : List Char} (h : frac.all Char.isDigit) :
    (padFrac frac).all Char.isDigit := by
  simp only [padFrac, List.all_append, h, Bool.true_and, List.all_replicate]
  split <;> decide

theorem ofDigitChars_padFrac (frac : List Char) :
    Nat.ofDigitChars 10 (padFrac frac) 0 = Nat.ofDigitChars 10 frac 0 * 10 ^ (2 - frac.length) := by
  rw [padFrac, Nat.ofDigitChars_append, Nat.ofDigitChars_replicate_zero, Nat.mul_comm]

/-- What `parseTiyn` has checked where it returns, and what it returns. -/
theorem parseTiyn_parts {amount : String} {tiyn : Int} (h : parseTiyn amount = .ok tiyn) :
    ∃ whole frac rest, amount.toList = whole ++ rest ∧ (rest = '.' :: frac ∨ rest = [] ∧ frac = []) ∧
      whole.all Char.isDigit ∧ whole ≠ [] ∧ whole.length ≤ 16 ∧ frac.all Char.isDigit ∧ frac.length ≤ 2 ∧
      tiyn = (Nat.ofDigitChars 10 whole 0 * 100 + Nat.ofDigitChars 10 (padFrac frac) 0 : Nat) ∧ 0 < tiyn := by
  unfold parseTiyn at h
  extract_lets intPart fracPart at h
  split_ifs at h with hEmpty hDot hFrac hInt hIntDigits hFracDigits hIntLen
  have hIntLength := length_le_byteSize intPart
  have hFracLength := length_le_byteSize fracPart
  have hPad := padFrac_length (show fracPart.length ≤ 2 by omega)
  rw [stoll_of_digits hIntDigits (by omega),
    stoll_of_digits (padFrac_digits hFracDigits) (by omega)] at h
  have hWhole := ofDigitChars_lt hIntDigits
  have hWholePow : 10 ^ intPart.length ≤ 10 ^ 16 :=
    Nat.pow_le_pow_right (show 0 < 10 by decide) (by omega)
  have hFracLt := ofDigitChars_lt (padFrac_digits hFracDigits)
  rw [hPad] at hFracLt
  have hSplit := List.takeWhile_append_dropWhile (p := (· != '.')) (l := amount.toList)
  have hRest : amount.toList.dropWhile (· != '.') = '.' :: fracPart ∨
      amount.toList.dropWhile (· != '.') = [] ∧ fracPart = [] := by
    cases hDrop : amount.toList.dropWhile (· != '.') with
    | nil => exact .inr ⟨rfl, by simp only [fracPart, hDrop, List.drop_nil]⟩
    | cons c cs =>
      have hHead := @List.head_dropWhile_not _ (· != '.') amount.toList (by simp [hDrop])
      simp only [hDrop, List.head_cons, bne_eq_false_iff_eq] at hHead
      exact .inl (by simp only [fracPart, hDrop, hHead, List.drop_one, List.tail_cons])
  refine ⟨intPart, fracPart, _, hSplit.symm, hRest, hIntDigits, hInt, by omega, hFracDigits, by omega, ?_⟩
  generalize Nat.ofDigitChars 10 intPart 0 = whole at *
  generalize Nat.ofDigitChars 10 (padFrac fracPart) 0 = frac at *
  have hExact : wrap64 (wrap64 ((whole : Int) * 100) + frac) = whole * 100 + frac := by
    rw [wrap64_wrap64_add]
    exact wrap64_of_inInt64 ⟨by omega, by omega⟩
  simp only [hExact] at h
  split_ifs at h with hSign
  cases h
  exact ⟨by push_cast; rfl, by omega⟩

theorem parseTiyn_ok {amount : String} {tiyn : Int} (h : parseTiyn amount = .ok tiyn) :
    ∃ whole frac : Nat, whole < 10 ^ 16 ∧ frac < 100 ∧ tiyn = whole * 100 + frac ∧ 0 < tiyn := by
  obtain ⟨whole, frac, rest, -, -, hWhole, -, hLength, hFrac, hTwo, hTiyn, hPos⟩ := parseTiyn_parts h
  have hWholeLt := ofDigitChars_lt hWhole
  have hPow : 10 ^ whole.length ≤ 10 ^ 16 := Nat.pow_le_pow_right (show 0 < 10 by decide) hLength
  have hFracLt := ofDigitChars_lt (padFrac_digits hFrac)
  rw [padFrac_length hTwo] at hFracLt
  exact ⟨_, _, hWholeLt.trans_le hPow, hFracLt, by rw [hTiyn]; push_cast; rfl, hPos⟩

/-- What `parseTiyn` returns is a positive amount of at most eighteen digits. -/
theorem parseTiyn_bounds {amount : String} {tiyn : Int} (h : parseTiyn amount = .ok tiyn) :
    0 < tiyn ∧ tiyn ≤ 999999999999999999 := by
  obtain ⟨whole, frac, hWhole, hFrac, rfl, hPos⟩ := parseTiyn_ok h
  exact ⟨hPos, by omega⟩

/-! ### Formatting and parsing back -/

theorem toDigits_all_isDigit (n : Nat) : (Nat.toDigits 10 n).all Char.isDigit := by
  simp only [List.all_eq_true]
  exact fun c hc => Nat.isDigit_of_mem_toDigits (by decide) (by decide) hc

theorem twoDigits_digits (n : Nat) : (twoDigits n).all Char.isDigit := by
  have := toDigits_all_isDigit n
  unfold twoDigits
  split
  · simpa using this
  · exact this

theorem twoDigits_length {n : Nat} (h : n < 100) : (twoDigits n).length = 2 := by
  have hTwo : (Nat.toDigits 10 n).length ≤ 2 :=
    (Nat.length_toDigits_le_iff (by decide) (by decide)).mpr (by omega)
  unfold twoDigits
  split
  · rename_i hSmall
    have hOne : (Nat.toDigits 10 n).length ≤ 1 :=
      (Nat.length_toDigits_le_iff (by decide) (by decide)).mpr (by omega)
    have := Nat.length_toDigits_pos (b := 10) (n := n)
    simp only [List.length_cons]
    omega
  · rename_i hLarge
    have : ¬(Nat.toDigits 10 n).length ≤ 1 := fun hOne =>
      hLarge ((Nat.length_toDigits_le_iff (by decide) (by decide)).mp hOne)
    omega

theorem twoDigits_value (n : Nat) : Nat.ofDigitChars 10 (twoDigits n) 0 = n := by
  unfold twoDigits
  split
  · simp [Nat.ofDigitChars_cons]
  · exact Nat.ofDigitChars_ten_toDigits

theorem takeWhile_digits {ds rest : List Char} (h : ds.all Char.isDigit) :
    (ds ++ '.' :: rest).takeWhile (· != '.') = ds := by
  induction ds with
  | nil => rfl
  | cons c cs ih =>
    simp only [List.all_cons, Bool.and_eq_true] at h
    have hNe : (c != '.') = true := by
      simp only [bne_iff_ne]
      rintro rfl
      exact absurd h.1 (by decide)
    simp [hNe, ih h.2]

theorem dropWhile_digits {ds rest : List Char} (h : ds.all Char.isDigit) :
    (ds ++ '.' :: rest).dropWhile (· != '.') = '.' :: rest := by
  induction ds with
  | nil => rfl
  | cons c cs ih =>
    simp only [List.all_cons, Bool.and_eq_true] at h
    have hNe : (c != '.') = true := by
      simp only [bne_iff_ne]
      rintro rfl
      exact absurd h.1 (by decide)
    simp [hNe, ih h.2]

/-- The text that `formatTiyn` writes for an amount that is not negative. -/
def tiynText (tiyn : Nat) : String :=
  String.ofList (Nat.toDigits 10 (tiyn / 100) ++ '.' :: twoDigits (tiyn % 100))

theorem formatTiyn_natCast (tiyn : Nat) : formatTiyn tiyn = .ok (tiynText tiyn) := by
  unfold formatTiyn tiynText
  rw [if_neg (by omega), Int.tdiv_eq_ediv_of_nonneg (by omega),
    Int.tmod_eq_emod_of_nonneg (by omega)]
  rfl

theorem formatTiyn_ok {tiyn : Int} (h : 0 ≤ tiyn) :
    formatTiyn tiyn = .ok (tiynText tiyn.toNat) := by
  obtain ⟨n, rfl⟩ := Int.eq_ofNat_of_zero_le h
  exact formatTiyn_natCast n

/-- An amount that the column can hold comes back from its text. -/
theorem parseTiyn_tiynText {tiyn : Nat} (hPos : 0 < tiyn) (hMax : tiyn ≤ 999999999999999999) :
    parseTiyn (tiynText tiyn) = .ok tiyn := by
  have hInt := toDigits_all_isDigit (tiyn / 100)
  have hFrac := twoDigits_digits (tiyn % 100)
  have hFracLen : (twoDigits (tiyn % 100)).length = 2 := twoDigits_length (by omega)
  have hIntLen : (Nat.toDigits 10 (tiyn / 100)).length ≤ 16 :=
    (Nat.length_toDigits_le_iff (by decide) (by decide)).mpr (by omega)
  have hDot : ('.' : Char) ∉ twoDigits (tiyn % 100) := fun hMem =>
    absurd (List.all_eq_true.mp hFrac _ hMem) (by decide)
  have hWhole := stoll_of_digits hInt (by omega)
  have hPad : padFrac (twoDigits (tiyn % 100)) = twoDigits (tiyn % 100) := by
    simp [padFrac, hFracLen]
  have hCents := stoll_of_digits hFrac (by omega)
  rw [Nat.ofDigitChars_ten_toDigits] at hWhole
  rw [twoDigits_value] at hCents
  have hExact : wrap64 (wrap64 (((tiyn / 100 : Nat) : Int) * 100) + ((tiyn % 100 : Nat) : Int))
      = tiyn := by
    rw [wrap64_wrap64_add, wrap64_of_inInt64 ⟨by omega, by omega⟩]
    omega
  unfold parseTiyn
  extract_lets intPart fracPart
  have hIntPart : intPart = Nat.toDigits 10 (tiyn / 100) := by
    simp only [intPart, tiynText, String.toList_ofList, takeWhile_digits hInt]
  have hFracPart : fracPart = twoDigits (tiyn % 100) := by
    simp only [fracPart, tiynText, String.toList_ofList, dropWhile_digits hInt, List.drop_one,
      List.tail_cons]
  rw [hIntPart, hFracPart, hPad, hWhole, hCents, if_neg (by simp [tiynText]), if_neg hDot,
    if_neg (by rw [byteSize_of_digits hFrac]; omega), if_neg Nat.toDigits_ne_nil,
    if_neg (not_not_intro hInt), if_neg (not_not_intro hFrac),
    if_neg (by rw [byteSize_of_digits hInt]; omega)]
  dsimp only
  rw [hExact, if_neg (by omega)]

/-! ### The database type -/

/-- A value of `NUMERIC(18,2)`, in tiyn.  `NaN` is one of them. -/
inductive Numeric where
  | nan
  | tiyn (value : Int)
  deriving DecidableEq

namespace Numeric

/-- Addition of the database: `NaN` absorbs every other value. -/
protected def add : Numeric → Numeric → Numeric
  | .tiyn x, .tiyn y => .tiyn (x + y)
  | _, _ => .nan

protected def neg : Numeric → Numeric
  | .tiyn x => .tiyn (-x)
  | .nan => .nan

instance : Zero Numeric := ⟨.tiyn 0⟩
instance : Add Numeric := ⟨Numeric.add⟩
instance : Neg Numeric := ⟨Numeric.neg⟩

theorem zero_def : (0 : Numeric) = .tiyn 0 := rfl
@[simp] theorem tiyn_add_tiyn (x y : Int) : tiyn x + tiyn y = tiyn (x + y) := rfl
@[simp] theorem nan_add (x : Numeric) : nan + x = nan := rfl
@[simp] theorem add_nan (x : Numeric) : x + nan = nan := by cases x <;> rfl
@[simp] theorem neg_tiyn (x : Int) : -tiyn x = tiyn (-x) := rfl
@[simp] theorem neg_nan : -nan = nan := rfl

instance : AddCommMonoid Numeric where
  add_assoc x y z := by cases x <;> cases y <;> cases z <;> simp [Int.add_assoc]
  zero_add x := by cases x <;> simp [zero_def]
  add_zero x := by cases x <;> simp [zero_def]
  add_comm x y := by cases x <;> cases y <;> simp [Int.add_comm]
  nsmul := nsmulRec

/-- `x > 0` as the database compares: `NaN` is above every number. -/
def Positive : Numeric → Prop
  | .nan => True
  | .tiyn x => 0 < x

/-- `x >= 0` as the database compares. -/
def NonNeg : Numeric → Prop
  | .nan => True
  | .tiyn x => 0 ≤ x

/-- `x` has at most eighteen digits. -/
def Fits : Numeric → Prop
  | .nan => True
  | .tiyn x => -999999999999999999 ≤ x ∧ x ≤ 999999999999999999

instance : DecidablePred Positive
  | .nan => .isTrue trivial
  | .tiyn x => inferInstanceAs (Decidable (0 < x))

instance : DecidablePred NonNeg
  | .nan => .isTrue trivial
  | .tiyn x => inferInstanceAs (Decidable (0 ≤ x))

instance : DecidablePred Fits
  | .nan => .isTrue trivial
  | .tiyn _ => inferInstanceAs (Decidable (_ ∧ _))

end Numeric

/-- A value that the column `journal_lines.amount` admits. -/
structure Amount where
  value : Numeric
  positive : value.Positive
  fits : value.Fits
  deriving DecidableEq

/-- The amount 112.00 of the runs on fixed rows. -/
def Amount.ofSale : Amount := ⟨.tiyn 11200, by decide, by decide⟩

/-- A value that the column `journal_lines.vat_amount` admits, apart from `NULL`. -/
structure VatAmount where
  value : Numeric
  nonNeg : value.NonNeg
  fits : value.Fits
  deriving DecidableEq

/-- The column check of `journal_lines.amount` on a value. -/
def Amount.ofNumeric? (v : Numeric) : Option Amount :=
  if h : v.Positive ∧ v.Fits then some ⟨v, h.1, h.2⟩ else none

/-- The column check of `journal_lines.vat_amount` on a value. -/
def VatAmount.ofNumeric? (v : Numeric) : Option VatAmount :=
  if h : v.NonNeg ∧ v.Fits then some ⟨v, h.1, h.2⟩ else none

@[simp] theorem Amount.ofNumeric?_value (a : Amount) : Amount.ofNumeric? a.value = some a := by
  simp [Amount.ofNumeric?, a.positive, a.fits]

@[simp] theorem VatAmount.ofNumeric?_value (v : VatAmount) :
    VatAmount.ofNumeric? v.value = some v := by
  simp [VatAmount.ofNumeric?, v.nonNeg, v.fits]

/-- How the database reads a text as `NUMERIC(18,2)` and writes a value of that type as text: the
text of a decimal amount says its tiyn, and what is written reads back as the same value. -/
structure NumericText where
  read : String → Option Numeric
  write : Numeric → String
  read_decimal : ∀ amount tiyn, parseTiyn amount = .ok tiyn → read amount = some (.tiyn tiyn)
  read_write : ∀ v : Numeric, v.NonNeg → v.Fits → read (write v) = some v

theorem Numeric.Positive.nonNeg {v : Numeric} (h : v.Positive) : v.NonNeg := by
  cases v with
  | nan => trivial
  | tiyn x => exact Int.le_of_lt (show 0 < x from h)

theorem parseTiyn_nan : parseTiyn "NaN" = .error .nonDigit := by decide

theorem parseTiyn_zero : parseTiyn (tiynText 0) = .error .notPositive := by decide

namespace NumericText

/-- The texts without sign and exponent, which are all that the services of this program write. -/
def plain : NumericText where
  read text :=
    if text = "NaN" then some .nan
    else if text = tiynText 0 then some (.tiyn 0)
    else match parseTiyn text with
      | .ok tiyn => some (.tiyn tiyn)
      | .error _ => none
  write
    | .nan => "NaN"
    | .tiyn x => tiynText x.toNat
  read_decimal amount tiyn h := by
    have hNaN : amount ≠ "NaN" := by
      rintro rfl
      rw [parseTiyn_nan] at h
      cases h
    have hZero : amount ≠ tiynText 0 := by
      rintro rfl
      rw [parseTiyn_zero] at h
      cases h
    simp [hNaN, hZero, h]
  read_write v hSign hFits := by
    cases v with
    | nan => rfl
    | tiyn x =>
      obtain ⟨n, rfl⟩ := Int.eq_ofNat_of_zero_le hSign
      have hMax : n ≤ 999999999999999999 := by
        have : (n : Int) ≤ 999999999999999999 := hFits.2
        omega
      have hNaN : tiynText n ≠ "NaN" := by
        intro hEq
        have hMem : '.' ∈ (tiynText n).toList := by simp [tiynText]
        rw [hEq] at hMem
        exact absurd hMem (by decide)
      by_cases hPos : 0 < n
      · have hParse := parseTiyn_tiynText hPos hMax
        have hZero : tiynText n ≠ tiynText 0 := by
          intro hEq
          rw [hEq, parseTiyn_zero] at hParse
          cases hParse
        simp [hNaN, hZero, hParse]
      · obtain rfl : n = 0 := by omega
        simp [hNaN]

end NumericText

end CyberAccountant.Ledger
