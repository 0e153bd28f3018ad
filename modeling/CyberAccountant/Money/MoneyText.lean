import CyberAccountant.Library.Utf8
import CyberAccountant.Ledger.Money
import CyberAccountant.Money.MoneyFormat
import Mathlib.Data.List.TakeWhile
import Mathlib.Data.Rat.Cast.Order
import Mathlib.Tactic.FieldSimp
import Mathlib.Tactic.Linarith
import Mathlib.Tactic.NormNum
import Mathlib.Tactic.Positivity
import Mathlib.Tactic.Ring

/-! The texts of money as bytes: what `parseTiyn` accepts is a grammar of decimal amounts, what the two
formatters write is in it, and they agree. -/

namespace CyberAccountant.Money

open CyberAccountant.Library CyberAccountant.Ledger

/-! ### Digits -/

/-- The decimal point. -/
def dot : UInt8 := byteOf '.'

/-- `std::isdigit`. -/
def isDigit (b : UInt8) : Bool := 48 ≤ b.toNat && b.toNat ≤ 57

/-- The number that digits say. -/
def decimal (ds : List UInt8) : Nat := ds.foldl (fun n b => 10 * n + (b.toNat - 48)) 0

/-- `std::stoll` on digits; none where it throws `std::out_of_range`. -/
def stollBytes (ds : List UInt8) : Option Int := if InInt64 (decimal ds) then some (decimal ds) else none

/-- The digits after the point, with zeros added up to two of them. -/
def padBytes (fs : List UInt8) : List UInt8 := fs ++ List.replicate (2 - fs.length) 48

/-- `whole * 100 + frac` in 64-bit integers: none where it overflows. -/
def tiynSum? (whole frac : Int) : Option Int := do
  let hundredfold ← fit64? (whole * 100)
  fit64? (hundredfold + frac)

/-- `parse_tiyn` on the bytes of a text: none where an operation on 64-bit integers overflows. -/
def parseTiynBytes (amount : List UInt8) : Option (Except TiynFault Int) :=
  let intPart := amount.takeWhile (· != dot)
  let fracPart := (amount.dropWhile (· != dot)).drop 1
  if amount = [] then some (.error .emptyAmount)
  else if dot ∈ fracPart then some (.error .twoPoints)
  else if 2 < fracPart.length then some (.error .longFraction)
  else if intPart = [] then some (.error .noInteger)
  else if ¬intPart.all isDigit then some (.error .nonDigit)
  else if ¬fracPart.all isDigit then some (.error .nonDigitFraction)
  else if 16 < intPart.length then some (.error .longInteger)
  else
    match stollBytes intPart, stollBytes (padBytes fracPart) with
    | some whole, some frac =>
      (tiynSum? whole frac).map fun tiyn => if tiyn ≤ 0 then .error .notPositive else .ok tiyn
    | _, _ => some (.error .overflow)

theorem isDigit_iff {b : UInt8} : isDigit b = true ↔ 48 ≤ b.toNat ∧ b.toNat ≤ 57 := by
  simp [isDigit]

theorem isDigit_ne_dot {b : UInt8} (h : isDigit b = true) : b ≠ dot := by
  rintro rfl
  exact absurd h (by decide)

theorem decimal_append (xs ys : List UInt8) : decimal (xs ++ ys) = decimal xs * 10 ^ ys.length + decimal ys := by
  induction ys using List.reverseRecOn generalizing xs with
  | nil => simp [decimal]
  | append_singleton ys y ih =>
    have hStep : ∀ zs : List UInt8, decimal (zs ++ [y]) = 10 * decimal zs + (y.toNat - 48) := by
      intro zs
      simp [decimal]
    rw [← List.append_assoc, hStep, hStep, ih, List.length_append, List.length_singleton, Nat.pow_succ]
    ring

theorem decimal_cons (b : UInt8) (ds : List UInt8) :
    decimal (b :: ds) = (b.toNat - 48) * 10 ^ ds.length + decimal ds := by
  have hHead : decimal [b] = b.toNat - 48 := by simp [decimal]
  have hSplit := decimal_append [b] ds
  rwa [hHead] at hSplit

theorem decimal_lt {ds : List UInt8} (h : ds.all isDigit) : decimal ds < 10 ^ ds.length := by
  induction ds with
  | nil => decide
  | cons b ds ih =>
    rw [List.all_cons, Bool.and_eq_true] at h
    obtain ⟨hLow, hHigh⟩ := isDigit_iff.mp h.1
    have hTail := ih h.2
    have hHead : (b.toNat - 48) * 10 ^ ds.length ≤ 9 * 10 ^ ds.length := Nat.mul_le_mul_right _ (by omega)
    rw [decimal_cons, List.length_cons, Nat.pow_succ]
    omega

/-- Digits of the same length that say the same number are the same. -/
theorem decimal_inj {xs ys : List UInt8} (hx : xs.all isDigit) (hy : ys.all isDigit)
    (hLength : xs.length = ys.length) (h : decimal xs = decimal ys) : xs = ys := by
  induction xs generalizing ys with
  | nil => exact (List.length_eq_zero_iff.mp hLength.symm).symm
  | cons x xs ih =>
    obtain ⟨y, ys, rfl⟩ := List.exists_cons_of_length_eq_add_one hLength.symm
    rw [List.all_cons, Bool.and_eq_true] at hx hy
    rw [List.length_cons, List.length_cons, Nat.add_right_cancel_iff] at hLength
    rw [decimal_cons, decimal_cons, hLength] at h
    obtain ⟨hxLow, -⟩ := isDigit_iff.mp hx.1
    obtain ⟨hyLow, -⟩ := isDigit_iff.mp hy.1
    have hxTail := decimal_lt hx.2
    have hyTail := decimal_lt hy.2
    rw [hLength] at hxTail
    have hHead : x.toNat - 48 = y.toNat - 48 := by
      have hx' := congrArg (· / 10 ^ ys.length) h
      simp only [Nat.mul_comm _ (10 ^ ys.length), Nat.mul_add_div (Nat.pow_pos (show 0 < 10 by decide)),
        Nat.div_eq_of_lt hxTail, Nat.div_eq_of_lt hyTail, Nat.add_zero] at hx'
      exact hx'
    have hFirst : x = y := UInt8.toNat_inj.mp (by omega)
    rw [hHead] at h
    rw [hFirst, ih hx.2 hy.2 hLength (Nat.add_left_cancel h)]

theorem padBytes_length {fs : List UInt8} (h : fs.length ≤ 2) : (padBytes fs).length = 2 := by
  simp only [padBytes, List.length_append, List.length_replicate]
  omega

theorem padBytes_digits {fs : List UInt8} (h : fs.all isDigit) : (padBytes fs).all isDigit := by
  simp only [padBytes, List.all_append, h, Bool.true_and, List.all_replicate]
  split <;> decide

/-- Up to two digits after the point are hundredths after padding. -/
theorem decimal_padBytes {fs : List UInt8} (h : fs.length ≤ 2) :
    (decimal (padBytes fs) : ℚ) = 100 * (decimal fs / 10 ^ fs.length) := by
  have hZeros : ∀ n, decimal (List.replicate n 48) = 0 := by
    intro n
    induction n with
    | zero => rfl
    | succ n ih => rw [List.replicate_succ, decimal_cons, ih]; simp
  have hPow : (10 : ℚ) ^ (2 - fs.length) * 10 ^ fs.length = 100 := by
    rw [← pow_add, Nat.sub_add_cancel h]
    norm_num
  rw [padBytes, decimal_append, hZeros, List.length_replicate, Nat.add_zero, Nat.cast_mul, Nat.cast_pow,
    Nat.cast_ofNat, ← hPow]
  field_simp

/-! ### The grammar -/

/-- A text of up to sixteen digits, with or without a point and up to two more, and the amount that it
says. -/
inductive AmountText : List UInt8 → ℚ → Prop where
  | whole {ds : List UInt8} (digits : ds.all isDigit) (nonempty : ds ≠ []) (short : ds.length ≤ 16) :
    AmountText ds (decimal ds)
  | point {ds fs : List UInt8} (digits : ds.all isDigit) (nonempty : ds ≠ []) (short : ds.length ≤ 16)
    (fraction : fs.all isDigit) (hundredths : fs.length ≤ 2) :
    AmountText (ds ++ dot :: fs) (decimal ds + decimal fs / 10 ^ fs.length)

/-- The digits before the point and the digits after it. -/
def parts (amount : List UInt8) : List UInt8 × List UInt8 :=
  (amount.takeWhile (· != dot), (amount.dropWhile (· != dot)).drop 1)

theorem parts_whole {ds : List UInt8} (h : ds.all isDigit) : parts ds = (ds, []) := by
  have hPlain : ∀ b ∈ ds, (b != dot) = true := fun b hb =>
    bne_iff_ne.mpr (isDigit_ne_dot (List.all_eq_true.mp h b hb))
  rw [parts, List.takeWhile_eq_self_iff.mpr hPlain, List.dropWhile_eq_nil_iff.mpr hPlain]
  rfl

theorem parts_point {ds fs : List UInt8} (h : ds.all isDigit) : parts (ds ++ dot :: fs) = (ds, fs) := by
  have hPlain : ∀ b ∈ ds, (b != dot) = true := fun b hb =>
    bne_iff_ne.mpr (isDigit_ne_dot (List.all_eq_true.mp h b hb))
  rw [parts, List.takeWhile_append_of_pos hPlain, List.dropWhile_append_of_pos hPlain]
  simp

/-- A text is its digits before the point, or these, the point and the digits after it. -/
theorem parts_split (amount : List UInt8) :
    amount = (parts amount).1 ∧ (parts amount).2 = [] ∨ amount = (parts amount).1 ++ dot :: (parts amount).2 := by
  have hSplit := List.takeWhile_append_dropWhile (p := (· != dot)) (l := amount)
  unfold parts
  cases hRest : amount.dropWhile (· != dot) with
  | nil =>
    rw [hRest, List.append_nil] at hSplit
    exact .inl ⟨hSplit.symm, rfl⟩
  | cons b rest =>
    have hDot : b = dot := by
      have hHead := List.head?_dropWhile_not (· != dot) amount
      rw [hRest] at hHead
      simpa using hHead
    rw [hRest, hDot] at hSplit
    exact .inr hSplit.symm

/-! ### The parser accepts the grammar -/

section Parser

variable {amount ds fs : List UInt8}

theorem stollBytes_of_digits (h : ds.all isDigit) (hLength : ds.length ≤ 16) :
    stollBytes ds = some ((decimal ds : Nat) : Int) := by
  have hLt := decimal_lt h
  have hPow : 10 ^ ds.length ≤ 10 ^ 16 := Nat.pow_le_pow_right (show 0 < 10 by decide) hLength
  exact if_pos ⟨by omega, by omega⟩

/-- Sixteen digits and two after the point fit 64 bits. -/
theorem tiynSum?_of_digits (h : ds.all isDigit) (hLength : ds.length ≤ 16) (hf : fs.all isDigit)
    (hTwo : fs.length ≤ 2) : tiynSum? (decimal ds) (decimal (padBytes fs)) =
      some ((decimal ds : Int) * 100 + decimal (padBytes fs)) := by
  have hWhole := decimal_lt h
  have hPow : 10 ^ ds.length ≤ 10 ^ 16 := Nat.pow_le_pow_right (show 0 < 10 by decide) hLength
  have hFrac := decimal_lt (padBytes_digits hf)
  rw [padBytes_length hTwo] at hFrac
  unfold tiynSum?
  rw [fit64?_of ⟨by omega, by omega⟩, Option.bind_eq_bind, Option.bind_some, fit64?_of ⟨by omega, by omega⟩]

/-- A sum that does not overflow is the one that wraps. -/
theorem wrap64_of_tiynSum? {whole frac tiyn : Int} (h : tiynSum? whole frac = some tiyn) :
    wrap64 (wrap64 (whole * 100) + frac) = tiyn := by
  simp only [tiynSum?, Option.bind_eq_bind, Option.bind_eq_some_iff, fit64?_eq_some] at h
  obtain ⟨_, ⟨hWhole, rfl⟩, hSum, rfl⟩ := h
  rw [wrap64_of_inInt64 hWhole, wrap64_of_inInt64 hSum]

/-- What the parser computes on digits: nothing overflows. -/
theorem parseTiynBytes_of_parts (h : parts amount = (ds, fs)) (hd : ds.all isDigit) (hSome : ds ≠ [])
    (hShort : ds.length ≤ 16) (hf : fs.all isDigit) (hTwo : fs.length ≤ 2) :
    parseTiynBytes amount = some (if (decimal ds : Int) * 100 + decimal (padBytes fs) ≤ 0 then .error .notPositive
      else .ok ((decimal ds : Int) * 100 + decimal (padBytes fs))) := by
  have hWhole : amount.takeWhile (· != dot) = ds := congrArg Prod.fst h
  have hFrac : (amount.dropWhile (· != dot)).drop 1 = fs := congrArg Prod.snd h
  have hAmount : amount ≠ [] := by
    rintro rfl
    exact hSome hWhole.symm
  have hDot : dot ∉ fs := fun hMem => isDigit_ne_dot (List.all_eq_true.mp hf _ hMem) rfl
  have hPad := padBytes_length hTwo
  unfold parseTiynBytes
  rw [hWhole, hFrac, if_neg hAmount, if_neg hDot, if_neg (by omega), if_neg hSome, if_neg (not_not_intro hd),
    if_neg (not_not_intro hf), if_neg (by omega), stollBytes_of_digits hd hShort,
    stollBytes_of_digits (padBytes_digits hf) (by omega)]
  dsimp only
  rw [tiynSum?_of_digits hd hShort hf hTwo, Option.map_some]

/-- The checks before the arithmetic: a text without digits in the right places is refused. -/
theorem parseTiynBytes_checked (h : parts amount = (ds, fs)) :
    (∃ fault, parseTiynBytes amount = some (.error fault)) ∨
      ds.all isDigit ∧ ds ≠ [] ∧ ds.length ≤ 16 ∧ fs.all isDigit ∧ fs.length ≤ 2 := by
  have hWhole : amount.takeWhile (· != dot) = ds := congrArg Prod.fst h
  have hFrac : (amount.dropWhile (· != dot)).drop 1 = fs := congrArg Prod.snd h
  unfold parseTiynBytes
  rw [hWhole, hFrac]
  dsimp only
  by_cases hEmpty : amount = []
  · exact .inl ⟨_, if_pos hEmpty⟩
  rw [if_neg hEmpty]
  by_cases hDot : dot ∈ fs
  · exact .inl ⟨_, if_pos hDot⟩
  rw [if_neg hDot]
  by_cases hLong : 2 < fs.length
  · exact .inl ⟨_, if_pos hLong⟩
  rw [if_neg hLong]
  by_cases hNone : ds = []
  · exact .inl ⟨_, if_pos hNone⟩
  rw [if_neg hNone]
  by_cases hd : ds.all isDigit
  swap
  · exact .inl ⟨_, if_pos hd⟩
  rw [if_neg (not_not_intro hd)]
  by_cases hf : fs.all isDigit
  swap
  · exact .inl ⟨_, if_pos hf⟩
  rw [if_neg (not_not_intro hf)]
  by_cases hShort : 16 < ds.length
  · exact .inl ⟨_, if_pos hShort⟩
  exact .inr ⟨hd, hNone, Nat.le_of_not_lt hShort, hf, Nat.le_of_not_lt hLong⟩

/-- No operation overflows, whatever the bytes. -/
theorem parseTiynBytes_defined (amount : List UInt8) : ∃ outcome, parseTiynBytes amount = some outcome := by
  obtain ⟨ds, fs, hParts⟩ : ∃ ds fs, parts amount = (ds, fs) := ⟨_, _, rfl⟩
  rcases parseTiynBytes_checked hParts with ⟨fault, hFault⟩ | ⟨hd, hSome, hShort, hf, hTwo⟩
  · exact ⟨_, hFault⟩
  · exact ⟨_, parseTiynBytes_of_parts hParts hd hSome hShort hf hTwo⟩

/-- A text of the grammar is taken apart into the digits that say its amount. -/
theorem AmountText.parts {q : ℚ} (h : AmountText amount q) :
    ∃ ds fs, parts amount = (ds, fs) ∧ ds.all isDigit ∧ ds ≠ [] ∧ ds.length ≤ 16 ∧ fs.all isDigit ∧
      fs.length ≤ 2 ∧ q = decimal ds + decimal fs / 10 ^ fs.length := by
  cases h with
  | whole hd hSome hShort =>
    exact ⟨_, [], parts_whole hd, hd, hSome, hShort, rfl, by decide, by simp [decimal]⟩
  | point hd hSome hShort hf hTwo => exact ⟨_, _, parts_point hd, hd, hSome, hShort, hf, hTwo, rfl⟩

/-- Digits around a point, or digits alone, are a text of the grammar. -/
theorem AmountText.of_parts (h : Money.parts amount = (ds, fs)) (hd : ds.all isDigit) (hSome : ds ≠ [])
    (hShort : ds.length ≤ 16) (hf : fs.all isDigit) (hTwo : fs.length ≤ 2) :
    AmountText amount (decimal ds + decimal fs / 10 ^ fs.length) := by
  have hSplit := parts_split amount
  rw [h] at hSplit
  rcases hSplit with ⟨rfl, rfl⟩ | rfl
  · have hText := AmountText.whole hd hSome hShort
    simpa [decimal] using hText
  · exact AmountText.point hd hSome hShort hf hTwo

theorem tiyn_eq_hundredfold (ds : List UInt8) (hTwo : fs.length ≤ 2) :
    (((decimal ds : Int) * 100 + decimal (padBytes fs) : Int) : ℚ) =
      100 * (decimal ds + decimal fs / 10 ^ fs.length) := by
  have hPadded := decimal_padBytes hTwo
  push_cast
  rw [hPadded]
  ring

/-- The parser accepts the texts of the grammar that say a positive amount, and returns a hundred times
the amount. -/
theorem parseTiynBytes_eq_ok {tiyn : Int} :
    parseTiynBytes amount = some (.ok tiyn) ↔ ∃ q, AmountText amount q ∧ 0 < q ∧ (tiyn : ℚ) = 100 * q := by
  constructor
  · intro h
    obtain ⟨ds, fs, hParts⟩ : ∃ ds fs, parts amount = (ds, fs) := ⟨_, _, rfl⟩
    rcases parseTiynBytes_checked hParts with ⟨fault, hFault⟩ | ⟨hd, hSome, hShort, hf, hTwo⟩
    · rw [hFault] at h
      cases h
    · rw [parseTiynBytes_of_parts hParts hd hSome hShort hf hTwo] at h
      split_ifs at h with hSign
      · cases h
      · have hTiyn := Except.ok.inj (Option.some.inj h)
        have hValue := tiyn_eq_hundredfold ds hTwo
        rw [hTiyn] at hSign hValue
        refine ⟨_, AmountText.of_parts hParts hd hSome hShort hf hTwo, ?_, hValue⟩
        have hPos : (0 : ℚ) < tiyn := by exact_mod_cast Int.lt_of_not_ge hSign
        rw [hValue] at hPos
        linarith
  · rintro ⟨q, hText, hPos, hTiyn⟩
    obtain ⟨ds, fs, hParts, hd, hSome, hShort, hf, hTwo, rfl⟩ := hText.parts
    have hValue := tiyn_eq_hundredfold ds hTwo
    rw [← hTiyn] at hValue
    have hSum : (decimal ds : Int) * 100 + decimal (padBytes fs) = tiyn := by exact_mod_cast hValue
    have hSign : ¬tiyn ≤ 0 := by
      have : (0 : ℚ) < tiyn := by rw [hTiyn]; linarith
      have : 0 < tiyn := by exact_mod_cast this
      omega
    rw [parseTiynBytes_of_parts hParts hd hSome hShort hf hTwo, hSum, if_neg hSign]

end Parser

/-! ### Bytes and characters -/

theorem isDigit_byteOf {c : Char} (h : c.toNat < 128) : isDigit (byteOf c) = c.isDigit := by
  rw [Bool.eq_iff_iff, isDigit_iff, byteOf_toNat h, Char.isDigit_iff_toNat]
  rfl

theorem utf8_isDigit (cs : List Char) : (utf8 cs).all isDigit = cs.all Char.isDigit := by
  refine utf8_all (fun c => isDigit_byteOf) (fun b hb => ?_) (fun c hc => ?_) cs
  · rw [Bool.eq_false_iff]
    exact fun hDigit => absurd (isDigit_iff.mp hDigit).2 (by omega)
  · rw [Bool.eq_false_iff]
    intro hDigit
    have := (Char.isDigit_iff_toNat.mp hDigit).2
    have hNine : '9'.toNat = 57 := rfl
    omega

theorem isDigit_ascii {c : Char} (h : c.isDigit) : c.toNat < 128 := by
  have := (Char.isDigit_iff_toNat.mp h).2
  have hNine : '9'.toNat = 57 := rfl
  omega

theorem utf8_digits_cons {c : Char} (h : c.isDigit) (cs : List Char) : utf8 (c :: cs) = byteOf c :: utf8 cs := by
  rw [utf8_cons, utf8EncodeChar_ascii (isDigit_ascii h)]
  rfl

theorem utf8_length (cs : List Char) : (utf8 cs).length = byteSize cs := by
  induction cs with
  | nil => rfl
  | cons c cs ih =>
    rw [utf8_cons, List.length_append, String.length_utf8EncodeChar, ih, byteSize, byteSize, List.map_cons,
      List.sum_cons]

theorem utf8_digits_length {cs : List Char} (h : cs.all Char.isDigit) : (utf8 cs).length = cs.length :=
  (utf8_length cs).trans (byteSize_of_digits h)

theorem decimal_utf8 {cs : List Char} (h : cs.all Char.isDigit) : decimal (utf8 cs) = Nat.ofDigitChars 10 cs 0 := by
  induction cs with
  | nil => rfl
  | cons c cs ih =>
    rw [List.all_cons, Bool.and_eq_true] at h
    have hZero : '0'.toNat = 48 := rfl
    rw [Nat.ofDigitChars_cons, Nat.ofDigitChars_eq_ofDigitChars_zero, hZero, utf8_digits_cons h.1, decimal_cons,
      ih h.2, utf8_digits_length h.2, byteOf_toNat (isDigit_ascii h.1), Nat.mul_zero, Nat.zero_add, Nat.mul_comm]

theorem stollBytes_utf8 {cs : List Char} (h : cs.all Char.isDigit) : stollBytes (utf8 cs) = stoll cs := by
  rw [stollBytes, decimal_utf8 h]
  rfl

theorem utf8_padFrac {cs : List Char} (h : cs.all Char.isDigit) : padBytes (utf8 cs) = utf8 (padFrac cs) := by
  have hZeros : ∀ n, utf8 (List.replicate n '0') = List.replicate n 48 := by
    intro n
    induction n with
    | zero => rfl
    | succ n ih => rw [List.replicate_succ, utf8_digits_cons (by decide), ih]; rfl
  rw [padBytes, padFrac, utf8_append, hZeros, utf8_digits_length h]

theorem parts_utf8 (cs : List Char) :
    parts (utf8 cs) = (utf8 (cs.takeWhile (· != '.')), utf8 ((cs.dropWhile (· != '.')).drop 1)) := by
  have hAscii : '.'.toNat < 128 := by decide
  rw [parts, dot, utf8_takeWhile hAscii, utf8_dropWhile hAscii]
  congr 1
  cases hRest : cs.dropWhile (· != '.') with
  | nil => rfl
  | cons c rest =>
    have hHead := List.head?_dropWhile_not (· != '.') cs
    rw [hRest] at hHead
    have hDot : c = '.' := by simpa using hHead
    rw [hDot, utf8_cons, utf8EncodeChar_ascii hAscii]
    rfl

/-- On the bytes of a text the parser does what `parseTiyn` does on the text. -/
theorem parseTiynBytes_utf8 (amount : String) : parseTiynBytes (utf8 amount.toList) = some (parseTiyn amount) := by
  have hParts := parts_utf8 amount.toList
  unfold parseTiynBytes parseTiyn
  extract_lets intPart fracPart ds fs
  have hWhole : intPart = utf8 ds := congrArg Prod.fst hParts
  have hFrac : fracPart = utf8 fs := congrArg Prod.snd hParts
  clear_value intPart fracPart ds fs
  rw [hWhole, hFrac]
  -- the checks one after another: each says the same of the bytes and of the characters
  by_cases hEmpty : amount.toList = []
  · rw [if_pos (utf8_eq_nil.mpr hEmpty), if_pos hEmpty]
  rw [if_neg (mt utf8_eq_nil.mp hEmpty), if_neg hEmpty]
  have hDotIff : dot ∈ utf8 fs ↔ '.' ∈ fs := byteOf_mem_utf8 (by decide)
  by_cases hDot : '.' ∈ fs
  · rw [if_pos (hDotIff.mpr hDot), if_pos hDot]
  rw [if_neg (mt hDotIff.mp hDot), if_neg hDot, utf8_length]
  by_cases hLong : 2 < byteSize fs
  · rw [if_pos hLong, if_pos hLong]
  rw [if_neg hLong, if_neg hLong]
  by_cases hSome : ds = []
  · rw [if_pos (utf8_eq_nil.mpr hSome), if_pos hSome]
  rw [if_neg (mt utf8_eq_nil.mp hSome), if_neg hSome, utf8_isDigit, utf8_isDigit]
  by_cases hd : ds.all Char.isDigit
  swap
  · rw [if_pos hd, if_pos hd]
  rw [if_neg (not_not_intro hd), if_neg (not_not_intro hd)]
  by_cases hf : fs.all Char.isDigit
  swap
  · rw [if_pos hf, if_pos hf]
  rw [if_neg (not_not_intro hf), if_neg (not_not_intro hf), utf8_length]
  by_cases hShort : 16 < byteSize ds
  · rw [if_pos hShort, if_pos hShort]
  rw [if_neg hShort, if_neg hShort]
  have hdShort : ds.length ≤ 16 := (length_le_byteSize ds).trans (Nat.le_of_not_lt hShort)
  have hfShort : fs.length ≤ 2 := (length_le_byteSize fs).trans (Nat.le_of_not_lt hLong)
  have hPad := padFrac_digits hf
  have hPadLength := padFrac_length hfShort
  have hSum := tiynSum?_of_digits ((utf8_isDigit ds).trans hd) (by rwa [utf8_digits_length hd])
    ((utf8_isDigit fs).trans hf) (by rwa [utf8_digits_length hf])
  rw [utf8_padFrac hf, decimal_utf8 hd, decimal_utf8 hPad] at hSum
  -- the two numbers are the same, and their sum does not overflow
  rw [utf8_padFrac hf, stollBytes_utf8 hd, stollBytes_utf8 hPad, stoll_of_digits hd hdShort,
    stoll_of_digits hPad (by omega)]
  dsimp only
  rw [hSum, wrap64_of_tiynSum? hSum, Option.map_some]

/-! ### The canonical form -/

/-- A text with two digits after the point and no needless zero before it. -/
inductive CanonicalText : List UInt8 → Prop where
  | mk {ds fs : List UInt8} (digits : ds.all isDigit) (nonempty : ds ≠ [])
    (noLeadingZero : ds.head? = some 48 → ds.length = 1) (fraction : fs.all isDigit) (two : fs.length = 2) :
    CanonicalText (ds ++ dot :: fs)

/-- Without a leading zero more digits say more. -/
theorem decimal_lt_decimal {xs ys : List UInt8} (hx : xs.all isDigit) (hSome : xs ≠ []) (hy : ys.all isDigit)
    (hZero : ys.head? = some 48 → ys.length = 1) (hLength : xs.length < ys.length) : decimal xs < decimal ys := by
  have hPos : 0 < xs.length := List.length_pos_iff.mpr hSome
  have hxLt := decimal_lt hx
  cases ys with
  | nil => simp at hLength
  | cons y ys =>
    rw [List.length_cons] at hLength
    rw [List.all_cons, Bool.and_eq_true] at hy
    obtain ⟨hLow, -⟩ := isDigit_iff.mp hy.1
    have hNotZero : y.toNat ≠ 48 := by
      intro hEq
      have hOne := hZero (congrArg some (UInt8.toNat_inj.mp hEq))
      rw [List.length_cons] at hOne
      omega
    have hHead : 1 * 10 ^ ys.length ≤ (y.toNat - 48) * 10 ^ ys.length := Nat.mul_le_mul_right _ (by omega)
    have hPow : 10 ^ xs.length ≤ 10 ^ ys.length := Nat.pow_le_pow_right (show 0 < 10 by decide) (by omega)
    rw [decimal_cons]
    omega

/-- A canonical text that says an amount is the only one. -/
theorem CanonicalText.unique {s s' : List UInt8} {q : ℚ} (h : CanonicalText s) (h' : CanonicalText s')
    (hText : AmountText s q) (hText' : AmountText s' q) : s = s' := by
  cases h with
  | mk hd hSome hZero hf hTwo =>
    cases h' with
    | mk hd' hSome' hZero' hf' hTwo' =>
      rename_i ds fs ds' fs'
      obtain ⟨_, _, hParts, -, -, -, -, -, hq⟩ := hText.parts
      obtain ⟨_, _, hParts', -, -, -, -, -, hq'⟩ := hText'.parts
      obtain ⟨rfl, rfl⟩ := Prod.mk.inj ((parts_point hd).symm.trans hParts)
      obtain ⟨rfl, rfl⟩ := Prod.mk.inj ((parts_point hd').symm.trans hParts')
      have hFrac := decimal_lt hf
      have hFrac' := decimal_lt hf'
      rw [hTwo] at hFrac hq
      rw [hTwo'] at hFrac' hq'
      have hEq : (decimal ds * 100 + decimal fs : ℚ) = decimal ds' * 100 + decimal fs' := by linarith
      have hNat : decimal ds * 100 + decimal fs = decimal ds' * 100 + decimal fs' := by exact_mod_cast hEq
      have hFracEq : decimal fs = decimal fs' := by omega
      have hWholeEq : decimal ds = decimal ds' := by omega
      have hLength : ds.length = ds'.length := by
        rcases Nat.lt_trichotomy ds.length ds'.length with hLess | hSame | hMore
        · exact absurd (decimal_lt_decimal hd hSome hd' hZero' hLess) (by omega)
        · exact hSame
        · exact absurd (decimal_lt_decimal hd' hSome' hd hZero hMore) (by omega)
      rw [decimal_inj hd hd' hLength hWholeEq, decimal_inj hf hf' (by omega) hFracEq]

/-! ### The formatters -/

/-- The decimal digits of a number have no needless zero. -/
theorem toDigits_noLeadingZero {n : Nat} (h : (Nat.toDigits 10 n).head? = some '0') :
    (Nat.toDigits 10 n).length = 1 := by
  obtain ⟨rest, hDigits⟩ := List.head?_eq_some_iff.mp h
  have hAll := toDigits_all_isDigit n
  have hValue := Nat.ofDigitChars_ten_toDigits (n := n)
  rw [hDigits, Nat.ofDigitChars_cons] at hValue
  rw [hDigits, List.all_cons, Bool.and_eq_true] at hAll
  have hRest : Nat.ofDigitChars 10 rest 0 = n := by simpa using hValue
  have hLt := ofDigitChars_lt hAll.2
  rw [hRest] at hLt
  by_contra hLong
  rw [hDigits, List.length_cons] at hLong
  have hShorter := (Nat.length_toDigits_le_iff (b := 10) (k := rest.length) (by decide) (by omega)).mpr hLt
  rw [hDigits, List.length_cons] at hShorter
  omega

theorem utf8_tiynText (n : Nat) : utf8 (tiynText n).toList =
    utf8 (Nat.toDigits 10 (n / 100)) ++ dot :: utf8 (Ledger.twoDigits (n % 100)) := by
  rw [tiynText, String.toList_ofList, utf8_append, utf8_cons, utf8EncodeChar_ascii (by decide)]
  rfl

theorem tiynText_canonical (n : Nat) : CanonicalText (utf8 (tiynText n).toList) := by
  have hWhole := toDigits_all_isDigit (n / 100)
  have hFrac := Ledger.twoDigits_digits (n % 100)
  have hTwo := Ledger.twoDigits_length (Nat.mod_lt n (show 0 < 100 by decide))
  rw [utf8_tiynText]
  refine .mk ((utf8_isDigit _).trans hWhole) ?_ (fun hZero => ?_) ((utf8_isDigit _).trans hFrac)
    ((utf8_digits_length hFrac).trans hTwo)
  · rw [Ne, utf8_eq_nil]
    exact Nat.toDigits_ne_nil
  · rw [utf8_digits_length hWhole]
    refine toDigits_noLeadingZero ?_
    obtain ⟨c, rest, hDigits⟩ := List.exists_cons_of_ne_nil (Nat.toDigits_ne_nil (b := 10) (n := n / 100))
    rw [hDigits, List.all_cons, Bool.and_eq_true] at hWhole
    rw [hDigits, utf8_digits_cons hWhole.1, List.head?_cons] at hZero
    rw [hDigits, List.head?_cons]
    exact congrArg some (byteOf_inj (isDigit_ascii hWhole.1) (by decide) (Option.some.inj hZero))

/-- The text of an amount of at most eighteen digits is in the grammar. -/
theorem tiynText_amount {n : Nat} (h : n < 10 ^ 18) : AmountText (utf8 (tiynText n).toList) (n / 100) := by
  have hWhole := toDigits_all_isDigit (n / 100)
  have hFrac := Ledger.twoDigits_digits (n % 100)
  have hTwo := Ledger.twoDigits_length (Nat.mod_lt n (show 0 < 100 by decide))
  have hShort : (Nat.toDigits 10 (n / 100)).length ≤ 16 :=
    (Nat.length_toDigits_le_iff (by decide) (by decide)).mpr (by omega)
  have hText := AmountText.point ((utf8_isDigit _).trans hWhole) (by rw [Ne, utf8_eq_nil]; exact Nat.toDigits_ne_nil)
    ((utf8_digits_length hWhole).trans_le hShort) ((utf8_isDigit _).trans hFrac)
    ((utf8_digits_length hFrac).trans hTwo).le
  rw [← utf8_tiynText, decimal_utf8 hWhole, decimal_utf8 hFrac, utf8_digits_length hFrac, hTwo,
    Nat.ofDigitChars_ten_toDigits, Ledger.twoDigits_value] at hText
  have hValue : ((n / 100 : Nat) : ℚ) + (n % 100 : Nat) / 10 ^ 2 = n / 100 := by
    have hSplit : ((n / 100 * 100 + n % 100 : Nat) : ℚ) = n := by rw [Nat.div_add_mod']
    push_cast at hSplit
    linarith
  rwa [hValue] at hText

/-- Digits in groups of three from the right, with a blank between two groups. -/
def GroupedInThrees (text digits : List Char) : Prop :=
  ∃ first groups, text = [' '].intercalate (first :: groups) ∧ (first :: groups).flatten = digits ∧
    1 ≤ first.length ∧ first.length ≤ 3 ∧ ∀ group ∈ groups, group.length = 3

/-- The loop counts what it has taken, and its text read backwards is grouped; the group that is not yet
complete has what is left of the count after whole threes. -/
theorem groupDigits_loop (digits : List Char) (h : digits ≠ []) :
    ∃ out first groups, digits.foldl (fun (state : Nat × List Char) c => (state.1 + 1,
        if 0 < state.1 ∧ state.1 % 3 = 0 then state.2 ++ [' ', c] else state.2 ++ [c])) (0, []) =
          (digits.length, out) ∧
      out.reverse = [' '].intercalate (first :: groups) ∧ (first :: groups).flatten = digits.reverse ∧
      first.length = (digits.length - 1) % 3 + 1 ∧ ∀ group ∈ groups, group.length = 3 := by
  induction digits using List.reverseRecOn with
  | nil => exact absurd rfl h
  | append_singleton digits c ih =>
    by_cases hFirst : digits = []
    · subst hFirst
      exact ⟨[c], [c], [], by simp, by simp [List.intercalate], by simp, by simp, by simp⟩
    · obtain ⟨out, first, groups, hLoop, hOut, hDigits, hLength, hGroups⟩ := ih hFirst
      have hPos : 0 < digits.length := List.length_pos_iff.mpr hFirst
      rw [List.foldl_append, hLoop]
      by_cases hThree : digits.length % 3 = 0
      · refine ⟨out ++ [' ', c], [c], first :: groups, ?_, ?_, ?_, ?_, ?_⟩
        · simp [hPos, hThree]
        · simp [hOut, List.intercalate_cons_cons]
        · simpa using hDigits
        · simp [hThree]
        · exact List.forall_mem_cons.mpr ⟨by omega, hGroups⟩
      · refine ⟨out ++ [c], c :: first, groups, ?_, ?_, ?_, ?_, hGroups⟩
        · simp [hThree]
        · cases groups with
          | nil => simpa [List.intercalate] using hOut
          | cons group groups => simpa [List.intercalate_cons_cons] using hOut
        · simpa using hDigits
        · rw [List.length_cons, hLength, List.length_append, List.length_singleton]
          omega

theorem groupDigits_grouped {digits : List Char} (h : digits ≠ []) :
    GroupedInThrees (groupDigits digits.reverse).reverse digits := by
  obtain ⟨out, first, groups, hLoop, hOut, hDigits, hLength, hGroups⟩ :=
    groupDigits_loop digits.reverse (by simpa using h)
  have hGrouped : groupDigits digits.reverse = out := congrArg Prod.snd hLoop
  rw [hGrouped]
  exact ⟨first, groups, hOut, by rwa [List.reverse_reverse] at hDigits, by omega, by omega, hGroups⟩

/-- A printed amount without its blanks, and with a point for the comma. -/
def plainText (text : String) : String :=
  String.ofList ((text.toList.filter (· ≠ ' ')).map fun c => if c = ',' then '.' else c)

theorem twoDigits_eq {n : Nat} (h : n < 100) : twoDigits n = Ledger.twoDigits n := by
  have hCheck : ∀ m < 100, twoDigits m = Ledger.twoDigits m := by decide +kernel
  exact hCheck n h

/-- Digits stay when blanks are dropped and commas replaced. -/
theorem plain_digits {cs : List Char} (h : cs.all Char.isDigit) :
    cs.filter (· ≠ ' ') = cs ∧ cs.map (fun c => if c = ',' then '.' else c) = cs := by
  constructor
  · refine List.filter_eq_self.mpr fun c hc => ?_
    simpa using isDigit_ne ' ' (List.all_eq_true.mp h c hc) rfl
  · refine (List.map_congr_left fun c hc => ?_).trans (List.map_id cs)
    exact if_neg (isDigit_ne ',' (List.all_eq_true.mp h c hc) rfl)

/-- Both formatters write the same digits, the printed one with groups and a comma. -/
theorem formatTiynRu_natCast (n : Nat) :
    ∃ ru grouped digits frac, formatTiynRu n = some ru ∧ plainText ru = tiynText n ∧
      ru.toList = grouped ++ ',' :: frac ∧ (tiynText n).toList = digits ++ '.' :: frac ∧
      GroupedInThrees grouped digits := by
  have hWhole := toDigits_all_isDigit (n / 100)
  have hFrac := Ledger.twoDigits_digits (n % 100)
  have hTwo := twoDigits_eq (Nat.mod_lt n (show 0 < 100 by decide))
  have hBlank : ((groupDigits (Nat.toDigits 10 (n / 100)).reverse).reverse).filter (· ≠ ' ') =
      Nat.toDigits 10 (n / 100) := by
    rw [List.filter_reverse, groupDigits_filter, List.reverse_reverse]
    intro c hc
    exact isDigit_ne ' ' (List.all_eq_true.mp hWhole c (List.mem_reverse.mp hc)) rfl
  refine ⟨_, _, Nat.toDigits 10 (n / 100), Ledger.twoDigits (n % 100), ?_, ?_, String.toList_ofList, ?_,
    groupDigits_grouped Nat.toDigits_ne_nil⟩
  · rw [formatTiynRu, if_neg (by omega), Int.toNat_natCast, hTwo]
  · rw [plainText, String.toList_ofList, List.filter_append, hBlank, List.map_append, (plain_digits hWhole).2,
      List.filter_cons_of_pos (by decide), (plain_digits hFrac).1, List.map_cons, (plain_digits hFrac).2, tiynText]
    rfl
  · rw [tiynText, String.toList_ofList]

/-- The text of an amount of 64 bits fits the buffer of 32 bytes that it is printed into. -/
theorem tiynText_length {n : Nat} (h : InInt64 n) : (tiynText n).toList.length < 32 := by
  have hMax := h.2
  have hWhole : (Nat.toDigits 10 (n / 100)).length ≤ 17 :=
    (Nat.length_toDigits_le_iff (by decide) (by decide)).mpr (by omega)
  have hTwo := Ledger.twoDigits_length (Nat.mod_lt n (show 0 < 100 by decide))
  rw [tiynText, String.toList_ofList, List.length_append, List.length_cons, hTwo]
  omega

/-- A parsed amount is written as the one canonical text of the same amount. -/
theorem formatTiyn_parsed {s : List UInt8} {tiyn : Int} {q : ℚ} (hParse : parseTiynBytes s = some (.ok tiyn))
    (hText : AmountText s q) :
    ∃ text, formatTiyn tiyn = .ok text ∧ CanonicalText (utf8 text.toList) ∧ AmountText (utf8 text.toList) q ∧
      ∀ s', CanonicalText s' → AmountText s' q → s' = utf8 text.toList := by
  obtain ⟨ds, fs, hParts, hd, hSome, hShort, hf, hTwo, rfl⟩ := hText.parts
  rw [parseTiynBytes_of_parts hParts hd hSome hShort hf hTwo] at hParse
  have hWhole := decimal_lt hd
  have hPow : 10 ^ ds.length ≤ 10 ^ 16 := Nat.pow_le_pow_right (show 0 < 10 by decide) hShort
  have hFrac := decimal_lt (padBytes_digits hf)
  rw [padBytes_length hTwo] at hFrac
  split_ifs at hParse with hSign
  · cases hParse
  · have hTiyn := Except.ok.inj (Option.some.inj hParse)
    have hValue := tiyn_eq_hundredfold ds hTwo
    rw [hTiyn] at hValue
    obtain ⟨n, rfl⟩ := Int.eq_ofNat_of_zero_le (show 0 ≤ tiyn by omega)
    have hAmount := tiynText_amount (n := n) (by omega)
    have hSame : (n / 100 : ℚ) = decimal ds + decimal fs / 10 ^ fs.length := by
      rw [Int.cast_natCast] at hValue
      linarith
    rw [hSame] at hAmount
    exact ⟨_, formatTiyn_natCast n, tiynText_canonical n, hAmount,
      fun s' hCanonical hText' => hCanonical.unique (tiynText_canonical n) hText' hAmount⟩

/-- Texts of money round-trip: the parser accepts exactly its grammar and never overflows; what is
formatted again is the one canonical text of the same amount; every amount of up to eighteen digits comes
back from its text; and the printed form is the plain one with its digits in groups of three. -/
theorem money_text_roundTrips :
    (∀ s, (∃ outcome, parseTiynBytes s = some outcome) ∧
      ∀ tiyn, parseTiynBytes s = some (.ok tiyn) ↔ ∃ q, AmountText s q ∧ 0 < q ∧ (tiyn : ℚ) = 100 * q) ∧
    (∀ s tiyn q, parseTiynBytes s = some (.ok tiyn) → AmountText s q →
      ∃ text, formatTiyn tiyn = .ok text ∧ CanonicalText (utf8 text.toList) ∧
        AmountText (utf8 text.toList) q ∧
        ∀ s', CanonicalText s' → AmountText s' q → s' = utf8 text.toList) ∧
    (∀ tiyn : Int, 0 < tiyn → tiyn < 10 ^ 18 →
      ∃ text, formatTiyn tiyn = .ok text ∧ parseTiynBytes (utf8 text.toList) = some (.ok tiyn)) ∧
    ∀ tiyn, (tiyn < 0 → formatTiynRu tiyn = none ∧ ∃ what, formatTiyn tiyn = .error what) ∧
      (0 ≤ tiyn → ∃ ru text grouped digits frac, formatTiynRu tiyn = some ru ∧ formatTiyn tiyn = .ok text ∧
        plainText ru = text ∧ ru.toList = grouped ++ ',' :: frac ∧ text.toList = digits ++ '.' :: frac ∧
        GroupedInThrees grouped digits ∧ (InInt64 tiyn → text.toList.length < 32)) := by
  refine ⟨fun s => ⟨parseTiynBytes_defined s, fun tiyn => parseTiynBytes_eq_ok⟩,
    fun s tiyn q => formatTiyn_parsed, ?_, fun tiyn => ⟨?_, ?_⟩⟩
  · intro tiyn hPos hMax
    obtain ⟨n, rfl⟩ := Int.eq_ofNat_of_zero_le (show 0 ≤ tiyn by omega)
    exact ⟨_, formatTiyn_natCast n, by rw [parseTiynBytes_utf8, parseTiyn_tiynText (by omega) (by omega)]⟩
  · intro hSign
    exact ⟨if_pos hSign, _, if_pos hSign⟩
  · intro hSign
    obtain ⟨n, rfl⟩ := Int.eq_ofNat_of_zero_le hSign
    obtain ⟨ru, grouped, digits, frac, hRu, hPlain, hChars, hText, hGrouped⟩ := formatTiynRu_natCast n
    exact ⟨ru, _, grouped, digits, frac, hRu, formatTiyn_natCast n, hPlain, hChars, hText, hGrouped,
      tiynText_length⟩

end CyberAccountant.Money
