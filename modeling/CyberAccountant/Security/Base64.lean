import CyberAccountant.Library.Radix64
import Mathlib.Data.Nat.Bitwise

/-! base64url without padding, over a buffer of 32 bits that is never masked.  The decoder skips `=` and the ends
of lines; apart from them it accepts exactly what the encoder writes. -/

namespace CyberAccountant.Security.Base64

open CyberAccountant.Library

abbrev Bytes : Type := List UInt8

/-- The bytes of a text in ASCII. -/
def ascii (text : String) : Bytes := text.toList.map fun c => UInt8.ofNat c.toNat

def alpha : Bytes := ascii "ABCDEFGHIJKLMNOPQRSTUVWXYZabcdefghijklmnopqrstuvwxyz0123456789-_"

/-- The character of a digit. -/
def charOf (digit : Nat) : UInt8 := alpha.getD digit 0

/-- The digit of a character, as in the table. -/
def digitOf (c : UInt8) : Option Nat := alpha.idxOf? c

/-- Shifts `v` into the buffer. -/
def shiftIn (buf k v : Nat) : Nat := (buf <<< k % 2 ^ 32) ||| v

/-! ### The encoder -/

structure Encoder where
  out : Bytes
  buf : Nat
  bits : Nat

/-- Writes the whole digits that are there. -/
def drain (buf : Nat) : Nat → Bytes → Bytes × Nat
  | bits + 6, out => drain buf bits (out ++ [charOf (buf >>> bits &&& 0x3F)])
  | bits, out => (out, bits)

def encodeByte (st : Encoder) (c : UInt8) : Encoder :=
  let buf := shiftIn st.buf 8 c.toNat
  let (out, bits) := drain buf (st.bits + 8) st.out
  ⟨out, buf, bits⟩

def Encoder.finish (st : Encoder) : Bytes :=
  if 0 < st.bits then st.out ++ [charOf (st.buf <<< (6 - st.bits) % 2 ^ 32 &&& 0x3F)] else st.out

def urlEncode (bytes : Bytes) : Bytes := (bytes.foldl encodeByte ⟨[], 0, 0⟩).finish

/-! ### The decoder -/

structure Decoder where
  out : Bytes
  buf : Nat
  bits : Nat
  ndigits : Nat

def skipped (c : UInt8) : Bool := c = 61 || c = 10 || c = 13

def Decoder.push (st : Decoder) (v : Nat) : Decoder :=
  let buf := shiftIn st.buf 6 v
  let bits := st.bits + 6
  if 8 ≤ bits then ⟨st.out ++ [UInt8.ofNat (buf >>> (bits - 8) &&& 0xFF)], buf, bits - 8, st.ndigits + 1⟩
  else ⟨st.out, buf, bits, st.ndigits + 1⟩

def decodeChar (st : Decoder) (c : UInt8) : Except String Decoder :=
  if skipped c then .ok st
  else
    match digitOf c with
    | none => .error "invalid base64url"
    | some v => .ok (st.push v)

def Decoder.finish (st : Decoder) : Except String Bytes :=
  if st.ndigits % 4 = 1 then .error "invalid base64url length"
  else if 0 < st.bits ∧ st.buf &&& (1 <<< st.bits - 1) ≠ 0 then .error "invalid base64url padding bits"
  else .ok st.out

def urlDecode (text : Bytes) : Except String Bytes := do
  let st ← text.foldlM decodeChar ⟨[], 0, 0, 0⟩
  st.finish

/-! ### Digits and characters -/

/-- Every digit has a character of its own, which is not skipped. -/
theorem digitOf_charOf : ∀ d < 64, digitOf (charOf d) = some d ∧ skipped (charOf d) = false := by decide

theorem charOf_digitOf {c : UInt8} {d : Nat} (h : digitOf c = some d) : d < 64 ∧ charOf d = c := by
  obtain ⟨hLt, hHere, -⟩ := List.idxOf?_eq_some_iff.mp h
  have hLength : alpha.length = 64 := by decide
  exact ⟨hLength ▸ hLt, (List.getD_eq_getElem _ _ hLt).trans hHere⟩

/-! ### The buffer -/

theorem shiftIn_eq {k v : Nat} (hk : k ≤ 32) (hv : v < 2 ^ k) (buf : Nat) :
    shiftIn buf k v = buf * 2 ^ k % 2 ^ 32 + v := by
  obtain ⟨j, hj⟩ := Nat.exists_eq_add_of_le' hk
  have hShift : buf * 2 ^ k % 2 ^ 32 = (buf % 2 ^ j) <<< k := by
    rw [hj, Nat.pow_add, Nat.mul_mod_mul_right, Nat.shiftLeft_eq]
  rw [shiftIn, Nat.shiftLeft_eq, hShift, Nat.shiftLeft_add_eq_or_of_lt hv]

theorem shiftIn_byte (buf : Nat) (c : UInt8) : shiftIn buf 8 c.toNat = buf * 256 % 2 ^ 32 + c.toNat :=
  shiftIn_eq (by decide) c.toNat_lt buf

theorem shiftIn_digit {v : Nat} (hv : v < 64) (buf : Nat) : shiftIn buf 6 v = buf * 64 % 2 ^ 32 + v :=
  shiftIn_eq (by decide) hv buf

theorem digit_bits (n k : Nat) : n >>> k &&& 0x3F = n / 2 ^ k % 64 := by
  rw [Nat.shiftRight_eq_div_pow]
  exact Nat.and_two_pow_sub_one_eq_mod _ 6

theorem byte_bits (n k : Nat) : n >>> k &&& 0xFF = n / 2 ^ k % 256 := by
  rw [Nat.shiftRight_eq_div_pow]
  exact Nat.and_two_pow_sub_one_eq_mod _ 8

/-! ### The encoder by groups -/

section

variable (out : Bytes) (buf : Nat) (c : UInt8)

theorem encodeByte_zero : ∃ buf', buf' % 4 = c.toNat % 4 ∧
    encodeByte ⟨out, buf, 0⟩ c = ⟨out ++ [charOf (c.toNat / 4)], buf', 2⟩ := by
  have hc := c.toNat_lt
  refine ⟨shiftIn buf 8 c.toNat, ?_, ?_⟩
  · rw [shiftIn_byte]
    omega
  · have hDigit : shiftIn buf 8 c.toNat >>> 2 &&& 0x3F = c.toNat / 4 := by
      rw [digit_bits, shiftIn_byte]
      omega
    rw [← hDigit]
    rfl

theorem encodeByte_two : ∃ buf', buf' % 16 = c.toNat % 16 ∧
    encodeByte ⟨out, buf, 2⟩ c = ⟨out ++ [charOf (buf % 4 * 16 + c.toNat / 16)], buf', 4⟩ := by
  have hc := c.toNat_lt
  refine ⟨shiftIn buf 8 c.toNat, ?_, ?_⟩
  · rw [shiftIn_byte]
    omega
  · have hDigit : shiftIn buf 8 c.toNat >>> 4 &&& 0x3F = buf % 4 * 16 + c.toNat / 16 := by
      rw [digit_bits, shiftIn_byte]
      omega
    rw [← hDigit]
    rfl

theorem encodeByte_four : ∃ buf',
    encodeByte ⟨out, buf, 4⟩ c = ⟨out ++ [charOf (buf % 16 * 4 + c.toNat / 64), charOf (c.toNat % 64)], buf', 0⟩ := by
  have hc := c.toNat_lt
  refine ⟨shiftIn buf 8 c.toNat, ?_⟩
  have hHigh : shiftIn buf 8 c.toNat >>> 6 &&& 0x3F = buf % 16 * 4 + c.toNat / 64 := by
    rw [digit_bits, shiftIn_byte]
    omega
  have hLow : shiftIn buf 8 c.toNat >>> 0 &&& 0x3F = c.toNat % 64 := by
    rw [digit_bits, shiftIn_byte]
    omega
  rw [← hHigh, ← hLow, List.append_cons]
  rfl

theorem finish_two : (Encoder.mk out buf 2).finish = out ++ [charOf (buf % 4 * 16)] := by
  have hDigit : buf <<< 4 % 2 ^ 32 &&& 0x3F = buf % 4 * 16 := by
    rw [Nat.shiftLeft_eq, ← Nat.shiftRight_zero (n := buf * 2 ^ 4 % 2 ^ 32), digit_bits]
    omega
  rw [← hDigit]
  rfl

theorem finish_four : (Encoder.mk out buf 4).finish = out ++ [charOf (buf % 16 * 4)] := by
  have hDigit : buf <<< 2 % 2 ^ 32 &&& 0x3F = buf % 16 * 4 := by
    rw [Nat.shiftLeft_eq, ← Nat.shiftRight_zero (n := buf * 2 ^ 2 % 2 ^ 32), digit_bits]
    omega
  rw [← hDigit]
  rfl

end

/-- The loop of the encoder, from the start of a group on. -/
theorem foldl_encodeByte (bytes : Bytes) (out : Bytes) (buf : Nat) :
    (bytes.foldl encodeByte ⟨out, buf, 0⟩).finish = out ++ (Radix64.toDigits (bytes.map UInt8.toNat)).map charOf := by
  match bytes with
  | [] => exact (List.append_nil out).symm
  | [a] =>
    obtain ⟨buf', hLeft, hStep⟩ := encodeByte_zero out buf a
    rw [List.foldl_cons, hStep, List.foldl_nil, finish_two, hLeft, List.append_assoc]
    rfl
  | [a, b] =>
    obtain ⟨buf₁, hLeft₁, hStep₁⟩ := encodeByte_zero out buf a
    obtain ⟨buf₂, hLeft₂, hStep₂⟩ := encodeByte_two (out ++ [charOf (a.toNat / 4)]) buf₁ b
    rw [List.foldl_cons, List.foldl_cons, hStep₁, hStep₂, List.foldl_nil, finish_four, hLeft₁, hLeft₂]
    simp [Radix64.toDigits]
  | a :: b :: c :: rest =>
    obtain ⟨buf₁, hLeft₁, hStep₁⟩ := encodeByte_zero out buf a
    obtain ⟨buf₂, hLeft₂, hStep₂⟩ := encodeByte_two (out ++ [charOf (a.toNat / 4)]) buf₁ b
    rw [List.foldl_cons, List.foldl_cons, List.foldl_cons, hStep₁, hStep₂, hLeft₁]
    obtain ⟨buf₃, hStep₃⟩ :=
      encodeByte_four (out ++ [charOf (a.toNat / 4)] ++ [charOf (a.toNat % 4 * 16 + b.toNat / 16)]) buf₂ c
    rw [hStep₃, foldl_encodeByte rest, hLeft₂]
    simp [Radix64.toDigits]

theorem urlEncode_eq (bytes : Bytes) : urlEncode bytes = (Radix64.toDigits (bytes.map UInt8.toNat)).map charOf :=
  foldl_encodeByte bytes [] 0

/-! ### The decoder by groups -/

section

variable (out : Bytes) (buf n : Nat) {v : Nat}

theorem push_zero (hv : v < 64) : ∃ buf', buf' % 64 = v ∧ (Decoder.mk out buf 0 n).push v = ⟨out, buf', 6, n + 1⟩ := by
  refine ⟨shiftIn buf 6 v, ?_, rfl⟩
  rw [shiftIn_digit hv]
  omega

theorem push_six (hv : v < 64) : ∃ buf', buf' % 16 = v % 16 ∧
    (Decoder.mk out buf 6 n).push v = ⟨out ++ [UInt8.ofNat (buf % 64 * 4 + v / 16)], buf', 4, n + 1⟩ := by
  refine ⟨shiftIn buf 6 v, ?_, ?_⟩
  · rw [shiftIn_digit hv]
    omega
  · have hByte : shiftIn buf 6 v >>> 4 &&& 0xFF = buf % 64 * 4 + v / 16 := by
      rw [byte_bits, shiftIn_digit hv]
      omega
    rw [← hByte]
    rfl

theorem push_four (hv : v < 64) : ∃ buf', buf' % 4 = v % 4 ∧
    (Decoder.mk out buf 4 n).push v = ⟨out ++ [UInt8.ofNat (buf % 16 * 16 + v / 4)], buf', 2, n + 1⟩ := by
  refine ⟨shiftIn buf 6 v, ?_, ?_⟩
  · rw [shiftIn_digit hv]
    omega
  · have hByte : shiftIn buf 6 v >>> 2 &&& 0xFF = buf % 16 * 16 + v / 4 := by
      rw [byte_bits, shiftIn_digit hv]
      omega
    rw [← hByte]
    rfl

theorem push_two (hv : v < 64) : ∃ buf',
    (Decoder.mk out buf 2 n).push v = ⟨out ++ [UInt8.ofNat (buf % 4 * 64 + v)], buf', 0, n + 1⟩ := by
  refine ⟨shiftIn buf 6 v, ?_⟩
  have hByte : shiftIn buf 6 v >>> 0 &&& 0xFF = buf % 4 * 64 + v := by
    rw [byte_bits, shiftIn_digit hv]
    omega
  rw [← hByte]
  rfl

theorem finish_bits (bits : Nat) (hn : n % 4 ≠ 1) :
    (Decoder.mk out buf bits n).finish.toOption = if buf % 2 ^ bits = 0 then some out else none := by
  have hMask : buf &&& (1 <<< bits - 1) = buf % 2 ^ bits := by
    rw [Nat.one_shiftLeft]
    exact Nat.and_two_pow_sub_one_eq_mod buf bits
  rw [Decoder.finish, if_neg hn, hMask]
  by_cases hZero : buf % 2 ^ bits = 0
  · rw [if_neg fun h => h.2 hZero, if_pos hZero]
    rfl
  · have hBits : 0 < bits := Nat.pos_of_ne_zero fun hEq => hZero (by rw [hEq, Nat.pow_zero, Nat.mod_one])
    rw [if_pos ⟨hBits, hZero⟩, if_neg hZero]
    rfl

end

/-- The loop of the decoder over digits, from the start of a group on. -/
theorem foldl_push (digits : List Nat) (h : ∀ d ∈ digits, d < 64) (out : Bytes) (buf n : Nat) (hn : n % 4 = 0) :
    (digits.foldl Decoder.push ⟨out, buf, 0, n⟩).finish.toOption =
      (Radix64.ofDigits digits).map fun bytes => out ++ bytes.map UInt8.ofNat := by
  match digits with
  | [] =>
    rw [List.foldl_nil, finish_bits _ _ _ _ (by omega), if_pos (by rw [Nat.pow_zero, Nat.mod_one])]
    simp [Radix64.ofDigits]
  | [a] =>
    obtain ⟨buf₁, -, hStep₁⟩ := push_zero out buf n (h a (by simp))
    rw [List.foldl_cons, hStep₁, List.foldl_nil, Decoder.finish, if_pos (show (n + 1) % 4 = 1 by omega)]
    rfl
  | [a, b] =>
    obtain ⟨buf₁, hLeft₁, hStep₁⟩ := push_zero out buf n (h a (by simp))
    obtain ⟨buf₂, hLeft₂, hStep₂⟩ := push_six out buf₁ (n + 1) (h b (by simp))
    rw [List.foldl_cons, List.foldl_cons, hStep₁, hStep₂, List.foldl_nil, finish_bits _ _ _ _ (by omega), hLeft₁,
      show buf₂ % 2 ^ 4 = b % 16 from hLeft₂, Radix64.ofDigits]
    split <;> rfl
  | [a, b, c] =>
    obtain ⟨buf₁, hLeft₁, hStep₁⟩ := push_zero out buf n (h a (by simp))
    obtain ⟨buf₂, hLeft₂, hStep₂⟩ := push_six out buf₁ (n + 1) (h b (by simp))
    rw [List.foldl_cons, List.foldl_cons, hStep₁, hStep₂, hLeft₁]
    obtain ⟨buf₃, hLeft₃, hStep₃⟩ := push_four (out ++ [UInt8.ofNat (a * 4 + b / 16)]) buf₂ (n + 1 + 1) (h c (by simp))
    rw [List.foldl_cons, hStep₃, List.foldl_nil, finish_bits _ _ _ _ (by omega), hLeft₂,
      show buf₃ % 2 ^ 2 = c % 4 from hLeft₃, Radix64.ofDigits]
    by_cases hZero : c % 4 = 0
    · rw [if_pos hZero, if_pos hZero]
      simp
    · rw [if_neg hZero, if_neg hZero]
      rfl
  | a :: b :: c :: d :: rest =>
    obtain ⟨buf₁, hLeft₁, hStep₁⟩ := push_zero out buf n (h a (by simp))
    obtain ⟨buf₂, hLeft₂, hStep₂⟩ := push_six out buf₁ (n + 1) (h b (by simp))
    rw [List.foldl_cons, List.foldl_cons, hStep₁, hStep₂, hLeft₁]
    obtain ⟨buf₃, hLeft₃, hStep₃⟩ := push_four (out ++ [UInt8.ofNat (a * 4 + b / 16)]) buf₂ (n + 1 + 1) (h c (by simp))
    rw [List.foldl_cons, hStep₃, hLeft₂]
    obtain ⟨buf₄, hStep₄⟩ :=
      push_two (out ++ [UInt8.ofNat (a * 4 + b / 16)] ++ [UInt8.ofNat (b % 16 * 16 + c / 4)]) buf₃
        (n + 1 + 1 + 1) (h d (by simp))
    rw [List.foldl_cons, hStep₄, foldl_push rest (fun d hd => h d (by simp [hd])) _ _ _ (by omega), hLeft₃,
      Radix64.ofDigits, Option.map_map]
    congr 1
    funext bytes
    simp

/-- What is left once the characters that the decoder skips are gone. -/
def strip (text : Bytes) : Bytes := text.filter fun c => !skipped c

theorem foldlM_decodeChar (text : Bytes) (st st' : Decoder) :
    text.foldlM decodeChar st = .ok st' ↔
      ∃ digits : List Nat, (∀ d ∈ digits, d < 64) ∧ strip text = digits.map charOf ∧
        digits.foldl Decoder.push st = st' := by
  induction text generalizing st with
  | nil =>
    constructor
    · intro h
      cases h
      exact ⟨[], nofun, rfl, rfl⟩
    · rintro ⟨digits, -, hStrip, rfl⟩
      obtain rfl : digits = [] := List.map_eq_nil_iff.mp hStrip.symm
      rfl
  | cons c text ih =>
    rw [List.foldlM_cons, decodeChar]
    cases hSkipped : skipped c with
    | true =>
      rw [show strip (c :: text) = strip text from List.filter_cons_of_neg (by simp [hSkipped])]
      exact ih st
    | false =>
      rw [show strip (c :: text) = c :: strip text from List.filter_cons_of_pos (by simp [hSkipped])]
      cases hDigit : digitOf c with
      | none =>
        refine iff_of_false nofun ?_
        rintro ⟨digits, hLt, hStrip, -⟩
        obtain ⟨d, rest, rfl, rfl, -⟩ := List.map_eq_cons_iff.mp hStrip.symm
        rw [(digitOf_charOf d (hLt d (by simp))).1] at hDigit
        cases hDigit
      | some v =>
        obtain ⟨hLt, hChar⟩ := charOf_digitOf hDigit
        refine (ih (st.push v)).trans ⟨?_, ?_⟩
        · rintro ⟨digits, hDigits, hStrip, hEnd⟩
          refine ⟨v :: digits, ?_, ?_, hEnd⟩
          · simpa using ⟨hLt, hDigits⟩
          · rw [hStrip, List.map_cons, hChar]
        · rintro ⟨digits, hDigits, hStrip, hEnd⟩
          obtain ⟨d, rest, rfl, hHere, hRest⟩ := List.map_eq_cons_iff.mp hStrip.symm
          have hSame := (digitOf_charOf d (hDigits d (by simp))).1
          rw [hHere, hDigit] at hSame
          cases hSame
          exact ⟨rest, fun d hd => hDigits d (by simp [hd]), hRest.symm, hEnd⟩

theorem toNat_ofNat_map {bytes : List Nat} (h : ∀ b ∈ bytes, b < 256) :
    (bytes.map UInt8.ofNat).map UInt8.toNat = bytes := by
  rw [List.map_map]
  refine (List.map_congr_left fun b hb => ?_).trans (List.map_id bytes)
  exact UInt8.toNat_ofNat_of_lt' (h b hb)

theorem ofNat_toNat_map (bytes : Bytes) : (bytes.map UInt8.toNat).map UInt8.ofNat = bytes := by
  rw [List.map_map]
  refine (List.map_congr_left fun b _ => ?_).trans (List.map_id bytes)
  exact UInt8.ofNat_toNat

theorem toNat_map_lt (bytes : Bytes) : ∀ b ∈ bytes.map UInt8.toNat, b < 256 := by
  intro b hb
  obtain ⟨c, -, rfl⟩ := List.mem_map.mp hb
  exact c.toNat_lt

theorem toOption_eq_some {α : Type} {x : Except String α} {a : α} : x.toOption = some a ↔ x = .ok a := by
  cases x <;> simp [Except.toOption]

/-- The decoder accepts a text exactly when it is the encoding of the bytes, apart from what is skipped. -/
theorem urlDecode_eq_ok {text bytes : Bytes} : urlDecode text = .ok bytes ↔ strip text = urlEncode bytes := by
  rw [urlEncode_eq]
  constructor
  · intro h
    cases hLoop : text.foldlM decodeChar ⟨[], 0, 0, 0⟩ with
    | error e =>
      rw [urlDecode, hLoop] at h
      cases h
    | ok st =>
      obtain ⟨digits, hLt, hStrip, rfl⟩ := (foldlM_decodeChar text _ _).mp hLoop
      have hFinish : (digits.foldl Decoder.push ⟨[], 0, 0, 0⟩).finish = .ok bytes := by
        rw [urlDecode, hLoop] at h
        exact h
      rw [← toOption_eq_some, foldl_push digits hLt [] 0 0 rfl] at hFinish
      obtain ⟨groups, hGroups, rfl⟩ := Option.map_eq_some_iff.mp hFinish
      obtain ⟨hBytes, hDigits⟩ := Radix64.toDigits_ofDigits hLt hGroups
      rw [List.nil_append, toNat_ofNat_map hBytes, hDigits, hStrip]
  · intro h
    have hLt := Radix64.toDigits_lt (toNat_map_lt bytes)
    have hLoop := (foldlM_decodeChar text ⟨[], 0, 0, 0⟩ _).mpr ⟨_, hLt, h, rfl⟩
    have hFinish := foldl_push _ hLt [] 0 0 rfl
    rw [Radix64.ofDigits_toDigits (toNat_map_lt bytes), Option.map_some, ofNat_toNat_map, toOption_eq_some] at hFinish
    rw [urlDecode, hLoop]
    exact hFinish

theorem strip_urlEncode (bytes : Bytes) : strip (urlEncode bytes) = urlEncode bytes := by
  rw [urlEncode_eq, strip, List.filter_eq_self]
  intro c hc
  obtain ⟨d, hd, rfl⟩ := List.mem_map.mp hc
  rw [(digitOf_charOf d (Radix64.toDigits_lt (toNat_map_lt bytes) d hd)).2]
  rfl

@[simp] theorem urlDecode_urlEncode (bytes : Bytes) : urlDecode (urlEncode bytes) = .ok bytes :=
  urlDecode_eq_ok.mpr (strip_urlEncode bytes)

/-! ### The codec on its alphabet -/

/-- The texts over the alphabet. -/
abbrev AlphaText : Type := { text : Bytes // ∀ c ∈ text, c ∈ alpha }

theorem not_skipped_of_mem_alpha {c : UInt8} (hc : c ∈ alpha) : skipped c = false := by
  have hAll : alpha.all (fun c => !skipped c) = true := by decide
  simpa using List.all_eq_true.mp hAll c hc

theorem AlphaText.strip_eq (text : AlphaText) : strip text.val = text.val := by
  rw [strip, List.filter_eq_self]
  intro c hc
  rw [not_skipped_of_mem_alpha (text.property c hc)]
  rfl

theorem charOf_mem_alpha : ∀ d < 64, charOf d ∈ alpha := by decide

def encodeText (bytes : Bytes) : AlphaText :=
  ⟨urlEncode bytes, fun c hc => by
    rw [urlEncode_eq] at hc
    obtain ⟨d, hd, rfl⟩ := List.mem_map.mp hc
    exact charOf_mem_alpha d (Radix64.toDigits_lt (toNat_map_lt bytes) d hd)⟩

/-- Nothing is skipped in a text over the alphabet: it is decoded only if it is the encoding. -/
theorem AlphaText.urlDecode_eq_ok (text : AlphaText) (bytes : Bytes) :
    urlDecode text.val = .ok bytes ↔ text.val = urlEncode bytes := by
  rw [Base64.urlDecode_eq_ok, text.strip_eq]

/-- What is encoded is decoded to the same bytes, and over the alphabet a text that is decoded is the encoding of its
bytes: the decoder is injective there and accepts the encodings and nothing else. -/
theorem codec_canonical :
    (∀ bytes : Bytes, urlDecode (urlEncode bytes) = .ok bytes) ∧
      (∀ (text : AlphaText) (bytes : Bytes), urlDecode text.val = .ok bytes → text.val = urlEncode bytes) ∧
      (∀ (text text' : AlphaText) (bytes : Bytes),
        urlDecode text.val = .ok bytes → urlDecode text'.val = .ok bytes → text = text') ∧
      ∀ text : AlphaText, (∃ bytes, urlDecode text.val = .ok bytes) ↔ ∃ bytes, text = encodeText bytes := by
  refine ⟨urlDecode_urlEncode, fun text bytes => (text.urlDecode_eq_ok bytes).mp, ?_, ?_⟩
  · intro text text' bytes h h'
    apply Subtype.ext
    rw [(text.urlDecode_eq_ok bytes).mp h, (text'.urlDecode_eq_ok bytes).mp h']
  · intro text
    constructor
    · rintro ⟨bytes, h⟩
      exact ⟨bytes, Subtype.ext ((text.urlDecode_eq_ok bytes).mp h)⟩
    · rintro ⟨bytes, rfl⟩
      exact ⟨bytes, urlDecode_urlEncode bytes⟩

end CyberAccountant.Security.Base64
