import Mathlib.Data.List.Basic

/-! Bytes as digits of six bits.  Three bytes are four digits; what is left of one or two bytes is filled with
zero bits.  `toDigits` and `ofDigits` are inverse to each other, and `ofDigits` accepts nothing else. -/

namespace CyberAccountant.Library.Radix64

def toDigits : List Nat → List Nat
  | [] => []
  | [a] => [a / 4, a % 4 * 16]
  | [a, b] => [a / 4, a % 4 * 16 + b / 16, b % 16 * 4]
  | a :: b :: c :: rest => a / 4 :: (a % 4 * 16 + b / 16) :: (b % 16 * 4 + c / 64) :: c % 64 :: toDigits rest

/-- A single digit holds no byte, and the bits that are filled have to be zero. -/
def ofDigits : List Nat → Option (List Nat)
  | [] => some []
  | [_] => none
  | [a, b] => if b % 16 = 0 then some [a * 4 + b / 16] else none
  | [a, b, c] => if c % 4 = 0 then some [a * 4 + b / 16, b % 16 * 16 + c / 4] else none
  | a :: b :: c :: d :: rest =>
    (ofDigits rest).map fun bytes => (a * 4 + b / 16) :: (b % 16 * 16 + c / 4) :: (c % 4 * 64 + d) :: bytes

theorem toDigits_lt {bytes : List Nat} (h : ∀ b ∈ bytes, b < 256) : ∀ d ∈ toDigits bytes, d < 64 := by
  induction bytes using toDigits.induct with
  | case1 => simp [toDigits]
  | case2 a =>
    simp only [List.forall_mem_cons] at h
    simp only [toDigits, List.forall_mem_cons]
    refine ⟨by omega, by omega, nofun⟩
  | case3 a b =>
    simp only [List.forall_mem_cons] at h
    simp only [toDigits, List.forall_mem_cons]
    refine ⟨by omega, by omega, by omega, nofun⟩
  | case4 a b c rest ih =>
    simp only [List.forall_mem_cons] at h
    simp only [toDigits, List.forall_mem_cons]
    exact ⟨by omega, by omega, by omega, by omega, ih h.2.2.2⟩

theorem ofDigits_toDigits {bytes : List Nat} (h : ∀ b ∈ bytes, b < 256) : ofDigits (toDigits bytes) = some bytes := by
  induction bytes using toDigits.induct with
  | case1 => rfl
  | case2 a =>
    have hA : a / 4 * 4 + a % 4 * 16 / 16 = a := by omega
    rw [toDigits, ofDigits, if_pos (by omega), hA]
  | case3 a b =>
    simp only [List.forall_mem_cons] at h
    have hA : a / 4 * 4 + (a % 4 * 16 + b / 16) / 16 = a := by omega
    have hB : (a % 4 * 16 + b / 16) % 16 * 16 + b % 16 * 4 / 4 = b := by omega
    rw [toDigits, ofDigits, if_pos (by omega), hA, hB]
  | case4 a b c rest ih =>
    simp only [List.forall_mem_cons] at h
    have hA : a / 4 * 4 + (a % 4 * 16 + b / 16) / 16 = a := by omega
    have hB : (a % 4 * 16 + b / 16) % 16 * 16 + (b % 16 * 4 + c / 64) / 4 = b := by omega
    have hC : (b % 16 * 4 + c / 64) % 4 * 64 + c % 64 = c := by omega
    rw [toDigits, ofDigits, ih h.2.2.2, Option.map_some, hA, hB, hC]

theorem toDigits_ofDigits {digits bytes : List Nat} (h : ∀ d ∈ digits, d < 64) (hBytes : ofDigits digits = some bytes) :
    (∀ b ∈ bytes, b < 256) ∧ toDigits bytes = digits := by
  induction digits using ofDigits.induct generalizing bytes with
  | case1 =>
    cases hBytes
    exact ⟨nofun, rfl⟩
  | case2 a => cases hBytes
  | case3 a b hZero =>
    simp only [List.forall_mem_cons] at h
    rw [ofDigits, if_pos hZero] at hBytes
    cases hBytes
    refine ⟨by simp only [List.forall_mem_cons]; exact ⟨by omega, nofun⟩, ?_⟩
    have hA : (a * 4 + b / 16) / 4 = a := by omega
    have hB : (a * 4 + b / 16) % 4 * 16 = b := by omega
    rw [toDigits, hA, hB]
  | case4 a b hZero =>
    rw [ofDigits, if_neg hZero] at hBytes
    cases hBytes
  | case5 a b c hZero =>
    simp only [List.forall_mem_cons] at h
    rw [ofDigits, if_pos hZero] at hBytes
    cases hBytes
    refine ⟨by simp only [List.forall_mem_cons]; exact ⟨by omega, by omega, nofun⟩, ?_⟩
    have hA : (a * 4 + b / 16) / 4 = a := by omega
    have hB : (a * 4 + b / 16) % 4 * 16 + (b % 16 * 16 + c / 4) / 16 = b := by omega
    have hC : (b % 16 * 16 + c / 4) % 16 * 4 = c := by omega
    rw [toDigits, hA, hB, hC]
  | case6 a b c hZero =>
    rw [ofDigits, if_neg hZero] at hBytes
    cases hBytes
  | case7 a b c d rest ih =>
    simp only [List.forall_mem_cons] at h
    rw [ofDigits] at hBytes
    obtain ⟨tail, hTail, rfl⟩ := Option.map_eq_some_iff.mp hBytes
    obtain ⟨hLt, hRest⟩ := ih h.2.2.2.2 hTail
    refine ⟨by simp only [List.forall_mem_cons]; exact ⟨by omega, by omega, by omega, hLt⟩, ?_⟩
    have hA : (a * 4 + b / 16) / 4 = a := by omega
    have hB : (a * 4 + b / 16) % 4 * 16 + (b % 16 * 16 + c / 4) / 16 = b := by omega
    have hC : (b % 16 * 16 + c / 4) % 16 * 4 + (c % 4 * 64 + d) / 64 = c := by omega
    have hD : (c % 4 * 64 + d) % 64 = d := by omega
    rw [toDigits, hA, hB, hC, hD, hRest]

end CyberAccountant.Library.Radix64
