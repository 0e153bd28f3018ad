import Mathlib.Data.List.Basic

/-! The bytes of a text.  A character of ASCII is one byte, every other is bytes above them, so that a
search for ASCII in the bytes finds what a search in the text does. -/

namespace CyberAccountant.Library

/-- The bytes of a sequence of characters in UTF-8. -/
def utf8 (cs : List Char) : List UInt8 := cs.flatMap String.utf8EncodeChar

/-- The byte of a character of ASCII. -/
def byteOf (c : Char) : UInt8 := UInt8.ofNat c.toNat

@[simp] theorem utf8_nil : utf8 [] = [] := rfl

theorem utf8_cons (c : Char) (cs : List Char) : utf8 (c :: cs) = String.utf8EncodeChar c ++ utf8 cs := rfl

@[simp] theorem utf8_append (xs ys : List Char) : utf8 (xs ++ ys) = utf8 xs ++ utf8 ys := List.flatMap_append

theorem utf8_toList (s : String) : utf8 s.toList = s.toByteArray.data.toList := by
  rw [← String.utf8Encode_toList, List.utf8Encode, List.toList_data_toByteArray]
  rfl

@[simp] theorem utf8_eq_nil {cs : List Char} : utf8 cs = [] ↔ cs = [] := by
  cases cs with
  | nil => simp
  | cons c cs => simp [utf8_cons, String.utf8EncodeChar_ne_nil]

theorem utf8EncodeChar_ascii {c : Char} (h : c.toNat < 128) : String.utf8EncodeChar c = [byteOf c] := by
  have hByte : c.val.toNat ≤ 127 := Nat.le_of_lt_succ h
  exact if_pos hByte

/-- A character outside ASCII has no byte of ASCII. -/
theorem utf8EncodeChar_high {c : Char} (h : 128 ≤ c.toNat) : ∀ b ∈ String.utf8EncodeChar c, 128 ≤ b.toNat := by
  have hByte : ¬c.val.toNat ≤ 127 := Nat.not_le.mpr h
  have hMark : ∀ v k m : Nat, 128 ≤ m → m + k ≤ 256 → 0 < k → 128 ≤ (UInt8.ofNat (v % k + m)).toNat := by
    intro v k m hLow hHigh hPos
    have hMod : v % k < k := Nat.mod_lt v hPos
    rw [UInt8.toNat_ofNat', Nat.mod_eq_of_lt (show v % k + m < 2 ^ 8 by omega)]
    omega
  intro b hb
  simp only [String.utf8EncodeChar, hByte, if_false] at hb
  split_ifs at hb <;> simp only [List.mem_cons, List.not_mem_nil, or_false] at hb
  · rcases hb with rfl | rfl <;> exact hMark _ _ _ (by decide) (by decide) (by decide)
  · rcases hb with rfl | rfl | rfl <;> exact hMark _ _ _ (by decide) (by decide) (by decide)
  · rcases hb with rfl | rfl | rfl | rfl <;> exact hMark _ _ _ (by decide) (by decide) (by decide)

theorem byteOf_toNat {c : Char} (h : c.toNat < 128) : (byteOf c).toNat = c.toNat := by
  rw [byteOf, UInt8.toNat_ofNat', Nat.mod_eq_of_lt (show c.toNat < 2 ^ 8 by omega)]

theorem byteOf_inj {c d : Char} (hc : c.toNat < 128) (hd : d.toNat < 128) (h : byteOf c = byteOf d) : c = d := by
  have hNat := congrArg UInt8.toNat h
  rw [byteOf_toNat hc, byteOf_toNat hd] at hNat
  exact Char.toNat_inj.mp hNat

section Ascii

variable {d : Char} (hd : d.toNat < 128)

include hd

/-- The byte of `d` is among the bytes of `c` exactly if `c` is `d`. -/
theorem byteOf_mem_utf8EncodeChar {c : Char} : byteOf d ∈ String.utf8EncodeChar c ↔ c = d := by
  by_cases hc : c.toNat < 128
  · rw [utf8EncodeChar_ascii hc, List.mem_singleton]
    constructor
    · intro h
      exact (byteOf_inj hd hc h).symm
    · rintro rfl
      rfl
  · constructor
    · intro h
      have hHigh := utf8EncodeChar_high (Nat.le_of_not_lt hc) _ h
      rw [byteOf_toNat hd] at hHigh
      omega
    · rintro rfl
      exact absurd hd hc

theorem byteOf_mem_utf8 {cs : List Char} : byteOf d ∈ utf8 cs ↔ d ∈ cs := by
  simp only [utf8, List.mem_flatMap, byteOf_mem_utf8EncodeChar hd, exists_eq_right]

/-- Up to the first `d`. -/
theorem utf8_takeWhile (cs : List Char) :
    (utf8 cs).takeWhile (· != byteOf d) = utf8 (cs.takeWhile (· != d)) := by
  induction cs with
  | nil => rfl
  | cons c cs ih =>
    rw [utf8_cons]
    by_cases hc : c = d
    · subst hc
      rw [utf8EncodeChar_ascii hd]
      simp
    · have hNone : ∀ b ∈ String.utf8EncodeChar c, (b != byteOf d) = true := by
        intro b hb
        rw [bne_iff_ne]
        rintro rfl
        exact hc ((byteOf_mem_utf8EncodeChar hd).mp hb)
      rw [List.takeWhile_append_of_pos hNone, ih, List.takeWhile_cons_of_pos (by simpa using hc), utf8_cons]

/-- From the first `d` on. -/
theorem utf8_dropWhile (cs : List Char) :
    (utf8 cs).dropWhile (· != byteOf d) = utf8 (cs.dropWhile (· != d)) := by
  have hSplit := List.takeWhile_append_dropWhile (p := (· != byteOf d)) (l := utf8 cs)
  have hChars := congrArg utf8 (List.takeWhile_append_dropWhile (p := (· != d)) (l := cs))
  rw [utf8_append] at hChars
  rw [utf8_takeWhile hd] at hSplit
  exact List.append_cancel_left (hSplit.trans hChars.symm)

end Ascii

/-- A check that no byte or character outside ASCII passes is the same on the bytes as on the text. -/
theorem utf8_all {p : UInt8 → Bool} {q : Char → Bool} (hAscii : ∀ c : Char, c.toNat < 128 → p (byteOf c) = q c)
    (hByte : ∀ b : UInt8, 128 ≤ b.toNat → p b = false) (hChar : ∀ c : Char, 128 ≤ c.toNat → q c = false)
    (cs : List Char) : (utf8 cs).all p = cs.all q := by
  induction cs with
  | nil => rfl
  | cons c cs ih =>
    rw [utf8_cons, List.all_append, ih, List.all_cons]
    congr 1
    by_cases hc : c.toNat < 128
    · rw [utf8EncodeChar_ascii hc]
      simp [hAscii c hc]
    · have hHigh := Nat.le_of_not_lt hc
      obtain ⟨b, rest, hBytes⟩ := List.exists_cons_of_ne_nil (String.utf8EncodeChar_ne_nil (c := c))
      have hFirst := utf8EncodeChar_high hHigh b (by simp [hBytes])
      rw [hBytes, List.all_cons, hByte b hFirst, hChar c hHigh]
      rfl

end CyberAccountant.Library
