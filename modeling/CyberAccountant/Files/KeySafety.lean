import CyberAccountant.Files.FileKeys
import CyberAccountant.Library.Paths
import CyberAccountant.Library.Utf8
import Mathlib.Tactic.Common

/-! Which keys stay in the tree of their organisation and are accepted by the storage.  The sanitizer lets
dots pass; the storage refuses two of them next to each other. -/

namespace CyberAccountant.Files

open CyberAccountant.Library CyberAccountant.Library.Path CyberAccountant.Ledger

/-! ### The keys as bytes -/

/-- The bytes that `sanitize_filename` leaves alone. -/
def isSafeByte (b : UInt8) : Bool :=
  (65 ≤ b.toNat && b.toNat ≤ 90) || (97 ≤ b.toNat && b.toNat ≤ 122) || (48 ≤ b.toNat && b.toNat ≤ 57) ||
    b = dot || b = 95 || b = 45

def sanitizeByte (b : UInt8) : UInt8 := if isSafeByte b then b else 95

def sanitizeBytes (filename : List UInt8) : List UInt8 :=
  if filename = [] then utf8 "file".toList else filename.map sanitizeByte

/-- The tree of all organisations. -/
def root : List UInt8 := utf8 "org".toList

/-- `uuid` is the one that the call draws. -/
def orgKeyBytes (org kind uuid filename : List UInt8) : List UInt8 :=
  root ++ slash :: org ++ slash :: kind ++ slash :: uuid ++ 45 :: sanitizeBytes filename

def versionKeyBytes (org kind version filename : List UInt8) : List UInt8 :=
  root ++ slash :: sanitizeBytes org ++ slash :: sanitizeBytes kind ++ slash :: sanitizeBytes version ++
    slash :: sanitizeBytes filename

/-- `Storage::key_is_safe`. -/
def keyIsSafe (key : List UInt8) : Bool :=
  if key = [] ∨ key.head? = some slash ∨ key.head? = some 92 then false
  else if HasDots key then false
  else if 0 ∈ key then false
  else true

theorem isSafe_iff {c : Char} : isSafe c = true ↔
    (65 ≤ c.toNat ∧ c.toNat ≤ 90 ∨ 97 ≤ c.toNat ∧ c.toNat ≤ 122 ∨ 48 ≤ c.toNat ∧ c.toNat ≤ 57) ∨
      c = '.' ∨ c = '_' ∨ c = '-' := by
  have hAlphanum : c.isAlphanum = (decide (65 ≤ c.toNat ∧ c.toNat ≤ 90) ||
      (decide (97 ≤ c.toNat) && decide (c.toNat ≤ 122)) || (decide (48 ≤ c.toNat) && decide (c.toNat ≤ 57))) := rfl
  simp only [isSafe, hAlphanum, Bool.or_eq_true, Bool.and_eq_true, decide_eq_true_eq, or_assoc]

theorem isSafeByte_byteOf {c : Char} (h : c.toNat < 128) : isSafeByte (byteOf c) = isSafe c := by
  have hDot : byteOf c = dot ↔ c = '.' := ⟨fun hEq => byteOf_inj h (by decide) hEq, fun hEq => by rw [hEq]; rfl⟩
  have hUnder : byteOf c = 95 ↔ c = '_' := ⟨fun hEq => byteOf_inj h (by decide) hEq, fun hEq => by rw [hEq]; rfl⟩
  have hDash : byteOf c = 45 ↔ c = '-' := ⟨fun hEq => byteOf_inj h (by decide) hEq, fun hEq => by rw [hEq]; rfl⟩
  rw [Bool.eq_iff_iff, isSafe_iff]
  simp only [isSafeByte, byteOf_toNat h, hDot, hUnder, hDash, Bool.or_eq_true, Bool.and_eq_true, decide_eq_true_eq,
    or_assoc]

/-- A byte outside ASCII is replaced. -/
theorem sanitizeByte_high {b : UInt8} (h : 128 ≤ b.toNat) : sanitizeByte b = 95 := by
  have hSpecial : b ≠ dot ∧ b ≠ 95 ∧ b ≠ 45 := by
    refine ⟨?_, ?_, ?_⟩ <;> rintro rfl <;> revert h <;> decide
  have hUnsafe : isSafeByte b = false := by
    simp only [isSafeByte, hSpecial.1, hSpecial.2.1, hSpecial.2.2, decide_false, Bool.or_false,
      Bool.or_eq_false_iff, Bool.and_eq_false_iff, decide_eq_false_iff_not]
    omega
  rw [sanitizeByte, hUnsafe]
  rfl

theorem isSafe_ascii {c : Char} (h : isSafe c = true) : c.toNat < 128 := by
  rcases isSafe_iff.mp h with h | rfl | rfl | rfl
  · omega
  · decide
  · decide
  · decide

/-- On the bytes of a character the sanitizer does what it does on the character. -/
theorem utf8_sanitizeChar (c : Char) :
    utf8 (if isSafe c then [c] else List.replicate c.utf8Size '_') =
      (String.utf8EncodeChar c).map sanitizeByte := by
  have hUnder : ∀ n, utf8 (List.replicate n '_') = List.replicate n 95 := by
    intro n
    induction n with
    | zero => rfl
    | succ n ih => rw [List.replicate_succ, utf8_cons, utf8EncodeChar_ascii (by decide), ih]; rfl
  by_cases hSafe : isSafe c
  · have hAscii := isSafe_ascii hSafe
    have hByte : sanitizeByte (byteOf c) = byteOf c := if_pos (by rwa [isSafeByte_byteOf hAscii])
    rw [if_pos hSafe, utf8_cons, utf8EncodeChar_ascii hAscii, List.map_singleton, hByte]
    rfl
  · rw [if_neg hSafe, hUnder, ← String.length_utf8EncodeChar]
    refine (List.eq_replicate_iff.mpr ⟨List.length_map _, fun b hb => ?_⟩).symm
    obtain ⟨a, ha, rfl⟩ := List.mem_map.mp hb
    by_cases hAscii : c.toNat < 128
    · rw [utf8EncodeChar_ascii hAscii, List.mem_singleton] at ha
      exact if_neg (by rwa [ha, isSafeByte_byteOf hAscii])
    · exact sanitizeByte_high (utf8EncodeChar_high (Nat.le_of_not_lt hAscii) a ha)

/-- On the bytes of a text the sanitizer does what it does on the text. -/
theorem utf8_sanitizeFilename (filename : String) :
    utf8 (sanitizeFilename filename).toList = sanitizeBytes (utf8 filename.toList) := by
  unfold sanitizeFilename sanitizeBytes
  by_cases hEmpty : filename = ""
  · subst hEmpty
    rfl
  · have hSome : utf8 filename.toList ≠ [] := by
      rw [Ne, utf8_eq_nil]
      exact fun hNil => hEmpty (String.toList_eq_nil_iff.mp hNil)
    rw [if_neg hEmpty, if_neg hSome, String.toList_ofList]
    generalize filename.toList = cs
    induction cs with
    | nil => rfl
    | cons c cs ih => rw [List.flatMap_cons, utf8_append, utf8_sanitizeChar, ih, utf8_cons, List.map_append]

theorem utf8_orgKey (org kind : String) (uuid : Uuid) (filename : String) :
    utf8 (orgKey org kind uuid filename).toList =
      orgKeyBytes (utf8 org.toList) (utf8 kind.toList) (utf8 (toString uuid).toList) (utf8 filename.toList) := by
  have hSlash : utf8 "/".toList = [slash] := rfl
  have hDash : utf8 "-".toList = [45] := rfl
  have hRoot : utf8 "org/".toList = root ++ [slash] := rfl
  simp only [orgKey, String.toList_append, utf8_append, utf8_sanitizeFilename, hSlash, hDash, hRoot, orgKeyBytes,
    List.append_assoc, List.cons_append, List.nil_append]

theorem utf8_versionKey (org kind version filename : String) :
    utf8 (versionKey org kind version filename).toList =
      versionKeyBytes (utf8 org.toList) (utf8 kind.toList) (utf8 version.toList) (utf8 filename.toList) := by
  have hSlash : utf8 "/".toList = [slash] := rfl
  have hRoot : utf8 "org/".toList = root ++ [slash] := rfl
  simp only [versionKey, String.toList_append, utf8_append, utf8_sanitizeFilename, hSlash, hRoot, versionKeyBytes,
    List.append_assoc, List.cons_append, List.nil_append]

/-! ### What the sanitizer leaves -/

theorem sanitizeByte_safe (b : UInt8) : isSafeByte (sanitizeByte b) = true := by
  unfold sanitizeByte
  split_ifs with h
  · exact h
  · decide

/-- Dots stay, and nothing else becomes one. -/
theorem sanitizeByte_eq_dot {b : UInt8} : sanitizeByte b = dot ↔ b = dot := by
  unfold sanitizeByte
  split_ifs with h
  · exact Iff.rfl
  · constructor
    · intro hUnder
      exact absurd hUnder (by decide)
    · rintro rfl
      exact absurd h (by decide)

theorem map_sanitizeByte_eq_dots {n : Nat} {bytes : List UInt8} :
    bytes.map sanitizeByte = List.replicate n dot ↔ bytes = List.replicate n dot := by
  rw [List.eq_replicate_iff, List.eq_replicate_iff, List.length_map]
  simp only [List.forall_mem_map, sanitizeByte_eq_dot]

variable {filename : List UInt8}

theorem sanitizeBytes_safe : ∀ b ∈ sanitizeBytes filename, isSafeByte b = true := by
  unfold sanitizeBytes
  split_ifs
  · decide +kernel
  · exact List.forall_mem_map.mpr fun b _ => sanitizeByte_safe b

theorem sanitizeBytes_ne_nil : sanitizeBytes filename ≠ [] := by
  unfold sanitizeBytes
  split_ifs with h
  · decide
  · simpa using h

theorem sanitizeBytes_eq_dots {n : Nat} (hn : 0 < n) :
    sanitizeBytes filename = List.replicate n dot ↔ filename = List.replicate n dot := by
  unfold sanitizeBytes
  split_ifs with h
  · have hNone : List.replicate n dot ≠ [] := by simpa using hn.ne'
    subst h
    refine iff_of_false (fun hFile => ?_) (fun hNil => hNone hNil.symm)
    have hFirst : (102 : UInt8) ∈ List.replicate n dot := by rw [← hFile]; decide
    exact absurd (List.eq_of_mem_replicate hFirst) (by decide)
  · exact map_sanitizeByte_eq_dots

theorem hasDots_sanitizeBytes : HasDots (sanitizeBytes filename) ↔ HasDots filename := by
  unfold sanitizeBytes
  split_ifs with h
  · subst h
    decide
  · unfold HasDots
    rw [List.infix_map_iff]
    constructor
    · rintro ⟨part, hPart, hDots⟩
      have hMapped : part.map sanitizeByte = List.replicate 2 dot := hDots.symm
      have hSame : part = [dot, dot] := map_sanitizeByte_eq_dots.mp hMapped
      rwa [hSame] at hPart
    · intro hPart
      exact ⟨_, hPart, rfl⟩

/-! ### Usable keys -/

/-- The storage accepts the key, and it names something in the tree of `org` with the names of `tail` below. -/
structure Usable (key org : List UInt8) (tail : List (List UInt8)) : Prop where
  accepted : keyIsSafe key = true
  layout : names key = root :: org :: tail
  proper : ∀ name ∈ names key, Proper name
  below : Below [root, org] key

/-- A name as keys have it: without a slash and without a zero byte. -/
def Plain (name : List UInt8) : Prop := slash ∉ name ∧ 0 ∉ name

/-- The storage refuses of such keys those with two dots next to each other. -/
theorem keyIsSafe_join {ns : List (List UInt8)} (h : ∀ name ∈ root :: ns, Plain name) :
    keyIsSafe (join (root :: ns)) = true ↔ ∀ name ∈ ns, ¬HasDots name := by
  have hDots : HasDots (join (root :: ns)) ↔ ∃ name ∈ ns, HasDots name := by
    rw [hasDots_join, List.exists_mem_cons_iff]
    exact or_iff_right (by decide)
  have hStart : ∃ rest, join (root :: ns) = root ++ rest := by
    cases ns with
    | nil => exact ⟨[], by simp [join, List.intercalate]⟩
    | cons name ns => exact ⟨_, join_cons root name ns⟩
  have hZero : 0 ∉ join (root :: ns) := by
    rw [mem_join (by decide)]
    rintro ⟨name, hName, hMem⟩
    exact (h name hName).2 hMem
  obtain ⟨rest, hRest⟩ := hStart
  have hFirst : ¬(join (root :: ns) = [] ∨ (join (root :: ns)).head? = some slash ∨
      (join (root :: ns)).head? = some 92) := by
    rw [hRest]
    simp [root, utf8_cons, utf8EncodeChar_ascii, byteOf, slash]
  unfold keyIsSafe
  rw [if_neg hFirst]
  by_cases hAny : HasDots (join (root :: ns))
  · rw [if_pos hAny]
    obtain ⟨name, hName, hPair⟩ := hDots.mp hAny
    exact iff_of_false Bool.false_ne_true fun hNone => hNone name hName hPair
  · rw [if_neg hAny, if_neg hZero]
    exact iff_of_true rfl fun name hName hPair => hAny (hDots.mpr ⟨name, hName, hPair⟩)

/-- A key of plain names is usable if each of them is proper and has no two dots next to each other. -/
theorem usable_join {org : List UInt8} {tail : List (List UInt8)} (h : ∀ name ∈ org :: tail, Plain name)
    (hTail : tail ≠ []) :
    Usable (join (root :: org :: tail)) org tail ↔ ∀ name ∈ org :: tail, Proper name ∧ ¬HasDots name := by
  have hRoot : Plain root := ⟨by decide, by decide⟩
  have hAll := List.forall_mem_cons.mpr ⟨hRoot, h⟩
  have hSlash : ∀ name ∈ root :: org :: tail, slash ∉ name := fun name hName => (hAll name hName).1
  have hNames := names_join hSlash (List.cons_ne_nil _ _)
  constructor
  · intro hUsable name hName
    have hProper := hUsable.proper
    rw [hNames] at hProper
    exact ⟨hProper name (List.mem_cons_of_mem _ hName), (keyIsSafe_join hAll).mp hUsable.accepted name hName⟩
  · intro hGood
    have hProper : ∀ name ∈ root :: org :: tail, Proper name :=
      List.forall_mem_cons.mpr ⟨by decide, fun name hName => (hGood name hName).1⟩
    refine ⟨(keyIsSafe_join hAll).mpr fun name hName => (hGood name hName).2, hNames, by rwa [hNames], tail,
      hTail, ?_⟩
    rw [resolve_join hSlash (List.cons_ne_nil _ _) hProper]
    rfl

theorem sanitizeBytes_plain (filename : List UInt8) : Plain (sanitizeBytes filename) :=
  ⟨fun hSlash => absurd (sanitizeBytes_safe _ hSlash) (by decide),
    fun hZero => absurd (sanitizeBytes_safe _ hZero) (by decide)⟩

/-- What the sanitizer makes of a name is good unless the name is one dot or has two next to each other. -/
theorem sanitizeBytes_good :
    Proper (sanitizeBytes filename) ∧ ¬HasDots (sanitizeBytes filename) ↔ ¬HasDots filename ∧ filename ≠ [dot] := by
  have hOne : sanitizeBytes filename = [dot] ↔ filename = [dot] := sanitizeBytes_eq_dots Nat.one_pos
  rw [hasDots_sanitizeBytes]
  constructor
  · rintro ⟨⟨-, hHere, -⟩, hDots⟩
    exact ⟨hDots, fun hDot => hHere (hOne.mpr hDot)⟩
  · rintro ⟨hDots, hHere⟩
    refine ⟨⟨sanitizeBytes_ne_nil, fun hDot => hHere (hOne.mp hDot), fun hUp => hDots ?_⟩, hDots⟩
    rw [← hasDots_sanitizeBytes, hUp]
    decide

theorem versionKeyBytes_eq (org kind version filename : List UInt8) :
    versionKeyBytes org kind version filename = join (root :: sanitizeBytes org ::
      [sanitizeBytes kind, sanitizeBytes version, sanitizeBytes filename]) := by
  simp only [join_cons, versionKeyBytes, List.append_assoc, List.cons_append]
  simp [join, List.intercalate]

/-- A UUID as text: hexadecimal digits in groups of 8, 4, 4, 4 and 12 with dashes between them. -/
structure UuidText where
  bytes : List UInt8
  length : bytes.length = 36
  hexadecimal : ∀ b ∈ bytes, b = 45 ∨ 48 ≤ b.toNat ∧ b.toNat ≤ 57 ∨ 65 ≤ b.toNat ∧ b.toNat ≤ 70 ∨
    97 ≤ b.toNat ∧ b.toNat ≤ 102
  dashes : ∀ i < 36, bytes[i]? = some 45 ↔ i = 8 ∨ i = 13 ∨ i = 18 ∨ i = 23

/-- The kinds of files that stand in the tree of an organisation. -/
inductive FileKind where
  | generated
  | inbox
  | statements

def FileKind.bytes : FileKind → List UInt8
  | .generated => utf8 "generated".toList
  | .inbox => utf8 "inbox".toList
  | .statements => utf8 "statements".toList

theorem UuidText.not_mem {b : UInt8} (uuid : UuidText) (h : b.toNat < 45 ∨ b = dot ∨ b = slash) : b ∉ uuid.bytes := by
  intro hMem
  have hShape := uuid.hexadecimal b hMem
  rcases h with hLow | rfl | rfl
  · rcases hShape with rfl | hDigit | hUpper | hLower
    · revert hLow
      decide
    · omega
    · omega
    · omega
  · revert hShape
    decide
  · revert hShape
    decide

/-- Without a dot no two of them stand next to each other. -/
theorem not_hasDots {bytes : List UInt8} (h : dot ∉ bytes) : ¬HasDots bytes :=
  fun hDots => h (hDots.subset List.mem_cons_self)

theorem proper_of_no_dot {bytes : List UInt8} (hSome : bytes ≠ []) (h : dot ∉ bytes) : Proper bytes := by
  refine ⟨hSome, ?_, ?_⟩ <;> rintro rfl <;> exact h List.mem_cons_self

theorem UuidText.good (uuid : UuidText) : Plain uuid.bytes ∧ Proper uuid.bytes ∧ ¬HasDots uuid.bytes := by
  have hSome : uuid.bytes ≠ [] := by
    intro hNil
    have hLength := uuid.length
    rw [hNil] at hLength
    cases hLength
  have hDot := uuid.not_mem (.inr (.inl rfl))
  exact ⟨⟨uuid.not_mem (.inr (.inr rfl)), uuid.not_mem (.inl (by decide))⟩, proper_of_no_dot hSome hDot,
    not_hasDots hDot⟩

theorem FileKind.good (kind : FileKind) : Plain kind.bytes ∧ Proper kind.bytes ∧ ¬HasDots kind.bytes := by
  cases kind
  · exact ⟨⟨by decide, by decide⟩, by decide, by decide⟩
  · exact ⟨⟨by decide, by decide⟩, by decide, by decide⟩
  · exact ⟨⟨by decide, by decide⟩, by decide, by decide⟩

/-- The last name of an upload's key: the UUID goes before the dash, so that the name is never dots alone. -/
theorem uploadName_good (uuid : UuidText) (filename : List UInt8) :
    Plain (uuid.bytes ++ 45 :: sanitizeBytes filename) ∧ Proper (uuid.bytes ++ 45 :: sanitizeBytes filename) ∧
      (HasDots (uuid.bytes ++ 45 :: sanitizeBytes filename) ↔ HasDots filename) := by
  obtain ⟨⟨hSlash, hZero⟩, -, hNoDots⟩ := uuid.good
  obtain ⟨hSlash', hZero'⟩ := sanitizeBytes_plain filename
  have hDash : (45 : UInt8) ∈ uuid.bytes ++ 45 :: sanitizeBytes filename := by simp
  refine ⟨⟨?_, by simp [hZero, hZero']⟩, ⟨by simp, ?_, ?_⟩, ?_⟩
  · rw [List.mem_append, List.mem_cons]
    rintro (hLeft | hEq | hRight)
    · exact hSlash hLeft
    · exact absurd hEq (by decide)
    · exact hSlash' hRight
  · intro hEq
    rw [hEq] at hDash
    exact absurd hDash (by decide)
  · intro hEq
    rw [hEq] at hDash
    exact absurd hDash (by decide)
  · rw [hasDots_append_cons (by decide), hasDots_sanitizeBytes]
    exact or_iff_right hNoDots

theorem orgKeyBytes_eq (org kind uuid filename : List UInt8) :
    orgKeyBytes org kind uuid filename = join (root :: org :: [kind, uuid ++ 45 :: sanitizeBytes filename]) := by
  simp only [join_cons, orgKeyBytes, List.append_assoc, List.cons_append]
  simp [join, List.intercalate]

/-- The last part of a key is forced: it is what stands between the slashes. -/
theorem Usable.tail_eq {org org' : List UInt8} {tail tail' : List (List UInt8)}
    (h : Usable (join (root :: org :: tail)) org' tail') (hPlain : ∀ name ∈ org :: tail, Plain name) :
    org' = org ∧ tail' = tail := by
  have hSlash : ∀ name ∈ root :: org :: tail, slash ∉ name :=
    List.forall_mem_cons.mpr ⟨by decide, fun name hName => (hPlain name hName).1⟩
  have hLayout := h.layout
  rw [names_join hSlash (List.cons_ne_nil _ _)] at hLayout
  simp only [List.cons.injEq, true_and] at hLayout
  exact ⟨hLayout.1.symm, hLayout.2.symm⟩

theorem versionKey_usable (org kind version filename : List UInt8) :
    (∃ k v f, Usable (versionKeyBytes org kind version filename) (sanitizeBytes org) [k, v, f]) ↔
      ∀ part ∈ [org, kind, version, filename], ¬HasDots part ∧ part ≠ [dot] := by
  have hPlain : ∀ name ∈ [org, kind, version, filename].map sanitizeBytes, Plain name :=
    List.forall_mem_map.mpr fun part _ => sanitizeBytes_plain part
  have hUsable := usable_join hPlain (List.cons_ne_nil _ _)
  rw [versionKeyBytes_eq]
  constructor
  · rintro ⟨k, v, f, h⟩
    obtain ⟨-, hTail⟩ := h.tail_eq hPlain
    rw [hTail] at h
    intro part hPart
    exact sanitizeBytes_good.mp (hUsable.mp h _ (List.mem_map_of_mem hPart))
  · intro hGood
    refine ⟨_, _, _, hUsable.mpr fun name hName => ?_⟩
    have hMapped : name ∈ [org, kind, version, filename].map sanitizeBytes := hName
    obtain ⟨part, hPart, rfl⟩ := List.mem_map.mp hMapped
    exact sanitizeBytes_good.mpr (hGood part hPart)

theorem orgKey_usable (org uuid : UuidText) (kind : FileKind) (filename : List UInt8) :
    (∃ k f, Usable (orgKeyBytes org.bytes kind.bytes uuid.bytes filename) org.bytes [k, f]) ↔ ¬HasDots filename := by
  obtain ⟨hOrgPlain, hOrgProper, hOrgDots⟩ := org.good
  obtain ⟨hKindPlain, hKindProper, hKindDots⟩ := kind.good
  obtain ⟨hNamePlain, hNameProper, hNameDots⟩ := uploadName_good uuid filename
  have hPlain : ∀ name ∈ org.bytes :: [kind.bytes, uuid.bytes ++ 45 :: sanitizeBytes filename], Plain name := by
    simp only [List.forall_mem_cons]
    exact ⟨hOrgPlain, hKindPlain, hNamePlain, fun _ h => absurd h List.not_mem_nil⟩
  have hUsable := usable_join hPlain (List.cons_ne_nil _ _)
  rw [orgKeyBytes_eq]
  constructor
  · rintro ⟨k, f, h⟩
    obtain ⟨-, hTail⟩ := h.tail_eq hPlain
    rw [hTail] at h
    exact mt hNameDots.mpr (hUsable.mp h _ (by simp)).2
  · intro hGood
    refine ⟨_, _, hUsable.mpr ?_⟩
    simp only [List.forall_mem_cons]
    exact ⟨⟨hOrgProper, hOrgDots⟩, ⟨hKindProper, hKindDots⟩, ⟨hNameProper, mt hNameDots.mp hGood⟩,
      fun _ h => absurd h List.not_mem_nil⟩

/-- A key of a version is usable exactly if no part of it is one dot or has two dots next to each other, a
key of an upload exactly if its filename has no two dots next to each other. -/
theorem keys_usable_iff (org kind version filename : List UInt8) (orgId uuid : UuidText) (tag : FileKind) :
    ((∃ k v f, Usable (versionKeyBytes org kind version filename) (sanitizeBytes org) [k, v, f]) ↔
      ∀ part ∈ [org, kind, version, filename], ¬HasDots part ∧ part ≠ [dot]) ∧
    ((∃ k f, Usable (orgKeyBytes orgId.bytes tag.bytes uuid.bytes filename) orgId.bytes [k, f]) ↔
      ¬HasDots filename) :=
  ⟨versionKey_usable org kind version filename, orgKey_usable orgId uuid tag filename⟩

/-- The UUID of zeros. -/
def zeroUuid : UuidText where
  bytes := utf8 "00000000-0000-0000-0000-000000000000".toList
  length := by decide +kernel
  hexadecimal := by decide +kernel
  dashes := by decide +kernel

/-- An upload and a version under plain names. -/
theorem keys_usable_invoice :
    (∃ k f, Usable (orgKeyBytes zeroUuid.bytes FileKind.inbox.bytes zeroUuid.bytes (utf8 "счёт.pdf".toList))
      zeroUuid.bytes [k, f]) ∧
    ∃ k v f, Usable (versionKeyBytes zeroUuid.bytes FileKind.generated.bytes zeroUuid.bytes (utf8 "act.pdf".toList))
      (sanitizeBytes zeroUuid.bytes) [k, v, f] :=
  ⟨(keys_usable_iff [] [] [] _ zeroUuid zeroUuid .inbox).2.mpr (by decide +kernel),
    (keys_usable_iff _ _ _ _ zeroUuid zeroUuid .inbox).1.mpr (by decide +kernel)⟩

/-- The organisation `..` gives a key that leads out of the tree of organisations. -/
theorem versionKey_escapes :
    (¬((∃ o : List UInt8 → List UInt8, ∀ org kind version filename, ∃ k v f,
        Usable (versionKeyBytes org kind version filename) (o org) [k, v, f]) ∧
      ∀ (org uuid : UuidText) (kind : FileKind) filename, ∃ k f,
        Usable (orgKeyBytes org.bytes kind.bytes uuid.bytes filename) org.bytes [k, f])) ∧
    resolve (versionKeyBytes [dot, dot] (utf8 "generated".toList) (utf8 "1".toList) (utf8 "act.pdf".toList)) =
      [utf8 "generated".toList, utf8 "1".toList, utf8 "act.pdf".toList] := by
  refine ⟨?_, by decide +kernel⟩
  rintro ⟨⟨o, hAll⟩, -⟩
  obtain ⟨k, v, f, h⟩ := hAll [dot, dot] [] [] []
  have hRefused : keyIsSafe (versionKeyBytes [dot, dot] [] [] []) = false := by decide +kernel
  rw [h.accepted] at hRefused
  cases hRefused

end CyberAccountant.Files
