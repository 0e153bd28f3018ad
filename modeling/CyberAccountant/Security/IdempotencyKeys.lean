import CyberAccountant.Security.SingleExecution
import Mathlib.Data.List.Basic

/-! The keys under which the idempotency hooks store responses and take locks.  They are put together
from parts that clients and administrators choose, with a colon between them, and a principal or an
`Idempotency-Key` may hold colons of its own. -/

namespace CyberAccountant.Security.Idempotency

/-- Where the text before a colon has none, it is the other text before a colon or its beginning. -/
theorem colon_cases {front rest front' rest' : List Char} (hFront : ':' ∉ front)
    (h : front ++ ':' :: rest = front' ++ ':' :: rest') :
    (front' = front ∧ rest = rest') ∨ ∃ more, front' = front ++ ':' :: more ∧ rest = more ++ ':' :: rest' := by
  rcases List.append_eq_append_iff.mp h with ⟨gap, hLong, hRest⟩ | ⟨gap, hLong, hRest⟩
  · cases gap with
    | nil => exact .inl ⟨by simpa using hLong, by simpa using hRest⟩
    | cons c more =>
      obtain ⟨rfl, hMore⟩ := List.cons.inj hRest
      exact .inr ⟨more, hLong, hMore⟩
  · cases gap with
    | nil => exact .inl ⟨by simpa using hLong.symm, by simpa using hRest.symm⟩
    | cons c more =>
      obtain ⟨rfl, -⟩ := List.cons.inj hRest
      exact absurd (by simp [hLong]) hFront

/-- The parts of a key. -/
@[ext]
structure KeyParts where
  principal : List Char
  method : List Char
  pathHash : List Char
  idemKey : List Char
  deriving DecidableEq

namespace KeyParts

def text (p : KeyParts) : List Char :=
  p.principal ++ ':' :: (p.method ++ ':' :: (p.pathHash ++ ':' :: p.idemKey))

/-- The parts of the key of the lock. -/
def lock (p : KeyParts) : KeyParts := { p with idemKey := p.idemKey ++ ":lock".toList }

/-- The other principal goes on with this one's method and path hash, and the rest of it with the
other's method, path hash and key makes up this one's key. -/
def Nested (p p' : KeyParts) : Prop :=
  ∃ more, p'.principal = p.principal ++ ':' :: (p.method ++ ':' :: (p.pathHash ++ more)) ∧
    ':' :: p.idemKey = more ++ ':' :: (p'.method ++ ':' :: (p'.pathHash ++ ':' :: p'.idemKey))

/-- The method and the hash have no colons, and no method is as long as a hash. -/
structure Plain (p : KeyParts) : Prop where
  method : ':' ∉ p.method
  pathHash : ':' ∉ p.pathHash
  short : p.method.length < 64
  digits : p.pathHash.length = 64

theorem Plain.lock {p : KeyParts} (h : p.Plain) : p.lock.Plain := ⟨h.method, h.pathHash, h.short, h.digits⟩

theorem lock_text (p : KeyParts) : p.lock.text = p.text ++ ":lock".toList := by
  simp only [KeyParts.lock, text, List.append_assoc, List.cons_append]

theorem Nested.text {p p' : KeyParts} (h : Nested p p') : p.text = p'.text := by
  obtain ⟨more, hPrincipal, hKey⟩ := h
  simp only [KeyParts.text, hPrincipal, hKey, List.append_assoc, List.cons_append]

/-- A principal that goes on after the other's is nested. -/
theorem nested_of_longer {p p' : KeyParts} {more : List Char} (hp : p.Plain) (hp' : p'.Plain)
    (hPrincipal : p'.principal = p.principal ++ ':' :: more)
    (h : p.method ++ ':' :: (p.pathHash ++ ':' :: p.idemKey) =
      more ++ ':' :: (p'.method ++ ':' :: (p'.pathHash ++ ':' :: p'.idemKey))) : Nested p p' := by
  rcases colon_cases hp.method h with ⟨-, hRest⟩ | ⟨more', hMore, hRest⟩
  · -- The other's method would be this one's hash.
    rcases colon_cases hp.pathHash hRest with ⟨hSame, -⟩ | ⟨_, hSame, -⟩
    · have := hp'.short
      rw [hSame, hp.digits] at this
      exact absurd this (Nat.lt_irrefl 64)
    · exact absurd (by simp [hSame]) hp'.method
  · rcases colon_cases hp.pathHash hRest with ⟨hHash, hKey⟩ | ⟨rest, hHash, hKey⟩
    · exact ⟨[], by rw [hPrincipal, hMore, hHash, List.append_nil], by rw [hKey]; rfl⟩
    · exact ⟨':' :: rest, by rw [hPrincipal, hMore, hHash], by rw [hKey]; rfl⟩

/-- Where one principal begins with the other, the parts are the same or nested. -/
theorem cases_of_gap {p p' : KeyParts} {gap : List Char} (hp : p.Plain) (hp' : p'.Plain)
    (hPrincipal : p'.principal = p.principal ++ gap)
    (h : ':' :: (p.method ++ ':' :: (p.pathHash ++ ':' :: p.idemKey)) =
      gap ++ ':' :: (p'.method ++ ':' :: (p'.pathHash ++ ':' :: p'.idemKey))) : p = p' ∨ Nested p p' := by
  cases gap with
  | cons c more =>
    rw [List.cons_append] at h
    obtain ⟨rfl, hRest⟩ := List.cons.inj h
    exact .inr (nested_of_longer hp hp' hPrincipal hRest)
  | nil =>
    rw [List.append_nil] at hPrincipal
    obtain ⟨-, hRest⟩ := List.cons.inj h
    rcases colon_cases hp.method hRest with ⟨hMethod, hRest⟩ | ⟨_, hMethod, -⟩
    · rcases colon_cases hp.pathHash hRest with ⟨hHash, hKey⟩ | ⟨_, hHash, -⟩
      · exact .inl (KeyParts.ext hPrincipal.symm hMethod.symm hHash.symm hKey)
      · exact absurd (by simp [hHash]) hp'.pathHash
    · exact absurd (by simp [hMethod]) hp'.method

/-- Two keys are the same text only if their parts are the same or one is nested in the other. -/
theorem text_eq_iff {p p' : KeyParts} (hp : p.Plain) (hp' : p'.Plain) :
    p.text = p'.text ↔ p = p' ∨ Nested p p' ∨ Nested p' p := by
  constructor
  · intro h
    rcases List.append_eq_append_iff.mp h with ⟨gap, hLong, hRest⟩ | ⟨gap, hLong, hRest⟩
    · exact (cases_of_gap hp hp' hLong hRest).imp_right .inl
    · exact (cases_of_gap hp' hp hLong hRest).imp Eq.symm .inr
  · rintro (rfl | h | h)
    · rfl
    · exact h.text
    · exact h.text.symm

end KeyParts

/-- What is known of SHA-256 in hexadecimal: 64 digits. -/
structure HexDigest (sha256Hex : ByteArray → String) : Prop where
  length : ∀ bytes, (sha256Hex bytes).toList.length = 64
  plain : ∀ bytes, ':' ∉ (sha256Hex bytes).toList

section

variable (sha256Hex : ByteArray → String)

def Request.keyParts (req : Request) : KeyParts :=
  ⟨req.principal.toList, req.method.text.toList, (sha256Hex req.path.toUTF8).toList, req.idempotencyKey.toList⟩

/-- Two requests that differ in principal, method, path or key. -/
def Request.Differs (req req' : Request) : Prop :=
  ¬(req.principal = req'.principal ∧ req.method = req'.method ∧ req.path = req'.path ∧
    req.idempotencyKey = req'.idempotencyKey)

/-- The entries and the locks of two requests stand under different keys, unless nothing that makes up
the keys differs; and no entry stands under a key of a lock. -/
structure KeysSeparate (req req' : Request) : Prop where
  entries : req.Differs req' → req.cacheKey sha256Hex ≠ req'.cacheKey sha256Hex
  locks : req.Differs req' → lockKey (req.cacheKey sha256Hex) ≠ lockKey (req'.cacheKey sha256Hex)
  entryLock : req.cacheKey sha256Hex ≠ lockKey (req'.cacheKey sha256Hex)
  lockEntry : req'.cacheKey sha256Hex ≠ lockKey (req.cacheKey sha256Hex)

/-- Neither is nested in the other. -/
def Unnested (p p' : KeyParts) : Prop := ¬ p.Nested p' ∧ ¬ p'.Nested p

/-- The keys of two requests cannot be taken for each other: their paths have not the same hash, neither
`Idempotency-Key` is the other with `:lock` behind it, and no principal swallows the parts after another. -/
structure Apart (req req' : Request) : Prop where
  hashes : req.keyParts sha256Hex = req'.keyParts sha256Hex → req.path = req'.path
  suffix : req.keyParts sha256Hex ≠ (req'.keyParts sha256Hex).lock
  suffix' : req'.keyParts sha256Hex ≠ (req.keyParts sha256Hex).lock
  principals : req.Differs req' → Unnested (req.keyParts sha256Hex) (req'.keyParts sha256Hex)
  principalsLock : Unnested (req.keyParts sha256Hex) (req'.keyParts sha256Hex).lock
  lockPrincipals : Unnested (req'.keyParts sha256Hex) (req.keyParts sha256Hex).lock

variable {sha256Hex} {req req' : Request}

theorem cacheKey_toList (req : Request) :
    (req.cacheKey sha256Hex).toList = "idemp:".toList ++ (req.keyParts sha256Hex).text := by
  simp only [Request.cacheKey, Idempotency.cacheKey, String.toList_append, Request.keyParts, KeyParts.text,
    List.append_assoc]
  rfl

theorem lockKey_toList (req : Request) :
    (lockKey (req.cacheKey sha256Hex)).toList = "idemp:".toList ++ (req.keyParts sha256Hex).lock.text := by
  rw [lockKey, String.toList_append, cacheKey_toList, KeyParts.lock_text, List.append_assoc]

theorem method_plain (m : Method) : ':' ∉ m.text.toList ∧ m.text.toList.length < 64 := by
  cases m <;> decide

theorem keyParts_plain (hHex : HexDigest sha256Hex) (req : Request) : (req.keyParts sha256Hex).Plain :=
  ⟨(method_plain req.method).1, hHex.plain _, (method_plain req.method).2, hHex.length _⟩

theorem Method.text_injective : Function.Injective Method.text := by
  intro m m' h
  cases m <;> cases m' <;> first | rfl | exact absurd h (by decide)

theorem keyParts_eq_iff : req.keyParts sha256Hex = req'.keyParts sha256Hex ↔
    req.principal = req'.principal ∧ req.method = req'.method ∧
      sha256Hex req.path.toUTF8 = sha256Hex req'.path.toUTF8 ∧ req.idempotencyKey = req'.idempotencyKey := by
  simp only [Request.keyParts, KeyParts.mk.injEq, String.toList_inj, Method.text_injective.eq_iff]

theorem cacheKey_eq_iff : req.cacheKey sha256Hex = req'.cacheKey sha256Hex ↔
    (req.keyParts sha256Hex).text = (req'.keyParts sha256Hex).text := by
  rw [← String.toList_inj, cacheKey_toList, cacheKey_toList, List.append_cancel_left_eq]

theorem cacheKey_eq_lockKey_iff : req.cacheKey sha256Hex = lockKey (req'.cacheKey sha256Hex) ↔
    (req.keyParts sha256Hex).text = (req'.keyParts sha256Hex).lock.text := by
  rw [← String.toList_inj, cacheKey_toList, lockKey_toList, List.append_cancel_left_eq]

theorem lockKey_inj {ck ck' : String} : lockKey ck = lockKey ck' ↔ ck = ck' := by
  rw [lockKey, lockKey, ← String.toList_inj, ← String.toList_inj, String.toList_append, String.toList_append,
    List.append_cancel_right_eq]

/-- Requests that differ have the same parts only by a collision of the hash. -/
theorem differs_of_parts (hDiffers : req.Differs req') :
    req.keyParts sha256Hex = req'.keyParts sha256Hex → req.path ≠ req'.path := fun hParts hPath =>
  hDiffers ⟨(keyParts_eq_iff.mp hParts).1, (keyParts_eq_iff.mp hParts).2.1, hPath, (keyParts_eq_iff.mp hParts).2.2.2⟩

/-- The keys of two requests are separate exactly if they cannot be taken for each other. -/
theorem keysSeparate_iff (hHex : HexDigest sha256Hex) (req req' : Request) :
    KeysSeparate sha256Hex req req' ↔ Apart sha256Hex req req' := by
  have hp := keyParts_plain hHex req
  have hp' := keyParts_plain hHex req'
  constructor
  · intro h
    have hEntryLock : ¬ _ := fun hText => h.entryLock (cacheKey_eq_lockKey_iff.mpr hText)
    have hLockEntry : ¬ _ := fun hText => h.lockEntry (cacheKey_eq_lockKey_iff.mpr hText)
    rw [KeyParts.text_eq_iff hp hp'.lock, not_or, not_or] at hEntryLock
    rw [KeyParts.text_eq_iff hp' hp.lock, not_or, not_or] at hLockEntry
    refine ⟨fun hParts => ?_, hEntryLock.1, hLockEntry.1, fun hDiffers => ?_, hEntryLock.2, hLockEntry.2⟩
    · by_contra hPath
      exact h.entries (fun hSame => hPath hSame.2.2.1) (cacheKey_eq_iff.mpr (by rw [hParts]))
    · have hEntries : ¬ _ := fun hText => h.entries hDiffers (cacheKey_eq_iff.mpr hText)
      rw [KeyParts.text_eq_iff hp hp', not_or, not_or] at hEntries
      exact hEntries.2
  · intro h
    have hEntries : req.Differs req' → req.cacheKey sha256Hex ≠ req'.cacheKey sha256Hex := by
      intro hDiffers hKey
      rcases (KeyParts.text_eq_iff hp hp').mp (cacheKey_eq_iff.mp hKey) with hParts | hNested | hNested
      · exact differs_of_parts hDiffers hParts (h.hashes hParts)
      · exact (h.principals hDiffers).1 hNested
      · exact (h.principals hDiffers).2 hNested
    refine ⟨hEntries, fun hDiffers hKey => hEntries hDiffers (lockKey_inj.mp hKey), fun hKey => ?_, fun hKey => ?_⟩
    · rcases (KeyParts.text_eq_iff hp hp'.lock).mp (cacheKey_eq_lockKey_iff.mp hKey) with hParts | hNested | hNested
      · exact h.suffix hParts
      · exact h.principalsLock.1 hNested
      · exact h.principalsLock.2 hNested
    · rcases (KeyParts.text_eq_iff hp' hp.lock).mp (cacheKey_eq_lockKey_iff.mp hKey) with hParts | hNested | hNested
      · exact h.suffix' hParts
      · exact h.lockPrincipals.1 hNested
      · exact h.lockPrincipals.2 hNested

end

end CyberAccountant.Security.Idempotency
