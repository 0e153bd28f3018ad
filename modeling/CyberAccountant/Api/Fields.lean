import CyberAccountant.Api.Validation
import CyberAccountant.Ledger.Journal

/-! The checks of single fields of a request body, and of dates. -/

namespace CyberAccountant.Api.Validation

open CyberAccountant.Library CyberAccountant.Ledger

/-- A refusal of a request. -/
inductive Refusal where
  | badRequest (errors : List FieldError)
  | unprocessable (errors : List FieldError)
  | internalError
  | serviceUnavailable
  deriving DecidableEq

def require (body : Json) (field : String) : List FieldError :=
  match Json.member body.members field with
  | none | some .null => [⟨field, "missing", "required"⟩]
  | some _ => []

/-- The type check that the controllers make beside `require`. -/
def requireString (body : Json) (field : String) : List FieldError :=
  match Json.member body.members field with
  | none | some (.str _) => []
  | some _ => [⟨field, "not_string", "must be a string"⟩]

/-- The text of a field that is one. -/
def stringField (body : Json) (field : String) : Option String :=
  match Json.member body.members field with
  | some (.str text) => some text
  | _ => none

/-- The check of a field whose value is a text. -/
def oneOf (field value : String) (allowed : List String) : List FieldError :=
  if value ∈ allowed then []
  else [⟨field, "not_allowed", allowed.foldl (fun msg a => msg ++ " '" ++ a ++ "'") "must be one of:"⟩]

/-- The check of the length of a text that may be missing, in bytes. -/
def stringLength (body : Json) (field : String) (minLen maxLen : Nat) : List FieldError :=
  match Json.member body.members field with
  | none | some .null => []
  | some (.str s) =>
    if s.utf8ByteSize < minLen then [⟨field, "too_short", "min length " ++ toString minLen⟩]
    else if maxLen < s.utf8ByteSize then [⟨field, "too_long", "max length " ++ toString maxLen⟩]
    else []
  | some _ => [⟨field, "not_string", "must be a string"⟩]

/-- The check of a field that may be missing, against a format. -/
def regexMatch (body : Json) (field : String) (admits : String → Bool) (formatHint : String) : List FieldError :=
  match Json.member body.members field with
  | none | some .null => []
  | some (.str s) => if admits s then [] else [⟨field, "bad_format", "expected format: " ++ formatHint⟩]
  | some _ => [⟨field, "not_string", "must be a string"⟩]

def isAlnum (c : Char) : Bool := c.isAlpha || c.isDigit

/-- `^[A-Za-z0-9._%+\-]+@[A-Za-z0-9.\-]+\.[A-Za-z]{2,}$`: the last label is what follows the last dot. -/
def isEmail (s : String) : Bool :=
  let user := s.toList.takeWhile (· ≠ '@')
  let domain := (s.toList.dropWhile (· ≠ '@')).drop 1
  let label := (domain.reverse.takeWhile (· ≠ '.')).reverse
  let host := (domain.reverse.dropWhile (· ≠ '.')).drop 1
  user ≠ [] && user.all (fun c => isAlnum c || c ∈ ['.', '_', '%', '+', '-']) && host ≠ [] &&
    host.all (fun c => isAlnum c || c ∈ ['.', '-']) && 2 ≤ label.length && label.all Char.isAlpha

def email (body : Json) (field : String) : List FieldError := regexMatch body field isEmail "email"

/-- The groups of `^(\d{4})-(\d{2})-(\d{2})$` as numbers: year, month and day. -/
def dateGroups (s : String) : Option (Nat × Nat × Nat) :=
  match s.toList with
  | [y₁, y₂, y₃, y₄, '-', m₁, m₂, '-', d₁, d₂] =>
    if [y₁, y₂, y₃, y₄, m₁, m₂, d₁, d₂].all Char.isDigit then
      some (Nat.ofDigitChars 10 [y₁, y₂, y₃, y₄] 0, Nat.ofDigitChars 10 [m₁, m₂] 0, Nat.ofDigitChars 10 [d₁, d₂] 0)
    else none
  | _ => none

def isValidDate (s : String) : Bool :=
  match dateGroups s with
  | none => false
  | some (year, month, day) => 1 ≤ month ∧ month ≤ 12 ∧ 1 ≤ day ∧ day ≤ daysInMonth year month

/-- The cast of such a text to `DATE`, which has no year 0. -/
def castDate (s : String) : Option Date :=
  match dateGroups s with
  | none => none
  | some (year, month, day) => if h : IsCalendarDay year month day then some ⟨year, month, day, h⟩ else none

theorem dateGroups_year {s : String} {year month day : Nat} (h : dateGroups s = some (year, month, day)) :
    year < 10000 := by
  unfold dateGroups at h
  split at h
  · rename_i y₁ y₂ y₃ y₄ m₁ m₂ d₁ d₂ _
    split_ifs at h with hDigits
    simp only [Option.some.injEq, Prod.mk.injEq] at h
    rw [← h.1]
    have hYear : [y₁, y₂, y₃, y₄].all Char.isDigit := by
      simp only [List.all_cons, List.all_nil, Bool.and_true, Bool.and_eq_true] at hDigits ⊢
      exact ⟨hDigits.1, hDigits.2.1, hDigits.2.2.1, hDigits.2.2.2.1⟩
    simpa using ofDigitChars_lt hYear
  · cases h

/-- A text that is cast has a year of at most four digits. -/
theorem castDate_year {s : String} {d : Date} (h : castDate s = some d) : d.year < 10000 := by
  unfold castDate at h
  split at h
  · cases h
  · rename_i hGroups
    split_ifs at h
    cases h
    exact dateGroups_year hGroups

end CyberAccountant.Api.Validation
