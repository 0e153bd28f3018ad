import CyberAccountant.Library.Transition
import CyberAccountant.Library.Versions

/-! The bank accounts of organisations.  A PATCH reads the account, merges its body into what it read and
writes all of it back; a request that names its account the primary one clears the flag of the other first,
by a statement of its own. -/

namespace CyberAccountant.Tenancy

open CyberAccountant.Library

/-! ### Accounts -/

/-- A value of `CHAR(3)`. -/
structure Char3 where
  text : String
  length : text.toList.length = 3
  deriving DecidableEq

/-- The assignment of a text, which is padded; nothing but blanks is cut off. -/
def Char3.ofText (s : String) : Option Char3 :=
  if (s.toList.drop 3).all (· = ' ') then
    some ⟨String.ofList ((s.toList ++ List.replicate 3 ' ').take 3), by
      rw [String.toList_ofList, List.length_take, List.length_append, List.length_replicate]
      omega⟩
  else none

theorem Char3.ofText_text (c : Char3) : Char3.ofText c.text = some c := by
  have hDrop : c.text.toList.drop 3 = [] := List.drop_eq_nil_of_le (Nat.le_of_eq c.length)
  have hTake : (c.text.toList ++ List.replicate 3 ' ').take 3 = c.text.toList := by
    rw [List.take_append_of_le_length (Nat.le_of_eq c.length.symm), List.take_of_length_le (Nat.le_of_eq c.length)]
  unfold Char3.ofText
  rw [hDrop, List.all_nil, if_pos rfl]
  congr
  rw [hTake, String.ofList_toList]

theorem Char3.text_ne_empty (c : Char3) : c.text ≠ "" := by
  intro hEmpty
  have hLength := c.length
  rw [hEmpty] at hLength
  cases hLength

structure BankAccount where
  iik : String
  bankName : String
  bik : String
  kbe : String
  currency : String
  isPrimary : Bool
  deriving DecidableEq

structure BankRow (Org : Type) where
  org : Org
  iik : String
  bankName : String
  bik : String
  kbe : String
  currency : Char3
  isPrimary : Bool

variable {Org Id : Type}

/-- `from_row`. -/
def BankRow.account (row : BankRow Org) : BankAccount :=
  ⟨row.iik, row.bankName, row.bik, row.kbe, row.currency.text, row.isPrimary⟩

def BankRow.cleared (row : BankRow Org) : BankRow Org := { row with isPrimary := false }

/-- The row that a statement writes; none when the currency is too long for the column. -/
def BankAccount.store (org : Org) (a : BankAccount) : Option (BankRow Org) :=
  (Char3.ofText (if a.currency = "" then "KZT" else a.currency)).map fun currency =>
    ⟨org, a.iik, a.bankName, a.bik, a.kbe, currency, a.isPrimary⟩

theorem account_store (row : BankRow Org) : row.account.store row.org = some row := by
  have hCurrency : row.account.currency = row.currency.text := rfl
  unfold BankAccount.store
  rw [hCurrency, if_neg row.currency.text_ne_empty, Char3.ofText_text]
  rfl

/-- The two unique constraints: on `(org_id, iik)` and on one primary account of an organisation. -/
def Conflict (r r' : BankRow Org) : Prop :=
  r.org = r'.org ∧ (r.iik = r'.iik ∨ r.isPrimary = true ∧ r'.isPrimary = true)

/-- The fields that a body has, each of its type. -/
structure BankBody where
  iik : Option String
  bankName : Option String
  bik : Option String
  kbe : Option String
  currency : Option String
  isPrimary : Option Bool

/-- The account of a POST; the first two fields are required. -/
def validateAndFill (body : BankBody) : Option BankAccount := do
  let iik ← body.iik
  let bankName ← body.bankName
  some ⟨iik, bankName, body.bik.getD "", body.kbe.getD "", body.currency.getD "KZT", body.isPrimary.getD false⟩

def applyPatch (body : BankBody) (out : BankAccount) : BankAccount :=
  ⟨body.iik.getD out.iik, body.bankName.getD out.bankName, body.bik.getD out.bik, body.kbe.getD out.kbe,
    body.currency.getD out.currency, body.isPrimary.getD out.isPrimary⟩

/-- Between the rows only fields change that the body has. -/
structure OnlyNamed (body : BankBody) (old new : BankRow Org) : Prop where
  org : new.org = old.org
  iik : body.iik = none → new.iik = old.iik
  bankName : body.bankName = none → new.bankName = old.bankName
  bik : body.bik = none → new.bik = old.bik
  kbe : body.kbe = none → new.kbe = old.kbe
  currency : body.currency = none → new.currency = old.currency
  isPrimary : body.isPrimary = none → new.isPrimary = old.isPrimary

theorem onlyNamed_store {body : BankBody} {old new : BankRow Org}
    (hStore : (applyPatch body old.account).store old.org = some new) : OnlyNamed body old new := by
  obtain ⟨currency, hCurrency, rfl⟩ := Option.map_eq_some_iff.mp hStore
  constructor
  · rfl
  · exact fun h => by simp [applyPatch, h, BankRow.account]
  · exact fun h => by simp [applyPatch, h, BankRow.account]
  · exact fun h => by simp [applyPatch, h, BankRow.account]
  · exact fun h => by simp [applyPatch, h, BankRow.account]
  · intro h
    have hSame : (applyPatch body old.account).currency = old.currency.text := by
      simp [applyPatch, h, BankRow.account]
    rw [hSame, if_neg old.currency.text_ne_empty, Char3.ofText_text] at hCurrency
    exact (Option.some.inj hCurrency).symm
  · exact fun h => by simp [applyPatch, h, BankRow.account]

/-! ### Requests -/

inductive BankStatus where
  | created
  | ok
  | deleted
  | notFound
  /-- `bank_account_iik_taken`. -/
  | iikTaken
  deriving DecidableEq

section

variable (Org Id : Type)

/-- The transaction that a request comes to. -/
inductive BankWrite where
  | create (org : Org) (draft : BankAccount)
  /-- With the account that the PATCH has read. -/
  | update (org : Org) (id : Id) (body : BankBody) (current : BankAccount)
  | remove (org : Org) (id : Id)

inductive BankStage where
  | finding (org : Org) (id : Id) (body : BankBody)
  | ready (w : BankWrite Org Id)
  /-- The statement that clears a flag has found an account and may wait for its row. -/
  | clearing (w : BankWrite Org Id) (found : Option Id)
  | writing (w : BankWrite Org Id)
  | committing (w : BankWrite Org Id) (status : BankStatus)
  | answered

/-- An answer, with the rows before and after the end of its transaction. -/
structure BankAnswer where
  /-- None if a PATCH has found nothing to read. -/
  write : Option (BankWrite Org Id)
  status : BankStatus
  before : Table Id (BankRow Org)
  after : Table Id (BankRow Org)

structure Bank where
  store : Versioned Id (BankRow Org)
  requests : Table Nat (BankStage Org Id)
  answers : List (BankAnswer Org Id)

end

namespace BankWrite

def org : BankWrite Org Id → Org
  | create org _ => org
  | update org _ _ _ => org
  | remove org _ => org

/-- What an INSERT or UPDATE writes. -/
def account : BankWrite Org Id → Option BankAccount
  | create _ draft => some draft
  | update _ _ body current => some (applyPatch body current)
  | remove _ _ => none

def id : BankWrite Org Id → Option Id
  | create _ _ => none
  | update _ id _ _ => some id
  | remove _ id => some id

/-- The transaction clears the flag of other accounts first. -/
def setsPrimary (w : BankWrite Org Id) : Bool := w.account.any BankAccount.isPrimary

def Clears (w : BankWrite Org Id) (k : Id) (row : BankRow Org) : Prop :=
  row.org = w.org ∧ row.isPrimary = true ∧ w.id ≠ some k

end BankWrite

/-- Another account of the organisation has the IIK. -/
def IikTaken (rows : Table Id (BankRow Org)) (w : BankWrite Org Id) : Prop :=
  ∃ account k row, w.account = some account ∧ rows k = some row ∧ row.org = w.org ∧ row.iik = account.iik ∧
    w.id ≠ some k

namespace Bank

def start : Bank Org Id := ⟨⟨Table.empty, fun _ => Table.empty⟩, Table.empty, []⟩

def goto (s : Bank Org Id) (n : Nat) (stage : BankStage Org Id) : Bank Org Id :=
  { s with requests := s.requests.put n stage }

def answer (s : Bank Org Id) (n : Nat) (a : BankAnswer Org Id) : Bank Org Id :=
  { s with requests := s.requests.put n .answered, answers := a :: s.answers }

end Bank

/-- What comes of the statement that writes. -/
inductive BankEvent where
  | written
  | missing
  | violated

/-- One statement of request `n`.  `May` says which ends of the statements that write are looked at. -/
inductive BankStep [DecidableEq Id] (May : Versioned Id (BankRow Org) → Nat → BankWrite Org Id → BankEvent → Prop) :
    Bank Org Id → Bank Org Id → Prop where
  | post (s : Bank Org Id) (n : Nat) (org : Org) (body : BankBody) (draft : BankAccount)
      (hFree : s.requests n = none) (hBody : validateAndFill body = some draft) :
      BankStep May s (s.goto n (.ready (.create org draft)))
  | patch (s : Bank Org Id) (n : Nat) (org : Org) (id : Id) (body : BankBody)
      (hFree : s.requests n = none) : BankStep May s (s.goto n (.finding org id body))
  | delete (s : Bank Org Id) (n : Nat) (org : Org) (id : Id) (hFree : s.requests n = none) :
      BankStep May s (s.goto n (.ready (.remove org id)))
  | find (s : Bank Org Id) (n : Nat) (org : Org) (id : Id) (body : BankBody) (row : BankRow Org)
      (hStage : s.requests n = some (.finding org id body)) (hRow : s.store.rows id = some row)
      (hOrg : row.org = org) : BankStep May s (s.goto n (.ready (.update org id body row.account)))
  | findNone (s : Bank Org Id) (n : Nat) (org : Org) (id : Id) (body : BankBody)
      (hStage : s.requests n = some (.finding org id body))
      (hNone : ∀ row, s.store.rows id = some row → row.org ≠ org) :
      BankStep May s (s.answer n ⟨none, .notFound, s.store.rows, s.store.rows⟩)
  | begin (s : Bank Org Id) (n : Nat) (w : BankWrite Org Id) (hStage : s.requests n = some (.ready w))
      (hPlain : w.setsPrimary = false) : BankStep May s (s.goto n (.writing w))
  | startClear (s : Bank Org Id) (n : Nat) (w : BankWrite Org Id) (found : Option Id)
      (hStage : s.requests n = some (.ready w)) (hPrimary : w.setsPrimary = true)
      (hFound : ∀ k, found = some k ↔ ∃ row, s.store.rows k = some row ∧ w.Clears k row) :
      BankStep May s (s.goto n (.clearing w found))
  | clear (s : Bank Org Id) (n : Nat) (w : BankWrite Org Id) (k : Id) (row : BankRow Org)
      (hStage : s.requests n = some (.clearing w (some k))) (hFree : s.store.Unlocked n k)
      (hRow : s.store.rows k = some row) (hClears : w.Clears k row) :
      BankStep May s ({ s with store := s.store.write n k (some row.cleared) }.goto n (.writing w))
  /-- Nothing is found, or what was found is no longer primary when its lock is free. -/
  | clearNone (s : Bank Org Id) (n : Nat) (w : BankWrite Org Id) (found : Option Id)
      (hStage : s.requests n = some (.clearing w found))
      (hNone : ∀ k, found = some k → s.store.Unlocked n k ∧ ∀ row, s.store.rows k = some row → ¬w.Clears k row) :
      BankStep May s (s.goto n (.writing w))
  | insert (s : Bank Org Id) (n : Nat) (org : Org) (draft : BankAccount) (id : Id) (row : BankRow Org)
      (hStage : s.requests n = some (.writing (.create org draft)))
      (hFresh : s.store.rows id = none ∧ ∀ m, s.store.versions m id = none)
      (hStore : draft.store org = some row) (hAdmits : s.store.Admits Conflict n id row)
      (hMay : May s.store n (.create org draft) .written) :
      BankStep May s
        ({ s with store := s.store.write n id (some row) }.goto n (.committing (.create org draft) .created))
  | update (s : Bank Org Id) (n : Nat) (org : Org) (id : Id) (body : BankBody) (current : BankAccount)
      (now row : BankRow Org) (hStage : s.requests n = some (.writing (.update org id body current)))
      (hFree : s.store.Unlocked n id) (hNow : s.store.rows id = some now) (hOrg : now.org = org)
      (hStore : (applyPatch body current).store org = some row) (hAdmits : s.store.Admits Conflict n id row)
      (hMay : May s.store n (.update org id body current) .written) :
      BankStep May s
        ({ s with store := s.store.write n id (some row) }.goto n
          (.committing (.update org id body current) .ok))
  | updateNone (s : Bank Org Id) (n : Nat) (org : Org) (id : Id) (body : BankBody) (current : BankAccount)
      (hStage : s.requests n = some (.writing (.update org id body current)))
      (hFree : s.store.Unlocked n id) (hNone : ∀ now, s.store.rows id = some now → now.org ≠ org)
      (hMay : May s.store n (.update org id body current) .missing) :
      BankStep May s (s.goto n (.committing (.update org id body current) .notFound))
  /-- A unique constraint refuses the row; the transaction is rolled back. -/
  | violate (s : Bank Org Id) (n : Nat) (w : BankWrite Org Id) (account : BankAccount)
      (row other : BankRow Org) (k : Id) (hStage : s.requests n = some (.writing w))
      (hAccount : w.account = some account) (hStore : account.store w.org = some row)
      (hTarget : ∀ id, w.id = some id → s.store.Unlocked n id ∧
        ∃ now, s.store.rows id = some now ∧ now.org = w.org)
      (hOther : w.id ≠ some k) (hFree : s.store.Unlocked n k) (hSeen : s.store.view n k = some other)
      (hConflict : Conflict row other) (hMay : May s.store n w .violated) :
      BankStep May s ({ s with store := s.store.rollback n }.answer n
        ⟨some w, .iikTaken, s.store.rows, s.store.rows⟩)
  | remove (s : Bank Org Id) (n : Nat) (org : Org) (id : Id) (row : BankRow Org)
      (hStage : s.requests n = some (.writing (.remove org id))) (hFree : s.store.Unlocked n id)
      (hRow : s.store.rows id = some row) (hOrg : row.org = org) :
      BankStep May s
        ({ s with store := s.store.write n id none }.goto n (.committing (.remove org id) .deleted))
  | removeNone (s : Bank Org Id) (n : Nat) (org : Org) (id : Id)
      (hStage : s.requests n = some (.writing (.remove org id))) (hFree : s.store.Unlocked n id)
      (hNone : ∀ row, s.store.rows id = some row → row.org ≠ org) :
      BankStep May s (s.goto n (.committing (.remove org id) .notFound))
  | commit (s : Bank Org Id) (n : Nat) (w : BankWrite Org Id) (status : BankStatus)
      (hStage : s.requests n = some (.committing w status)) :
      BankStep May s ({ s with store := s.store.commit n }.answer n
        ⟨some w, status, s.store.rows, (s.store.commit n).rows⟩)
  | fail (s : Bank Org Id) (n : Nat) (stage : BankStage Org Id) (hStage : s.requests n = some stage) :
      BankStep May s ({ s with store := s.store.rollback n }.goto n .answered)
  | retry (s : Bank Org Id) (n : Nat) (w : BankWrite Org Id) (stage : BankStage Org Id)
      (hStage : s.requests n = some stage)
      (hIn : (∃ found, stage = .clearing w found) ∨ stage = .writing w ∨
        ∃ status, stage = .committing w status) :
      BankStep May s ({ s with store := s.store.rollback n }.goto n (.ready w))

/-! ### The law -/

structure PatchLaw (org : Org) (id : Id) (body : BankBody) (before after : Table Id (BankRow Org)) : Prop where
  own : ∃ old new, before id = some old ∧ after id = some new ∧ OnlyNamed body old new
  others : ∀ k, k ≠ id → after k = before k ∨
    body.isPrimary = some true ∧ ∃ row, before k = some row ∧ row.org = org ∧ after k = some row.cleared

def Lawful (a : BankAnswer Org Id) : Prop :=
  match a.status with
  | .notFound => a.after = a.before
  | .iikTaken => a.after = a.before ∧ ∃ w, a.write = some w ∧ IikTaken a.before w
  | .ok => ∀ org id body current, a.write = some (.update org id body current) →
    PatchLaw org id body a.before a.after
  | .created | .deleted => True

/-- Nothing has come in between: an UPDATE finds the fields that the body does not have as the PATCH read
them; one that finds no account has cleared no flag; and where a unique constraint refuses an account that
would be primary, no other one is, or another one has the IIK. -/
def Undisturbed (store : Versioned Id (BankRow Org)) (n : Nat) (w : BankWrite Org Id) : BankEvent → Prop
  | .written => ∀ org id body current, w = .update org id body current →
    ∀ now, store.rows id = some now → applyPatch body now.account = applyPatch body current
  | .missing => store.versions n = Table.empty
  | .violated => w.setsPrimary = true →
    IikTaken store.rows w ∨ ∀ k row, store.view n k = some row → ¬w.Clears k row



/-! ### The invariant -/

/-- The versions of a transaction before its INSERT or UPDATE: flags cleared for its own. -/
def Cleared (store : Versioned Id (BankRow Org)) (n : Nat) (w : BankWrite Org Id) : Prop :=
  ∀ k version, store.versions n k = some version → w.setsPrimary = true ∧
    ∃ row, store.rows k = some row ∧ w.Clears k row ∧ version = some row.cleared

structure Patched (store : Versioned Id (BankRow Org)) (n : Nat) (org : Org) (id : Id) (body : BankBody) :
    Prop where
  own : ∃ old new, store.rows id = some old ∧ store.versions n id = some (some new) ∧ OnlyNamed body old new
  others : ∀ k version, k ≠ id → store.versions n k = some version → body.isPrimary = some true ∧
    ∃ row, store.rows k = some row ∧ row.org = org ∧ version = some row.cleared

structure CommitOk (store : Versioned Id (BankRow Org)) (n : Nat) (w : BankWrite Org Id) (status : BankStatus) :
    Prop where
  missing : status = .notFound → store.versions n = Table.empty
  patched : status = .ok → ∀ org id body current, w = .update org id body current → Patched store n org id body
  notTaken : status ≠ .iikTaken

def StageOk (store : Versioned Id (BankRow Org)) (n : Nat) : BankStage Org Id → Prop
  | .finding _ _ _ | .ready _ | .answered => store.versions n = Table.empty
  | .clearing w _ => w.setsPrimary = true ∧ store.versions n = Table.empty
  | .writing w => Cleared store n w
  | .committing w status => CommitOk store n w status

structure BankOk (s : Bank Org Id) : Prop where
  store : Versioned.VersionsOk Conflict s.store
  idle : ∀ n, s.requests n = none → s.store.versions n = Table.empty
  stages : ∀ n stage, s.requests n = some stage → StageOk s.store n stage
  answers : ∀ a ∈ s.answers, Lawful a

section Invariant

variable {s : Bank Org Id} {store store' : Versioned Id (BankRow Org)} {n : Nat} {w : BankWrite Org Id}

theorem bankOk_start : BankOk (.start : Bank Org Id) where
  store :=
    ⟨fun _ _ _ _ => .inl rfl, fun _ _ _ _ h => (nomatch h), fun _ _ _ _ _ h => (nomatch h),
      fun _ _ _ _ _ _ _ h => (nomatch h)⟩
  idle _ _ := rfl
  stages _ _ h := nomatch h
  answers _ h := nomatch h

theorem conflict_symm (a b : BankRow Org) (h : Conflict a b) : Conflict b a := by
  obtain ⟨hOrg, hIik | ⟨hA, hB⟩⟩ := h
  · exact ⟨hOrg.symm, .inl hIik.symm⟩
  · exact ⟨hOrg.symm, .inr ⟨hB, hA⟩⟩

theorem conflict_cleared {row r : BankRow Org} (h : Conflict row.cleared r) : Conflict row r := by
  obtain ⟨hOrg, hIik | ⟨hFalse, -⟩⟩ := h
  · exact ⟨hOrg, .inl hIik⟩
  · cases hFalse

/-- What holds of a transaction depends on its versions and the committed rows under them. -/
theorem StageOk.congr {stage : BankStage Org Id} (h : StageOk store n stage)
    (hVersions : store'.versions n = store.versions n)
    (hRows : ∀ k, store.versions n k ≠ none → store'.rows k = store.rows k) : StageOk store' n stage := by
  have hSome : ∀ k version, store.versions n k = some version → store'.rows k = store.rows k := by
    intro k version hVersion
    apply hRows
    rw [hVersion]
    exact Option.some_ne_none version
  cases stage with
  | finding => exact hVersions.trans h
  | ready => exact hVersions.trans h
  | answered => exact hVersions.trans h
  | clearing => exact ⟨h.1, hVersions.trans h.2⟩
  | writing w =>
    intro k version hVersion
    rw [hVersions] at hVersion
    rw [hSome k version hVersion]
    exact h k version hVersion
  | committing w status =>
    refine ⟨fun hMissing => hVersions.trans (h.missing hMissing), ?_, h.notTaken⟩
    intro hStatus org id body current hUpdate
    obtain ⟨⟨old, new, hOld, hNew, hNamed⟩, hOthers⟩ := h.patched hStatus org id body current hUpdate
    constructor
    · refine ⟨old, new, ?_, ?_, hNamed⟩
      · rw [hSome id _ hNew]
        exact hOld
      · rw [hVersions]
        exact hNew
    · intro k version hNe hVersion
      rw [hVersions] at hVersion
      rw [hSome k version hVersion]
      exact hOthers k version hNe hVersion

/-- One request moves on; what the others have written stays, and so does what is under it. -/
theorem BankOk.move (hOk : BankOk s) (stage : BankStage Org Id) (answers : List (BankAnswer Org Id))
    (hStore : Versioned.VersionsOk Conflict store') (hStage : StageOk store' n stage)
    (hOthers : ∀ m, m ≠ n → store'.versions m = s.store.versions m ∧
      ∀ k, s.store.versions m k ≠ none → store'.rows k = s.store.rows k)
    (hAnswers : ∀ a ∈ answers, a ∈ s.answers ∨ Lawful a) :
    BankOk ⟨store', s.requests.put n stage, answers⟩ where
  store := hStore
  idle m hNone := by
    change s.requests.put n stage m = none at hNone
    by_cases hSame : m = n
    · subst hSame
      rw [Table.put_same] at hNone
      cases hNone
    · rw [Table.put_ne hSame] at hNone
      exact (hOthers m hSame).1.trans (hOk.idle m hNone)
  stages m other hThere := by
    rcases Table.put_eq_some.mp hThere with ⟨rfl, rfl⟩ | ⟨hNe, hOld⟩
    · exact hStage
    · obtain ⟨hVersions, hRows⟩ := hOthers m hNe
      exact (hOk.stages m other hOld).congr hVersions hRows
  answers a ha := by
    rcases hAnswers a ha with hOld | hNew
    · exact hOk.answers a hOld
    · exact hNew

theorem BankOk.goto (hOk : BankOk s) {stage : BankStage Org Id} (hStage : StageOk s.store n stage) :
    BankOk (s.goto n stage) :=
  hOk.move stage s.answers hOk.store hStage (fun _ _ => ⟨rfl, fun _ _ => rfl⟩) (fun _ ha => .inl ha)

theorem BankOk.gotoRolledBack (hOk : BankOk s) (stage : BankStage Org Id)
    (hStage : StageOk (s.store.rollback n) n stage) (answers : List (BankAnswer Org Id))
    (hAnswers : ∀ a ∈ answers, a ∈ s.answers ∨ Lawful a) :
    BankOk ⟨s.store.rollback n, s.requests.put n stage, answers⟩ :=
  hOk.move stage answers (hOk.store.rollback conflict_symm) hStage
    (fun _ hNe => ⟨Versioned.rollback_ne hNe, fun _ _ => rfl⟩) hAnswers

/-- A transaction that names no account the primary one has written nothing before. -/
theorem Cleared.empty (h : Cleared store n w) (hPlain : w.setsPrimary = false) :
    store.versions n = Table.empty := by
  funext k
  cases hVersion : store.versions n k with
  | none => rfl
  | some version =>
    have hPrimary := (h k version hVersion).1
    rw [hPlain] at hPrimary
    cases hPrimary

/-- A PATCH whose body does not name the account the primary one has cleared no flag, if it finds the
account as it was. -/
theorem named_of_cleared (hStore : Versioned.VersionsOk Conflict store) {org : Org} {id : Id} {body : BankBody}
    {current : BankAccount} {now : BankRow Org} (hCleared : Cleared store n (.update org id body current))
    (hNow : store.rows id = some now) (hOrg : now.org = org)
    (hSame : applyPatch body now.account = applyPatch body current) {k : Id} {version : Option (BankRow Org)}
    (hVersion : store.versions n k = some version) : body.isPrimary = some true := by
  obtain ⟨hPrimary, row, hRow, ⟨hRowOrg, hRowPrimary, hNe⟩, -⟩ := hCleared k version hVersion
  have hWrites : (applyPatch body now.account).isPrimary = true := by
    rw [hSame]
    exact hPrimary
  cases hBody : body.isPrimary with
  | some flag =>
    rw [applyPatch, hBody] at hWrites
    exact congrArg some hWrites
  | none =>
    -- Two accounts of the organisation would be primary.
    rw [applyPatch, hBody] at hWrites
    have hKeys : id ≠ k := fun hSame => hNe (congrArg some hSame)
    have hBoth : Conflict now row := ⟨hOrg.trans hRowOrg.symm, .inr ⟨hWrites, hRowPrimary⟩⟩
    exact absurd hBoth (hStore.rows id k now row hNow hRow hKeys)

/-- A refused row has an IIK that another account has. -/
theorem iikTaken_of_conflict {account : BankAccount} {row other : BankRow Org} {k : Id}
    (hCleared : Cleared store n w) (hAccount : w.account = some account)
    (hStore : account.store w.org = some row) (hOther : w.id ≠ some k)
    (hSeen : store.view n k = some other) (hConflict : Conflict row other)
    (hMay : Undisturbed store n w .violated) : IikTaken store.rows w := by
  obtain ⟨currency, -, rfl⟩ := Option.map_eq_some_iff.mp hStore
  obtain ⟨hOrg, hIik | ⟨hMine, hTheirs⟩⟩ := hConflict
  · -- The row itself is committed, or its version differs from it in the flag only.
    rcases Versioned.view_cases hSeen with hVersion | ⟨-, hRow⟩
    · obtain ⟨-, base, hBase, hClears, hIs⟩ := hCleared k _ hVersion
      obtain rfl := Option.some.inj hIs
      exact ⟨account, k, base, hAccount, hBase, hClears.1, hIik.symm, hOther⟩
    · exact ⟨account, k, other, hAccount, hRow, hOrg.symm, hIik.symm, hOther⟩
  · have hPrimary : w.setsPrimary = true := by
      rw [BankWrite.setsPrimary, hAccount]
      exact hMine
    rcases hMay hPrimary with hTaken | hNone
    · exact hTaken
    · exact absurd ⟨hOrg.symm, hTheirs, hOther⟩ (hNone k other hSeen)

theorem Patched.law {org : Org} {id : Id} {body : BankBody} (h : Patched store n org id body) :
    PatchLaw org id body store.rows (store.commit n).rows := by
  obtain ⟨old, new, hOld, hNew, hNamed⟩ := h.own
  constructor
  · exact ⟨old, new, hOld, Versioned.view_of_some hNew, hNamed⟩
  · intro k hNe
    cases hVersion : store.versions n k with
    | none => exact .inl (Versioned.view_of_none hVersion)
    | some version =>
      obtain ⟨hNames, row, hRow, hOrg, rfl⟩ := h.others k version hNe hVersion
      exact .inr ⟨hNames, row, hRow, hOrg, Versioned.view_of_some hVersion⟩

theorem CommitOk.lawful {status : BankStatus} (h : CommitOk store n w status) :
    Lawful ⟨some w, status, store.rows, (store.commit n).rows⟩ := by
  cases status with
  | created => trivial
  | ok =>
    intro org id body current hWrite
    exact (h.patched rfl org id body current (Option.some.inj hWrite)).law
  | deleted => trivial
  | notFound => exact Versioned.view_of_empty (h.missing rfl)
  | iikTaken => exact absurd rfl h.notTaken

theorem BankOk.commit (hOk : BankOk s) {status : BankStatus}
    (hStage : s.requests n = some (.committing w status)) :
    BankOk ({ s with store := s.store.commit n }.answer n
      ⟨some w, status, s.store.rows, (s.store.commit n).rows⟩) := by
  have hCommit : CommitOk s.store n w status := hOk.stages n _ hStage
  apply hOk.move
  · exact hOk.store.commit conflict_symm
  · exact Versioned.commit_same
  · intro m hNe
    exact ⟨Versioned.commit_ne hNe, fun k hMine => Versioned.commit_rows_of_locked hOk.store hNe hMine⟩
  · intro a ha
    rcases List.mem_cons.mp ha with rfl | hOld
    · exact .inr hCommit.lawful
    · exact .inl hOld

/-! ### Statements -/

variable [DecidableEq Id]

theorem BankOk.gotoWritten (hOk : BankOk s) {stage : BankStage Org Id} {k : Id} {version : Option (BankRow Org)}
    (hFree : s.store.Unlocked n k) (hLet : ∀ r, version = some r → s.store.Admits Conflict n k r)
    (hStage : StageOk (s.store.write n k version) n stage) :
    BankOk ({ s with store := s.store.write n k version }.goto n stage) :=
  hOk.move stage s.answers (hOk.store.write conflict_symm hFree hLet) hStage
    (fun _ hNe => ⟨Versioned.write_ne hNe, fun _ _ => rfl⟩) (fun _ ha => .inl ha)

theorem BankOk.clear (hOk : BankOk s) {k : Id} {row : BankRow Org}
    (hStage : s.requests n = some (.clearing w (some k))) (hFree : s.store.Unlocked n k)
    (hRow : s.store.rows k = some row) (hClears : w.Clears k row) :
    BankOk ({ s with store := s.store.write n k (some row.cleared) }.goto n (.writing w)) := by
  obtain ⟨hPrimary, hEmpty⟩ := hOk.stages n _ hStage
  have hSeen : s.store.view n k = some row := by
    rw [Versioned.view_of_empty hEmpty]
    exact hRow
  apply hOk.gotoWritten hFree
  · intro r hNew
    obtain rfl := Option.some.inj hNew
    exact hOk.store.admits hFree hSeen fun r => conflict_cleared
  · intro k' version hVersion
    rw [Versioned.write_same, hEmpty] at hVersion
    rcases Table.put_eq_some.mp hVersion with ⟨rfl, rfl⟩ | ⟨-, hNone⟩
    · exact ⟨hPrimary, row, hRow, hClears, rfl⟩
    · cases hNone

theorem BankOk.update (hOk : BankOk s) {org : Org} {id : Id} {body : BankBody} {current : BankAccount}
    {now row : BankRow Org} (hStage : s.requests n = some (.writing (.update org id body current)))
    (hFree : s.store.Unlocked n id) (hNow : s.store.rows id = some now) (hOrg : now.org = org)
    (hStore : (applyPatch body current).store org = some row) (hAdmits : s.store.Admits Conflict n id row)
    (hSame : applyPatch body now.account = applyPatch body current) :
    BankOk ({ s with store := s.store.write n id (some row) }.goto n
      (.committing (.update org id body current) .ok)) := by
  have hCleared : Cleared s.store n (.update org id body current) := hOk.stages n _ hStage
  apply hOk.gotoWritten hFree
  · intro r hNew
    obtain rfl := Option.some.inj hNew
    exact hAdmits
  · refine ⟨fun h => (nomatch h), fun _ org' id' body' current' hUpdate => ?_, fun h => nomatch h⟩
    cases hUpdate
    constructor
    · refine ⟨now, row, hNow, ?_, ?_⟩
      · rw [Versioned.write_same]
        exact Table.put_same _ _ _
      · rw [← hSame, ← hOrg] at hStore
        exact onlyNamed_store hStore
    · intro k version hNe hVersion
      rw [Versioned.write_same, Table.put_ne hNe] at hVersion
      obtain ⟨-, other, hRow, hClears, rfl⟩ := hCleared k version hVersion
      exact ⟨named_of_cleared hOk.store hCleared hNow hOrg hSame hVersion, other, hRow, hClears.1, rfl⟩

theorem BankOk.step (s s' : Bank Org Id) (hOk : BankOk s) (hStep : BankStep Undisturbed s s') : BankOk s' := by
  cases hStep with
  | post n org body draft hFree hBody => exact hOk.goto (hOk.idle n hFree)
  | patch n org id body hFree => exact hOk.goto (hOk.idle n hFree)
  | delete n org id hFree => exact hOk.goto (hOk.idle n hFree)
  | find n org id body row hStage hRow hOrg =>
    have hEmpty : s.store.versions n = Table.empty := hOk.stages n _ hStage
    exact hOk.goto hEmpty
  | findNone n org id body hStage hNone =>
    have hEmpty : s.store.versions n = Table.empty := hOk.stages n _ hStage
    apply hOk.move .answered _ hOk.store hEmpty (fun _ _ => ⟨rfl, fun _ _ => rfl⟩)
    intro a ha
    rcases List.mem_cons.mp ha with rfl | hOld
    · exact .inr rfl
    · exact .inl hOld
  | begin n w hStage hPlain =>
    have hEmpty : s.store.versions n = Table.empty := hOk.stages n _ hStage
    apply hOk.goto
    intro k version hVersion
    rw [hEmpty] at hVersion
    cases hVersion
  | startClear n w found hStage hPrimary hFound =>
    have hEmpty : s.store.versions n = Table.empty := hOk.stages n _ hStage
    exact hOk.goto ⟨hPrimary, hEmpty⟩
  | clear n w k row hStage hFree hRow hClears => exact hOk.clear hStage hFree hRow hClears
  | clearNone n w found hStage hNone =>
    obtain ⟨-, hEmpty⟩ := hOk.stages n _ hStage
    apply hOk.goto
    intro k version hVersion
    rw [hEmpty] at hVersion
    cases hVersion
  | insert n org draft id row hStage hFresh hStore hAdmits hMay =>
    apply hOk.gotoWritten (fun m _ => hFresh.2 m)
    · intro r hNew
      obtain rfl := Option.some.inj hNew
      exact hAdmits
    · exact ⟨fun h => (nomatch h), fun h => (nomatch h), fun h => nomatch h⟩
  | update n org id body current now row hStage hFree hNow hOrg hStore hAdmits hMay =>
    exact hOk.update hStage hFree hNow hOrg hStore hAdmits (hMay org id body current rfl now hNow)
  | updateNone n org id body current hStage hFree hNone hMay =>
    exact hOk.goto ⟨fun _ => hMay, fun h => (nomatch h), fun h => nomatch h⟩
  | violate n w account row other k hStage hAccount hStore hTarget hOther hFree hSeen hConflict hMay =>
    have hCleared : Cleared s.store n w := hOk.stages n _ hStage
    have hTaken := iikTaken_of_conflict hCleared hAccount hStore hOther hSeen hConflict hMay
    apply hOk.gotoRolledBack .answered Versioned.rollback_same
    intro a ha
    rcases List.mem_cons.mp ha with rfl | hOld
    · exact .inr ⟨rfl, w, rfl, hTaken⟩
    · exact .inl hOld
  | remove n org id row hStage hFree hRow hOrg =>
    apply hOk.gotoWritten hFree
    · exact fun _ h => nomatch h
    · exact ⟨fun h => (nomatch h), fun h => (nomatch h), fun h => nomatch h⟩
  | removeNone n org id hStage hFree hNone =>
    have hCleared : Cleared s.store n (.remove org id) := hOk.stages n _ hStage
    exact hOk.goto ⟨fun _ => hCleared.empty rfl, fun h => (nomatch h), fun h => nomatch h⟩
  | commit n w status hStage => exact hOk.commit hStage
  | fail n stage hStage =>
    exact hOk.gotoRolledBack .answered Versioned.rollback_same s.answers fun _ ha => .inl ha
  | retry n w stage hStage hIn =>
    exact hOk.gotoRolledBack (.ready w) Versioned.rollback_same s.answers fun _ ha => .inl ha

end Invariant

/-- In every run that nothing disturbs, each answer keeps the law. -/
theorem bank_lawful [DecidableEq Id] {s : Bank Org Id} (hRun : Run (BankStep Undisturbed) .start s) :
    ∀ a ∈ s.answers, Lawful a :=
  (hRun.invariant BankOk.step bankOk_start).answers

/-! ### One account -/

section Alone

variable [DecidableEq Id] {May : Versioned Id (BankRow Org) → Nat → BankWrite Org Id → BankEvent → Prop}
  {s : Bank Org Id} {n : Nat} {org : Org} {id : Id} {row now : BankRow Org}

/-- No transaction has written anything, and no account has another id. -/
structure Lone (s : Bank Org Id) (id : Id) : Prop where
  idle : ∀ m, s.store.versions m = Table.empty
  rows : ∀ k, k ≠ id → s.store.rows k = none

omit [DecidableEq Id] in
theorem Lone.admits (h : Lone s id) : s.store.Admits Conflict n id row where
  seen k r hNe hSeen := by
    rw [Versioned.view_of_empty (h.idle n), h.rows k hNe] at hSeen
    cases hSeen
  others m k r _ hVersion := by
    rw [h.idle m] at hVersion
    cases hVersion

omit [DecidableEq Id] in
theorem Lone.unlocked (h : Lone s id) (k : Id) : s.store.Unlocked n k := by
  intro m _
  rw [h.idle m]
  rfl

/-- `s` after a transaction of one statement. -/
def Bank.wrote (s : Bank Org Id) (n : Nat) (w : BankWrite Org Id) (status : BankStatus) (id : Id)
    (row : BankRow Org) : Bank Org Id :=
  ⟨⟨s.store.rows.put id row, s.store.versions⟩, s.requests.put n .answered,
    ⟨some w, status, s.store.rows, s.store.rows.put id row⟩ :: s.answers⟩

theorem Lone.wrote (h : Lone s id) (w : BankWrite Org Id) (status : BankStatus) :
    Lone (s.wrote n w status id row) id where
  idle := h.idle
  rows k hNe := (Table.put_ne hNe).trans (h.rows k hNe)

theorem goto_wrote (stage : BankStage Org Id) (w : BankWrite Org Id) (status : BankStatus) :
    (s.goto n stage).wrote n w status id row = s.wrote n w status id row := by
  simp [Bank.goto, Bank.wrote]

theorem Lone.commit (h : Lone s id) {s₀ : Bank Org Id} {w : BankWrite Org Id} {status : BankStatus}
    (hWritten : Run (BankStep May) s₀
      ({ s with store := s.store.write n id (some row) }.goto n (.committing w status))) :
    Run (BankStep May) s₀ (s.wrote n w status id row) := by
  have hDone := hWritten.tail (.commit _ n w status (Table.put_same _ _ _))
  have hStore := Versioned.commit_write (k := id) (h.idle n) row
  simpa [Bank.answer, Bank.goto, Bank.wrote, hStore] using hDone

theorem Lone.post (h : Lone s id) {draft : BankAccount} (hStage : s.requests n = some (.ready (.create org draft)))
    (hPlain : draft.isPrimary = false) (hNew : s.store.rows id = none) (hStore : draft.store org = some row)
    (hMay : May s.store n (.create org draft) .written) :
    Run (BankStep May) s (s.wrote n (.create org draft) .created id row) := by
  have hBegin : Run (BankStep May) s (s.goto n (.writing (.create org draft))) :=
    .single (.begin s n _ hStage hPlain)
  have hFresh : s.store.rows id = none ∧ ∀ m, s.store.versions m id = none :=
    ⟨hNew, fun m => by rw [h.idle m]; rfl⟩
  have hLone : Lone (s.goto n (.writing (.create org draft))) id := ⟨h.idle, h.rows⟩
  have hInsert := hBegin.tail
    (.insert _ n org draft id row (Table.put_same _ _ _) hFresh hStore hLone.admits hMay)
  have hDone := hLone.commit hInsert
  rw [goto_wrote] at hDone
  exact hDone

theorem Lone.patch (h : Lone s id) {body : BankBody} {current : BankAccount}
    (hStage : s.requests n = some (.ready (.update org id body current)))
    (hPlain : (applyPatch body current).isPrimary = false) (hNow : s.store.rows id = some now)
    (hOrg : now.org = org) (hStore : (applyPatch body current).store org = some row)
    (hMay : May s.store n (.update org id body current) .written) :
    Run (BankStep May) s (s.wrote n (.update org id body current) .ok id row) := by
  have hBegin : Run (BankStep May) s (s.goto n (.writing (.update org id body current))) :=
    .single (.begin s n _ hStage hPlain)
  have hLone : Lone (s.goto n (.writing (.update org id body current))) id := ⟨h.idle, h.rows⟩
  have hUpdate := hBegin.tail (.update _ n org id body current now row (Table.put_same _ _ _)
    (hLone.unlocked id) hNow hOrg hStore hLone.admits hMay)
  have hDone := hLone.commit hUpdate
  rw [goto_wrote] at hDone
  exact hDone

end Alone

def newAccount : BankBody := ⟨some "KZ01", some "Kaspi", none, none, none, none⟩

def newBankName : BankBody := ⟨none, some "Halyk", none, none, none, none⟩

def newBik : BankBody := ⟨none, none, some "HSBKKZKX", none, none, none⟩

def tenge : Char3 := ⟨"KZT", rfl⟩

def kaspi : BankRow Unit := ⟨(), "KZ01", "Kaspi", "", "", tenge, false⟩

def posted : Bank Unit Nat :=
  (Bank.start.goto 0 (.ready (.create () kaspi.account))).wrote 0 (.create () kaspi.account) .created 0 kaspi

theorem asked_lone : Lone (Bank.start.goto 0 (.ready (.create () kaspi.account)) : Bank Unit Nat) 0 :=
  ⟨fun _ => rfl, fun _ _ => rfl⟩

theorem posted_lone : Lone posted 0 := asked_lone.wrote _ _

theorem posted_run {May : Versioned Nat (BankRow Unit) → Nat → BankWrite Unit Nat → BankEvent → Prop}
    (hMay : May Bank.start.store 0 (.create () kaspi.account) .written) : Run (BankStep May) .start posted := by
  have hAsked : Run (BankStep May) .start (Bank.start.goto 0 (.ready (.create () kaspi.account))) :=
    .single (.post _ 0 () newAccount kaspi.account rfl rfl)
  exact hAsked.trans (asked_lone.post rfl rfl rfl (account_store kaspi) hMay)

def kaspiBik : BankRow Unit := { kaspi with bik := "HSBKKZKX" }

theorem bank_lawful_patched : ∃ s : Bank Unit Nat, s.answers.length = 2 ∧ ∀ a ∈ s.answers, Lawful a := by
  have hPosted : Run (BankStep Undisturbed) .start posted := posted_run fun _ _ _ _ h => nomatch h
  have hFound := (hPosted.tail (.patch _ 1 () 0 newBik rfl)).tail (.find _ 1 () 0 newBik kaspi rfl rfl rfl)
  have hLone : Lone ((posted.goto 1 (.finding () 0 newBik)).goto 1
      (.ready (.update () 0 newBik kaspi.account))) 0 := ⟨posted_lone.idle, posted_lone.rows⟩
  have hStore : (applyPatch newBik kaspi.account).store () = some kaspiBik := account_store kaspiBik
  have hPatched : Run (BankStep Undisturbed) _ _ := hLone.patch (Table.put_same _ _ _) rfl rfl rfl hStore (by
    intro org id body current hWrite now hNow
    cases hWrite
    cases hNow
    rfl)
  exact ⟨_, rfl, bank_lawful (hFound.trans hPatched)⟩

def bothRead : Bank Unit Nat :=
  (((posted.goto 1 (.finding () 0 newBankName)).goto 2 (.finding () 0 newBik)).goto 1
    (.ready (.update () 0 newBankName kaspi.account))).goto 2 (.ready (.update () 0 newBik kaspi.account))

theorem bothRead_lone : Lone bothRead 0 := ⟨posted_lone.idle, posted_lone.rows⟩

/-- The second to write puts back the field that the first has changed. -/
theorem patch_undoes : ∃ s : Bank Unit Nat, Run (BankStep fun _ _ _ _ => True) .start s ∧
    ∃ a ∈ s.answers, a.status = .ok ∧ ¬Lawful a := by
  have hPosted : Run (BankStep fun _ _ _ _ => True) .start posted := posted_run trivial
  have hAsked := (hPosted.tail (.patch _ 1 () 0 newBankName rfl)).tail (.patch _ 2 () 0 newBik rfl)
  have hRead : Run (BankStep fun _ _ _ _ => True) .start bothRead :=
    (hAsked.tail (.find _ 1 () 0 newBankName kaspi rfl rfl rfl)).tail
      (.find _ 2 () 0 newBik kaspi rfl rfl rfl)
  have hFirst := hRead.trans (bothRead_lone.patch (Table.put_same _ _ _) rfl rfl rfl
    (account_store kaspiBik) trivial)
  have hLone : Lone (bothRead.wrote 2 (.update () 0 newBik kaspi.account) .ok 0 kaspiBik) 0 :=
    bothRead_lone.wrote _ _
  have hSecond := hFirst.trans (hLone.patch (n := 1) rfl rfl rfl rfl
    (account_store { kaspi with bankName := "Halyk" }) trivial)
  refine ⟨_, hSecond, _, List.mem_cons_self, rfl, fun hLaw => ?_⟩
  obtain ⟨old, new, hOld, hNew, hNamed⟩ := (hLaw () 0 newBankName kaspi.account rfl).own
  cases hOld
  cases hNew
  exact absurd (hNamed.bik rfl) (by decide)

end CyberAccountant.Tenancy
