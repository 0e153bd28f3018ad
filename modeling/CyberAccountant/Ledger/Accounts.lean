import CyberAccountant.Library.Transition
import Mathlib.Data.List.Infix

/-! The chart of accounts: the system chart and the subaccounts that organisations add to it.  A
subaccount's code extends the code of its parent, so every chain of parents ends in an account of
the system chart. -/

namespace CyberAccountant.Ledger

open CyberAccountant.Library

abbrev Uuid := Nat

inductive AccountType where
  | asset
  | liability
  | equity
  | income
  | expense
  deriving DecidableEq

/-- A row of `accounts`.  A system account has no organisation. -/
structure Account where
  orgId : Option Uuid
  code : String
  type : AccountType
  parentCode : Option String
  currencyTracked : Bool
  deriving DecidableEq

abbrev Chart := List Account

def systemAccount (entry : String × AccountType) : Account :=
  ⟨none, entry.1, entry.2, none, false⟩

/-- The accounts that migration 008 creates. -/
def systemChart : Chart :=
  [("1010", .asset), ("1030", .asset), ("1210", .asset), ("1250", .asset), ("1310", .asset),
    ("1330", .asset), ("1420", .asset), ("1710", .asset), ("2410", .asset), ("2420", .asset),
    ("2730", .asset), ("3010", .liability), ("3110", .liability), ("3120", .liability),
    ("3130", .liability), ("3150", .liability), ("3210", .liability), ("3220", .liability),
    ("3230", .liability), ("3310", .liability), ("3350", .liability), ("3510", .liability),
    ("4110", .liability), ("5030", .equity), ("5610", .equity), ("5620", .equity),
    ("6010", .income), ("6110", .income), ("6250", .income), ("6290", .income),
    ("7010", .expense), ("7110", .expense), ("7210", .expense), ("7310", .expense),
    ("7430", .expense), ("7480", .expense)].map systemAccount

/-- The condition `org_id IS NULL OR org_id = $1`. -/
def Account.VisibleTo (org : Uuid) (a : Account) : Prop := a.orgId = none ∨ a.orgId = some org

instance (org : Uuid) (a : Account) : Decidable (a.VisibleTo org) :=
  inferInstanceAs (Decidable (_ ∨ _))

/-- The account of a code among those that `org` sees. -/
def findVisible (chart : Chart) (org : Uuid) (code : String) : Option Account :=
  chart.find? fun a => a.VisibleTo org ∧ a.code = code

/-- `code.starts_with(parent)`. -/
def startsWith (code parent : String) : Bool := parent.toList.isPrefixOf code.toList

inductive SubaccountError where
  | parentNotVisible (parentCode : String)
  | codeOutsideParent (code parentCode : String)
  | duplicateAccount
  deriving DecidableEq

def SubaccountError.what : SubaccountError → String
  | .parentNotVisible parentCode =>
    "parent account '" ++ parentCode ++ "' not found or not visible to this organization"
  | .codeOutsideParent code parentCode =>
    "subaccount code '" ++ code ++ "' must start with parent code '" ++ parentCode ++ "'"
  | .duplicateAccount =>
    "An account with that code already exists for this organization (or is a " ++
      "reserved system code)"

/-- The subaccount `code` of `org` under `parentCode`, and the chart with it. -/
def createSubaccount (chart : Chart) (org : Uuid) (code parentCode : String) :
    Except SubaccountError (Account × Chart) :=
  match findVisible chart org parentCode with
  | none => .error (.parentNotVisible parentCode)
  | some parent =>
    if ¬startsWith code parent.code then .error (.codeOutsideParent code parent.code)
    else if (findVisible chart org code).isSome then .error .duplicateAccount
    else
      let row : Account := ⟨some org, code, parent.type, some parent.code, parent.currencyTracked⟩
      .ok (row, chart ++ [row])

/-- One call of `createSubaccount` that succeeds. -/
def ChartStep (chart chart' : Chart) : Prop :=
  ∃ org code parentCode row, createSubaccount chart org code parentCode = .ok (row, chart')

/-- The charts that calls of `createSubaccount` make of the system chart. -/
def ChartReachable : Chart → Prop := Run ChartStep systemChart

/-- The code that the chain of parents of `code` ends in, followed for at most `fuel` accounts. -/
def rootFrom (chart : Chart) (org : Uuid) : Nat → String → String
  | 0, code => code
  | fuel + 1, code =>
    match (findVisible chart org code).bind Account.parentCode with
    | none => code
    | some parentCode => rootFrom chart org fuel parentCode

/-- The code of the system account that the chain of parents of `code` ends in.  Codes get shorter
from account to parent, so their length bounds the chain. -/
def rootCode (chart : Chart) (org : Uuid) (code : String) : String :=
  rootFrom chart org code.length code

theorem findVisible_some {chart : Chart} {org : Uuid} {code : String} {a : Account}
    (h : findVisible chart org code = some a) : a ∈ chart ∧ a.VisibleTo org ∧ a.code = code := by
  have hMem := List.mem_of_find?_eq_some h
  have hTest := List.find?_some h
  exact ⟨hMem, by simpa using hTest⟩

theorem findVisible_none {chart : Chart} {org : Uuid} {code : String}
    (h : findVisible chart org code = none) :
    ∀ a ∈ chart, a.VisibleTo org → a.code ≠ code := by
  intro a hMem hVisible hCode
  have := List.find?_eq_none.mp h a hMem
  exact this (by simpa using ⟨hVisible, hCode⟩)

/-- What a successful call of `createSubaccount` has checked and added. -/
theorem createSubaccount_ok {chart chart' : Chart} {org : Uuid} {code parentCode : String}
    {row : Account} (h : createSubaccount chart org code parentCode = .ok (row, chart')) :
    ∃ parent ∈ chart, parent.VisibleTo org ∧ parent.code = parentCode ∧
      parent.code.toList <+: code.toList ∧ findVisible chart org code = none ∧
      row = ⟨some org, code, parent.type, some parent.code, parent.currencyTracked⟩ ∧
      chart' = chart ++ [row] := by
  unfold createSubaccount at h
  split at h
  · cases h
  · rename_i parent hParent
    obtain ⟨hMem, hVisible, hCode⟩ := findVisible_some hParent
    split_ifs at h with hPrefix hDuplicate
    cases h
    refine ⟨parent, hMem, hVisible, hCode, ?_, by simpa using hDuplicate, rfl, rfl⟩
    simpa [startsWith] using hPrefix

/-! ### Charts that calls reach -/

/-- The facts about a chart that every call keeps: the system accounts are those of migration 008;
a subaccount has a visible parent whose code its own code properly extends; and an organisation
sees one account for a code. -/
structure ChartOk (chart : Chart) : Prop where
  system : ∀ a, a ∈ systemChart ↔ a ∈ chart ∧ a.orgId = none
  parent : ∀ a ∈ chart, ∀ org, a.orgId = some org → ∃ p ∈ chart, p.VisibleTo org ∧
    a.parentCode = some p.code ∧ p.code.toList <+: a.code.toList ∧ p.code ≠ a.code
  unique : ∀ org, ∀ a ∈ chart, ∀ b ∈ chart, a.VisibleTo org → b.VisibleTo org →
    a.code = b.code → a = b

theorem systemChart_orgId {a : Account} (h : a ∈ systemChart) : a.orgId = none := by
  obtain ⟨entry, _, rfl⟩ := List.mem_map.mp h
  rfl

theorem systemChart_parentCode {a : Account} (h : a ∈ systemChart) : a.parentCode = none := by
  obtain ⟨entry, _, rfl⟩ := List.mem_map.mp h
  rfl

theorem systemChart_unique : ∀ a ∈ systemChart, ∀ b ∈ systemChart, a.code = b.code → a = b := by
  decide

theorem systemChart_ok : ChartOk systemChart where
  system a := ⟨fun h => ⟨h, systemChart_orgId h⟩, And.left⟩
  parent a hMem org hOrg := by
    rw [systemChart_orgId hMem] at hOrg
    cases hOrg
  unique _ a hA b hB _ _ hCode := systemChart_unique a hA b hB hCode

theorem ChartOk.step {chart chart' : Chart} (hOk : ChartOk chart) (h : ChartStep chart chart') :
    ChartOk chart' := by
  obtain ⟨org, code, parentCode, row, hCall⟩ := h
  obtain ⟨parent, hParentMem, hVisible, -, hPrefix, hNew, hRow, rfl⟩ := createSubaccount_ok hCall
  have hFresh := findVisible_none hNew
  have hRowOrg : row.orgId = some org := by rw [hRow]
  have hRowCode : row.code = code := by rw [hRow]
  -- The new row clashes with no account that the organisations who see it see.
  have hClash : ∀ org', row.VisibleTo org' → ∀ a ∈ chart, a.VisibleTo org' → a.code ≠ row.code := by
    rintro org' hSees a hMem hA
    rw [Account.VisibleTo, hRowOrg] at hSees
    obtain rfl : org = org' := by simpa using hSees
    rw [hRowCode]
    exact hFresh a hMem hA
  constructor
  · intro a
    rw [hOk.system a]
    constructor
    · rintro ⟨hMem, hNone⟩
      exact ⟨List.mem_append_left _ hMem, hNone⟩
    · rintro ⟨hMem, hNone⟩
      rcases List.mem_append.mp hMem with hMem | hMem
      · exact ⟨hMem, hNone⟩
      · obtain rfl := List.mem_singleton.mp hMem
        rw [hRowOrg] at hNone
        cases hNone
  · intro a hMem org' hOrg
    rcases List.mem_append.mp hMem with hMem | hMem
    · obtain ⟨p, hP, hSees, hRest⟩ := hOk.parent a hMem org' hOrg
      exact ⟨p, List.mem_append_left _ hP, hSees, hRest⟩
    · obtain rfl := List.mem_singleton.mp hMem
      obtain rfl : org = org' := by simpa [hRowOrg] using hOrg
      refine ⟨parent, List.mem_append_left _ hParentMem, hVisible, by rw [hRow], ?_, ?_⟩
      · rw [hRowCode]
        exact hPrefix
      · exact hClash org (.inr hRowOrg) parent hParentMem hVisible
  · intro org' a hA b hB hSeesA hSeesB hCode
    rcases List.mem_append.mp hA with hOldA | hNewA <;>
      rcases List.mem_append.mp hB with hOldB | hNewB
    · exact hOk.unique org' a hOldA b hOldB hSeesA hSeesB hCode
    · obtain rfl := List.mem_singleton.mp hNewB
      exact absurd hCode (hClash org' hSeesB a hOldA hSeesA)
    · obtain rfl := List.mem_singleton.mp hNewA
      exact absurd hCode.symm (hClash org' hSeesA b hOldB hSeesB)
    · rw [List.mem_singleton.mp hNewA, List.mem_singleton.mp hNewB]

theorem ChartReachable.ok {chart : Chart} (h : ChartReachable chart) : ChartOk chart :=
  Run.invariant (fun _ _ hOk hStep => hOk.step hStep) h systemChart_ok

/-! ### Roots -/

namespace ChartOk

variable {chart : Chart} (hOk : ChartOk chart)
include hOk

theorem findVisible_of_mem {org : Uuid} {a : Account} (hMem : a ∈ chart)
    (hSees : a.VisibleTo org) : findVisible chart org a.code = some a := by
  cases hFind : findVisible chart org a.code with
  | none => exact absurd rfl (findVisible_none hFind a hMem hSees)
  | some b =>
    obtain ⟨hB, hSeesB, hCode⟩ := findVisible_some hFind
    rw [hOk.unique org b hB a hMem hSeesB hSees hCode]

/-- A system account is the end of its own chain. -/
theorem rootCode_system {org : Uuid} {a : Account} (h : a ∈ systemChart) :
    rootCode chart org a.code = a.code := by
  have hFind : findVisible chart org a.code = some a :=
    hOk.findVisible_of_mem ((hOk.system a).mp h).1 (.inl (systemChart_orgId h))
  unfold rootCode
  cases a.code.length with
  | zero => rfl
  | succ n => simp [rootFrom, hFind, systemChart_parentCode h]

/-- Enough fuel leads from every account that `org` sees to an account of the system chart. -/
theorem rootFrom_system {org : Uuid} (fuel : Nat) {a : Account} (hMem : a ∈ chart)
    (hSees : a.VisibleTo org) (hFuel : a.code.length ≤ fuel) :
    ∃ s ∈ systemChart, rootFrom chart org fuel a.code = s.code := by
  induction fuel generalizing a with
  | zero =>
    rcases hSees with hNone | hSome
    · exact ⟨a, (hOk.system a).mpr ⟨hMem, hNone⟩, rfl⟩
    · obtain ⟨p, -, -, -, hPrefix, hNe⟩ := hOk.parent a hMem org hSome
      have hLen := hPrefix.length_le
      simp only [String.length_toList] at hLen
      have hEq := hPrefix.eq_of_length (by simp only [String.length_toList]; omega)
      exact absurd (String.toList_injective hEq) hNe
  | succ fuel ih =>
    have hFind := hOk.findVisible_of_mem hMem hSees
    rcases hSees with hNone | hSome
    · have hSystem : a ∈ systemChart := (hOk.system a).mpr ⟨hMem, hNone⟩
      exact ⟨a, hSystem, by simp [rootFrom, hFind, systemChart_parentCode hSystem]⟩
    · obtain ⟨p, hP, hSeesP, hParent, hPrefix, hNe⟩ := hOk.parent a hMem org hSome
      have hLen := hPrefix.length_le
      have hShorter : p.code.toList.length ≠ a.code.toList.length := fun hEq =>
        hNe (String.toList_injective (hPrefix.eq_of_length hEq))
      simp only [String.length_toList] at hLen hShorter
      obtain ⟨s, hS, hRoot⟩ := ih hP hSeesP (by omega)
      exact ⟨s, hS, by simpa [rootFrom, hFind, hParent] using hRoot⟩

/-- The chain of parents of every account that `org` sees ends in the system chart. -/
theorem rootCode_mem_system {org : Uuid} {a : Account} (hMem : a ∈ chart)
    (hSees : a.VisibleTo org) : ∃ s ∈ systemChart, rootCode chart org a.code = s.code :=
  hOk.rootFrom_system a.code.length hMem hSees (le_refl _)

end ChartOk

end CyberAccountant.Ledger
