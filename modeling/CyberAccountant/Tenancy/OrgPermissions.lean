import Mathlib.Data.List.Basic

/-! The matrix of rights: what a role may do with a resource.  A role, a resource, a cell or an action
that is not in it is refused. -/

namespace CyberAccountant.Tenancy

/-- The columns of the matrix. -/
def roles : List String := ["owner", "accountant", "hr", "viewer", "agent"]

structure MatrixRow where
  resource : String
  /-- By position in `roles`; a cell may be missing. -/
  grants : List (Option String)
  deriving DecidableEq

def matrixRow (resource owner accountant hr viewer agent : String) : MatrixRow :=
  ⟨resource, [some owner, some accountant, some hr, some viewer, some agent]⟩

def matrix : List MatrixRow :=
  [matrixRow "employees" "rw" "rw" "rw" "r" "rw",
    matrixRow "hr_docs" "rw" "rw" "rw" "r" "rw",
    matrixRow "payroll" "rw" "rw" "" "r" "rw",
    matrixRow "payroll_posting" "rw" "rw" "" "" "rw",
    matrixRow "journal" "rw" "rw" "" "r" "rw",
    matrixRow "counterparties" "rw" "rw" "" "r" "rw",
    matrixRow "documents" "rw" "rw" "" "r" "rw",
    matrixRow "tax" "rw" "rw" "" "r" "rw",
    matrixRow "members" "rw" "" "" "" "",
    matrixRow "requisites" "rw" "r" "" "r" "r",
    matrixRow "templates" "rw" "rw" "" "r" "rw",
    matrixRow "hr_templates" "rw" "rw" "rw" "r" "rw"]

/-- The cell of a role and a resource. -/
def grantFor (rows : List MatrixRow) (role resource : String) : Option String := do
  let column ← roles.findIdx? (· = role)
  let row ← rows.find? (·.resource = resource)
  (row.grants[column]?).join

/-- Whether the role may do the action with the resource. -/
def allows (role resource action : String) : Bool :=
  match grantFor matrix role resource with
  | none => false
  | some granted =>
    if action = "read" then granted ≠ ""
    else if action = "write" then 'w' ∈ granted.toList
    else false

end CyberAccountant.Tenancy
