/-! What a client may write of the input of a form. -/

namespace CyberAccountant.Docgen.InputPolicy

def generateSlugs : List String := ["invoice", "avr", "waybill", "tax_invoice", "reconciliation"]

/-- The whole input is the client's; of any other form the server builds it. -/
def inputIsCallerAuthored (slug : String) : Bool := slug ∈ generateSlugs

/-- The keys that a client may send for a form that the server builds, as dotted paths. -/
def editableFields (slug : String) : List String :=
  if slug = "fno_910" ∨ slug = "fno_300" then ["director", "accountant"]
  else if slug = "hr_order" then ["director", "reason", "details"]
  else if slug = "labor_contract" then
    ["work_schedule", "probation_months", "employer.director", "employer.address", "employee.address"]
  else []

end CyberAccountant.Docgen.InputPolicy
