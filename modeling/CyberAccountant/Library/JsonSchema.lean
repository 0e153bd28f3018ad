import CyberAccountant.Library.Json

/-! Which values a JSON schema admits, for the keywords `type`, `required`, `minimum`, `properties` and
`items`; any other keyword admits every value.  Numbers are integers. -/

namespace CyberAccountant.Library.JsonSchema

def hasType (type : String) (v : Json) : Bool :=
  match v with
  | .null => type = "null"
  | .bool _ => type = "boolean"
  | .int _ => type = "integer" || type = "number"
  | .float _ => type = "number"
  | .str _ => type = "string"
  | .arr _ => type = "array"
  | .obj _ => type = "object"

/-- Of an object, a member of each of the names. -/
def hasMembers (names : List Json) (v : Json) : Bool :=
  !v.isObject || names.all fun name => match name with
    | .str key => (Json.member v.members key).isSome
    | _ => true

def atLeast : Json → Json → Bool
  | .int least, .int n => least ≤ n
  | _, _ => true

/-- The keywords that have no schemas below them. -/
def admitsPlain (keyword : String) (argument v : Json) : Bool :=
  match argument with
  | .str type => keyword ≠ "type" || hasType type v
  | .arr names => keyword ≠ "required" || hasMembers names v
  | argument => keyword ≠ "minimum" || atLeast argument v

def itemsOf : Json → List Json
  | .arr items => items
  | _ => []

mutual

def admits : Json → Json → Bool
  | .obj keywords, v => admitsAll keywords v
  | .bool b, _ => b
  | _, _ => true
termination_by structural schema => schema

def admitsAll : List (String × Json) → Json → Bool
  | [], _ => true
  | (keyword, argument) :: rest, v =>
    (if keyword = "properties" then admitsMembers argument v
      else if keyword = "items" then (itemsOf v).all (admits argument)
      else admitsPlain keyword argument v) && admitsAll rest v
termination_by structural keywords => keywords

def admitsMembers : Json → Json → Bool
  | .obj properties, v => admitsEach properties v.members
  | _, _ => true
termination_by structural properties => properties

/-- A member may be missing. -/
def admitsEach : List (String × Json) → List (String × Json) → Bool
  | [], _ => true
  | (key, schema) :: rest, ms =>
    (match Json.member ms key with
      | none => true
      | some w => admits schema w) && admitsEach rest ms
termination_by structural properties => properties

end

theorem admitsEach_iff {properties ms : List (String × Json)} : admitsEach properties ms = true ↔
    ∀ prop ∈ properties, ∀ w, Json.member ms prop.1 = some w → admits prop.2 w = true := by
  induction properties with
  | nil => simp [admitsEach]
  | cons prop rest ih =>
    obtain ⟨key, schema⟩ := prop
    rw [admitsEach, Bool.and_eq_true, ih, List.forall_mem_cons]
    refine and_congr ?_ Iff.rfl
    cases Json.member ms key with
    | none => simp
    | some w => simp

end CyberAccountant.Library.JsonSchema
