import CyberAccountant.Docgen.TemplateRegistry
import CyberAccountant.Library.Fuel
import CyberAccountant.Library.Json
import CyberAccountant.Security.Jwt

/-! What an input leaves out, filled in before the render from what the schema of the template declares. -/

namespace CyberAccountant.Docgen.TemplateRegistry

open CyberAccountant.Library CyberAccountant.Security.Jwt

/-- Why a call does not return. -/
inductive Halt where
  /-- The calls are nested more deeply than the fuel allows. -/
  | exhausted
  | thrown (error : TypeError)

/-- The name after `#/definitions/`. -/
def definitionName (ref : String) : Option String :=
  if "#/definitions/".toList <+: ref.toList then some (String.ofList (ref.toList.drop 14)) else none

/-- The definition that a node refers to; any other node is its own. -/
def resolveRef (root node : Json) : Except TypeError Json :=
  match Json.member node.members "$ref" with
  | none => .ok node
  | some (.str ref) => .ok (((definitionName ref).bind fun name => root.at? ["definitions", name]).getD node)
  | some _ => .error .notString

def properties (node : Json) : Option (List (String × Json)) :=
  match Json.member node.members "properties" with
  | some (.obj props) => some props
  | _ => none

/-- A round of the loop: what is missing is made, an object that is there is filled. -/
def fillMember (default : Json → Except Halt Json) (fill : Json → Json → Except Halt Json)
    (ms : List (String × Json)) (prop : String × Json) : Except Halt (List (String × Json)) :=
  match Json.member ms prop.1 with
  | none => do return Json.setMember ms prop.1 (← default prop.2)
  | some (.obj inner) => do return Json.setMember ms prop.1 (← fill prop.2 (.obj inner))
  | some _ => return ms

section

variable (root : Json)

mutual

def defaultFor : Nat → Json → Except Halt Json
  | 0, _ => .error .exhausted
  | fuel + 1, nodeIn => do
    let node ← (resolveRef root nodeIn).mapError .thrown
    let type ← (value node "type" "").mapError .thrown
    if type = "object" then fillObject fuel node (.obj [])
    else if type = "array" then return .arr []
    else if type = "string" then return .str ""
    -- An amount that is left out is not an amount of zero.
    else return .null

def fillObject : Nat → Json → Json → Except Halt Json
  | 0, _, _ => .error .exhausted
  | fuel + 1, nodeIn, input => do
    let node ← (resolveRef root nodeIn).mapError .thrown
    match input, properties node with
    | .obj ms, some props =>
      let filled ← props.foldlM (fillMember (defaultFor fuel) (fillObject fuel)) ms
      return .obj filled
    | _, _ => return input

end

end

/-- The input that the template is given; arrays are left as they are. -/
def normalizeInput (fuel : Nat) (schema input : Json) : Except Halt Json :=
  if input.isObject then fillObject schema fuel schema input else .ok input

/-! ### What a schema declares -/

/-- The properties of a node, after its reference. -/
def declared (root node : Json) : List (String × Json) :=
  match resolveRef root node with
  | .ok node => (properties node).getD []
  | .error _ => []

/-- The node that is declared at a path of properties. -/
def schemaAt (root : Json) : Json → List String → Option Json
  | node, [] => some node
  | node, key :: path => (Json.member (declared root node) key).bind (schemaAt root · path)

/-- Nodes of the dialect: an object, or a reference to a definition that is no reference itself, whose `type`
is a text. -/
def WellFormed (root node : Json) : Prop :=
  ∃ target, resolveRef root node = .ok target ∧ resolveRef root target = .ok target ∧
    ∃ type, value target "type" "" = .ok type

/-- A property that is an object when it is left out. -/
def Nests (root sub node : Json) : Prop :=
  (∃ key, Json.member (declared root node) key = some sub) ∧
    ∃ target, resolveRef root sub = .ok target ∧ value target "type" "" = .ok "object"

/-- A schema of the dialect, in which no object that is left out has to contain itself. -/
structure Dialect (schema : Json) : Prop where
  ordered : schema.Ordered
  wellFormed : ∀ path node, schemaAt schema schema path = some node → WellFormed schema node
  ends : ∀ path node, schemaAt schema schema path = some node → Acc (Nests schema) node

/-- What becomes of a value: an object may get members, any other value stays. -/
def Kept (inner inner' : Json) : Prop := inner' = inner ∨ inner.isObject ∧ inner'.isObject

/-- Each object has the properties that are declared for it. -/
def Filled (root node v : Json) : Prop :=
  ∀ path key, (schemaAt root node (path ++ [key])).isSome → (v.at? path).any Json.isObject →
    (v.at? (path ++ [key])).isSome

/-- What `before` is filled up to, from nothing or from a value. -/
structure Fills (root node : Json) (before : Option Json) (after : Json) : Prop where
  filled : Filled root node after
  ordered : after.Ordered
  kept : ∀ path inner, before.bind (·.at? path) = some inner →
    ∃ inner', after.at? path = some inner' ∧ Kept inner inner'
  isDeclared : ∀ path, (after.at? path).isSome → (before.bind (·.at? path)).isSome ∨ (schemaAt root node path).isSome

section

variable {root node target sub v : Json} {key : String} {ms props : List (String × Json)}

theorem schemaAt_append (path q : List String) :
    schemaAt root node (path ++ q) = (schemaAt root node path).bind (schemaAt root · q) := by
  induction path generalizing node with
  | nil => rfl
  | cons key path ih =>
    rw [List.cons_append, schemaAt, schemaAt, Option.bind_assoc]
    exact congrArg (Option.bind _) (funext fun _ => ih)

theorem schemaAt_cons_isSome {path : List String} :
    (schemaAt root node (key :: path)).isSome ↔
      ∃ sub, Json.member (declared root node) key = some sub ∧ (schemaAt root sub path).isSome := by
  rw [schemaAt]
  cases Json.member (declared root node) key <;> simp

theorem at?_cons_isSome {path : List String} :
    (v.at? (key :: path)).isSome ↔ ∃ w, Json.member v.members key = some w ∧ (w.at? path).isSome := by
  rw [Json.at?_cons]
  cases Json.member v.members key <;> simp

theorem filled_of_not_object (h : v.isObject = false) : Filled root node v := by
  intro path key _ hObject
  cases path with
  | nil =>
    rw [Json.at?_nil, Option.any_some, h] at hObject
    cases hObject
  | cons first path =>
    have hNone : v.members = [] := by
      cases v with
      | obj ms => cases h
      | _ => rfl
    rw [Json.at?_cons, hNone] at hObject
    cases hObject

theorem filled_obj : Filled root node (.obj ms) ↔
    ∀ key sub, Json.member (declared root node) key = some sub →
      ∃ w, Json.member ms key = some w ∧ Filled root sub w := by
  constructor
  · intro h key sub hSub
    obtain ⟨w, hMember, -⟩ := at?_cons_isSome.mp (h [] key (schemaAt_cons_isSome.mpr ⟨sub, hSub, rfl⟩) rfl)
    refine ⟨w, hMember, fun path last hDeclared hObject => ?_⟩
    have hAt : (Json.obj ms).at? (key :: path) = w.at? path := by
      rw [Json.at?_cons, hMember]
      rfl
    obtain ⟨w', hMember', hSome⟩ := at?_cons_isSome.mp
      (h (key :: path) last (schemaAt_cons_isSome.mpr ⟨sub, hSub, hDeclared⟩) (by rw [hAt]; exact hObject))
    rw [hMember] at hMember'
    cases hMember'
    exact hSome
  · intro h path key hDeclared hObject
    cases path with
    | nil =>
      obtain ⟨sub, hSub, -⟩ := schemaAt_cons_isSome.mp hDeclared
      obtain ⟨w, hMember, -⟩ := h key sub hSub
      exact at?_cons_isSome.mpr ⟨w, hMember, rfl⟩
    | cons first path =>
      obtain ⟨sub, hSub, hBelow⟩ := schemaAt_cons_isSome.mp hDeclared
      obtain ⟨w, hMember, hFilled⟩ := h first sub hSub
      rw [Json.at?_cons, Json.members, hMember] at hObject
      exact at?_cons_isSome.mpr ⟨w, hMember, hFilled path key hBelow hObject⟩

theorem Fills.refl (hFilled : Filled root node v) (hOrder : v.Ordered) : Fills root node (some v) v where
  filled := hFilled
  ordered := hOrder
  kept := fun _ inner hAt => ⟨inner, hAt, .inl rfl⟩
  isDeclared := fun _ hAt => .inl hAt

theorem declared_eq (h : resolveRef root node = .ok target) :
    declared root node = (properties target).getD [] := by
  rw [declared, h]

/-- An object is filled as each of its members is. -/
theorem fills_obj {ms' : List (String × Json)} (hOrder : Json.Ascending ms') (hOrdered : (Json.obj ms).Ordered)
    (hProps : ∀ key sub, Json.member (declared root node) key = some sub →
      ∃ w, Json.member ms' key = some w ∧ Fills root sub (Json.member ms key) w)
    (hOthers : ∀ key, Json.member (declared root node) key = none → Json.member ms' key = Json.member ms key) :
    Fills root node (some (.obj ms)) (.obj ms') where
  filled := filled_obj.mpr fun key sub hSub => by
    obtain ⟨w, hMember, hFills⟩ := hProps key sub hSub
    exact ⟨w, hMember, hFills.filled⟩
  ordered := by
    refine Json.ordered_obj.mpr ⟨hOrder, fun key v hMember => ?_⟩
    cases hSub : Json.member (declared root node) key with
    | none =>
      rw [hOthers key hSub] at hMember
      exact (Json.ordered_obj.mp hOrdered).2 key v hMember
    | some sub =>
      obtain ⟨w, hMember', hFills⟩ := hProps key sub hSub
      rw [hMember] at hMember'
      cases hMember'
      exact hFills.ordered
  kept := by
    intro path inner hAt
    cases path with
    | nil =>
      cases hAt
      exact ⟨.obj ms', rfl, .inr ⟨rfl, rfl⟩⟩
    | cons key path =>
      have hBelow : (Json.member ms key).bind (·.at? path) = some inner := hAt
      cases hSub : Json.member (declared root node) key with
      | none =>
        refine ⟨inner, ?_, .inl rfl⟩
        rw [Json.at?_cons, Json.members, hOthers key hSub]
        exact hBelow
      | some sub =>
        obtain ⟨w, hMember, hFills⟩ := hProps key sub hSub
        obtain ⟨inner', hInner, hKept⟩ := hFills.kept path inner hBelow
        refine ⟨inner', ?_, hKept⟩
        rw [Json.at?_cons, Json.members, hMember]
        exact hInner
  isDeclared := by
    intro path hAt
    cases path with
    | nil => exact .inl rfl
    | cons key path =>
      obtain ⟨w, hMember, hSome⟩ := at?_cons_isSome.mp hAt
      cases hSub : Json.member (declared root node) key with
      | none =>
        rw [Json.members, hOthers key hSub] at hMember
        exact .inl (at?_cons_isSome.mpr ⟨w, hMember, hSome⟩)
      | some sub =>
        obtain ⟨w', hMember', hFills⟩ := hProps key sub hSub
        rw [Json.members, hMember'] at hMember
        cases hMember
        exact (hFills.isDeclared path hSome).imp id fun hBelow => schemaAt_cons_isSome.mpr ⟨sub, hSub, hBelow⟩

/-! ### What a round does -/

/-- The call that a round makes for a property returns. -/
def Fillable (root sub : Json) : Option Json → Prop
  | none => ∃ w, Returns (fun fuel => defaultFor root fuel sub) w ∧ Fills root sub none w
  | some v => v.isObject → ∃ w, Returns (fun fuel => fillObject root fuel sub v) w ∧ Fills root sub (some v) w

theorem fillMember_returns (hOrder : Json.Ascending ms) (hOrdered : ∀ v, Json.member ms key = some v → v.Ordered)
    (h : Fillable root sub (Json.member ms key)) :
    ∃ w, Returns (fun fuel => fillMember (defaultFor root fuel) (fillObject root fuel) ms (key, sub))
        (Json.setMember ms key w) ∧ Fills root sub (Json.member ms key) w := by
  cases hMember : Json.member ms key with
  | none =>
    rw [hMember] at h
    obtain ⟨w, hReturns, hFills⟩ := h
    refine ⟨w, ?_, hFills⟩
    simp only [fillMember, hMember]
    exact hReturns.bind (returns_ok _)
  | some v =>
    rw [hMember] at h
    cases hObject : v.isObject with
    | false =>
      refine ⟨v, ?_, .refl (filled_of_not_object hObject) (hOrdered v hMember)⟩
      have hSame : (fun fuel => fillMember (defaultFor root fuel) (fillObject root fuel) ms (key, sub)) =
          fun _ => .ok ms := by
        funext fuel
        rw [fillMember, hMember]
        cases v with
        | obj inner => cases hObject
        | _ => rfl
      rw [hSame, hOrder.setMember_same hMember]
      exact returns_ok ms
    | true =>
      obtain ⟨w, hReturns, hFills⟩ := h hObject
      refine ⟨w, ?_, hFills⟩
      cases v with
      | obj inner =>
        simp only [fillMember, hMember]
        exact hReturns.bind (returns_ok _)
      | _ => cases hObject

/-- The members during the loop, when the rounds for `rest` are still to come. -/
structure Filling (root : Json) (props ms rest cur : List (String × Json)) : Prop where
  suffix : rest <:+ props
  ascending : Json.Ascending cur
  pending : ∀ prop ∈ rest, Json.member cur prop.1 = Json.member ms prop.1
  done : ∀ prop ∈ props, prop ∈ rest ∨
    ∃ w, Json.member cur prop.1 = some w ∧ Fills root prop.2 (Json.member ms prop.1) w
  others : ∀ key, Json.member props key = none → Json.member cur key = Json.member ms key

theorem Filling.step {rest cur : List (String × Json)} {w : Json} (hProps : Json.Ascending props)
    (h : Filling root props ms ((key, sub) :: rest) cur) (hFills : Fills root sub (Json.member ms key) w) :
    Filling root props ms rest (Json.setMember cur key w) := by
  have hMem : (key, sub) ∈ props := h.suffix.mem List.mem_cons_self
  have hLater : ∀ prop ∈ rest, prop.1 ≠ key := fun prop hProp =>
    ne_of_gt ((List.pairwise_cons.mp (hProps.sublist h.suffix.sublist)).1 prop hProp)
  refine ⟨(List.suffix_cons _ _).trans h.suffix, h.ascending.setMember, fun prop hProp => ?_, fun prop hProp => ?_,
    fun other hOther => ?_⟩
  · rw [Json.member_setMember_other (hLater prop hProp)]
    exact h.pending prop (List.mem_cons_of_mem _ hProp)
  · by_cases hKey : prop.1 = key
    · have hSame : prop.2 = sub := by
        have hFirst := hProps.member_of_mem hProp
        rw [hKey, hProps.member_of_mem hMem] at hFirst
        exact (Option.some.inj hFirst).symm
      refine .inr ⟨w, ?_, ?_⟩
      · rw [hKey, Json.member_setMember_same]
      · rw [hSame, hKey]
        exact hFills
    · rw [Json.member_setMember_other hKey]
      refine (h.done prop hProp).imp (fun hRest => ?_) id
      exact (List.mem_cons.mp hRest).resolve_left fun hSame => hKey (by rw [hSame])
  · have hNe : other ≠ key := by
      rintro rfl
      rw [hProps.member_of_mem hMem] at hOther
      cases hOther
    rw [Json.member_setMember_other hNe]
    exact h.others other hOther

/-- The loop returns if the calls of its rounds do. -/
theorem fillMembers_return (hProps : Json.Ascending props) (hOrdered : (Json.obj ms).Ordered)
    (h : ∀ prop ∈ props, Fillable root prop.2 (Json.member ms prop.1)) :
    ∃ ms', Returns (fun fuel => props.foldlM (fillMember (defaultFor root fuel) (fillObject root fuel)) ms) ms' ∧
      Filling root props ms [] ms' := by
  obtain ⟨hOrder, hMembers⟩ := Json.ordered_obj.mp hOrdered
  refine returns_foldlM (Filling root props ms) (fun prop rest cur hFilling => ?_)
    ⟨List.suffix_refl props, hOrder, fun _ _ => rfl, fun _ hProp => .inl hProp, fun _ _ => rfl⟩
  obtain ⟨key, sub⟩ := prop
  have hBefore : Json.member cur key = Json.member ms key := hFilling.pending _ List.mem_cons_self
  obtain ⟨w, hReturns, hFills⟩ := @fillMember_returns root sub key cur hFilling.ascending
    (fun v hMember => hMembers key v (by rw [← hBefore, hMember]))
    (by rw [hBefore]; exact h _ (hFilling.suffix.mem List.mem_cons_self))
  rw [hBefore] at hFills
  exact ⟨_, hReturns, hFilling.step hProps hFills⟩

/-- The call for an object: the loop, unless the node declares nothing. -/
theorem fillObject_obj (hTarget : resolveRef root node = .ok target) :
    (properties target = none ∧ (fun fuel => fillObject root (fuel + 1) node (.obj ms)) = fun _ => .ok (.obj ms)) ∨
    ∃ props, properties target = some props ∧
      (fun fuel => fillObject root (fuel + 1) node (.obj ms)) = fun fuel =>
        props.foldlM (fillMember (defaultFor root fuel) (fillObject root fuel)) ms >>= fun filled =>
          .ok (.obj filled) := by
  cases hProperties : properties target with
  | none =>
    refine .inl ⟨rfl, funext fun fuel => ?_⟩
    rw [fillObject, hTarget]
    simp only [Except.mapError, bind, Except.bind, hProperties]
    rfl
  | some props =>
    refine .inr ⟨props, rfl, funext fun fuel => ?_⟩
    rw [fillObject, hTarget]
    simp only [Except.mapError, bind, Except.bind, hProperties]
    rfl

theorem fillObject_plain (hTarget : resolveRef root node = .ok target) (h : v.isObject = false) (fuel : Nat) :
    fillObject root (fuel + 1) node v = .ok v := by
  rw [fillObject, hTarget]
  cases v with
  | obj ms => cases h
  | _ => rfl

/-- An object is filled if the calls for its properties return. -/
theorem fillObject_of_members (hTarget : resolveRef root node = .ok target)
    (hProps : Json.Ascending (declared root node)) (hOrdered : v.Ordered)
    (h : ∀ key sub, Json.member (declared root node) key = some sub → Fillable root sub (Json.member v.members key)) :
    ∃ w, Returns (fun fuel => fillObject root fuel node v) w ∧ Fills root node (some v) w := by
  cases hObject : v.isObject with
  | false =>
    exact ⟨v, Returns.of_call ⟨0, fun fuel _ => fillObject_plain hTarget hObject fuel⟩,
      .refl (filled_of_not_object hObject) hOrdered⟩
  | true =>
    cases v with
    | obj ms =>
      rcases fillObject_obj hTarget with ⟨hNone, hCall⟩ | ⟨props, hSome, hCall⟩
      · refine ⟨.obj ms, Returns.of_call ?_, .refl (filled_obj.mpr fun key sub hSub => ?_) hOrdered⟩
        · rw [hCall]
          exact returns_ok _
        · rw [declared_eq hTarget, hNone] at hSub
          cases hSub
      · have hDeclared : declared root node = props := by
          rw [declared_eq hTarget, hSome]
          rfl
        rw [hDeclared] at hProps h
        obtain ⟨ms', hReturns, hFilling⟩ := fillMembers_return hProps hOrdered fun prop hProp =>
          h prop.1 prop.2 (hProps.member_of_mem hProp)
        refine ⟨.obj ms', Returns.of_call ?_, fills_obj hFilling.ascending hOrdered (fun key sub hSub => ?_)
          fun key hSub => ?_⟩
        · rw [hCall]
          exact hReturns.bind (returns_ok _)
        · rw [hDeclared] at hSub
          rcases hFilling.done (key, sub) (Json.mem_of_member hSub) with hRest | hDone
          · cases hRest
          · exact hDone
        · rw [hDeclared] at hSub
          exact hFilling.others key hSub
    | _ => cases hObject

/-! ### The nodes of a schema -/

/-- The node is in the schema, below no array. -/
def Part (root node : Json) : Prop := ∃ path, root.at? path = some node

theorem Part.below (h : Part root node) {path : List String} (hAt : node.at? path = some sub) : Part root sub := by
  obtain ⟨above, hNode⟩ := h
  exact ⟨above ++ path, by rw [Json.at?_append, hNode]; exact hAt⟩

theorem Part.resolved (h : Part root node) (hTarget : resolveRef root node = .ok target) : Part root target := by
  unfold resolveRef at hTarget
  split at hTarget
  · cases hTarget
    exact h
  · rename_i ref _
    cases hTarget
    cases hDefinition : (definitionName ref).bind fun name => root.at? ["definitions", name] with
    | none => exact h
    | some definition =>
      obtain ⟨name, -, hAt⟩ := Option.bind_eq_some_iff.mp hDefinition
      exact ⟨["definitions", name], hAt⟩
  · cases hTarget

theorem properties_eq (h : properties node = some props) : node.at? ["properties"] = some (.obj props) := by
  rw [Json.at?_cons]
  unfold properties at h
  split at h
  · rename_i props' hMember
    cases h
    rw [hMember]
    rfl
  · cases h

/-- What a node declares is a part of the schema. -/
theorem declared_part (h : Part root node) : declared root node = [] ∨ Part root (.obj (declared root node)) := by
  cases hTarget : resolveRef root node with
  | error e => exact .inl (by rw [declared, hTarget])
  | ok target =>
    rw [declared_eq hTarget]
    cases hProps : properties target with
    | none => exact .inl rfl
    | some props => exact .inr ((h.resolved hTarget).below (properties_eq hProps))

theorem Part.property (h : Part root node) (hSub : Json.member (declared root node) key = some sub) :
    Part root sub := by
  rcases declared_part h with hNone | hPart
  · rw [hNone] at hSub
    cases hSub
  · have hAt : (Json.obj (declared root node)).at? [key] = some sub := by
      rw [Json.at?_cons, Json.members, hSub]
      rfl
    exact hPart.below hAt

theorem declared_ascending (hRoot : root.Ordered) (h : Part root node) : Json.Ascending (declared root node) := by
  rcases declared_part h with hNone | ⟨path, hAt⟩
  · rw [hNone]
    exact List.Pairwise.nil
  · exact hRoot path _ hAt

/-- A node that paths of properties lead to. -/
def Reached (root node : Json) : Prop := ∃ path, schemaAt root root path = some node

theorem Reached.property (h : Reached root node) (hSub : Json.member (declared root node) key = some sub) :
    Reached root sub := by
  obtain ⟨path, hNode⟩ := h
  refine ⟨path ++ [key], ?_⟩
  rw [schemaAt_append, hNode, Option.bind_some, schemaAt, hSub]
  rfl

theorem part_of_schemaAt {path : List String} (h : Part root node) (hSub : schemaAt root node path = some sub) :
    Part root sub := by
  induction path generalizing node with
  | nil =>
    cases hSub
    exact h
  | cons key path ih =>
    obtain ⟨next, hNext, hBelow⟩ := Option.bind_eq_some_iff.mp hSub
    exact ih (h.property hNext) hBelow

theorem Dialect.ascending (h : Dialect root) (hNode : Reached root node) : Json.Ascending (declared root node) := by
  obtain ⟨path, hAt⟩ := hNode
  exact declared_ascending h.ordered (part_of_schemaAt ⟨[], rfl⟩ hAt)

/-! ### What is left out -/

/-- Something made from nothing has only what is declared. -/
theorem fills_none {w : Json} (hFilled : Filled root node w) (hOrder : w.Ordered)
    (h : ∀ path, (w.at? path).isSome → (schemaAt root node path).isSome) : Fills root node none w where
  filled := hFilled
  ordered := hOrder
  kept := fun _ _ hAt => nomatch hAt
  isDeclared := fun path hAt => .inr (h path hAt)

theorem fills_plain {w : Json} (h : w.isObject = false) : Fills root node none w := by
  refine fills_none (filled_of_not_object h) (Json.ordered_of_not_object h) fun path hAt => ?_
  cases path with
  | nil => rfl
  | cons key path =>
    obtain ⟨inner, hMember, -⟩ := at?_cons_isSome.mp hAt
    cases w with
    | obj ms => cases h
    | _ => cases hMember

theorem fills_none_of_empty {w : Json} (h : Fills root node (some (.obj [])) w) : Fills root node none w := by
  refine fills_none h.filled h.ordered fun path hAt => ?_
  rcases h.isDeclared path hAt with hBefore | hDeclared
  · cases path with
    | nil => rfl
    | cons key path => cases hBefore
  · exact hDeclared

theorem fillObject_target (hTarget : resolveRef root node = .ok target) (hSelf : resolveRef root target = .ok target)
    (fuel : Nat) : fillObject root fuel target v = fillObject root fuel node v := by
  cases fuel with
  | zero => rfl
  | succ fuel => rw [fillObject, fillObject, hTarget, hSelf]

/-- The default returns, if that of an object does. -/
theorem defaultFor_returns (h : WellFormed root node)
    (hObject : (∃ target, resolveRef root node = .ok target ∧ value target "type" "" = .ok "object") →
      ∃ w, Returns (fun fuel => fillObject root fuel node (.obj [])) w ∧ Fills root node none w) :
    ∃ w, Returns (fun fuel => defaultFor root fuel node) w ∧ Fills root node none w := by
  obtain ⟨target, hTarget, hSelf, type, hType⟩ := h
  have hCall : (fun fuel => defaultFor root (fuel + 1) node) = fun fuel =>
      if type = "object" then fillObject root fuel node (.obj [])
      else if type = "array" then .ok (.arr [])
      else if type = "string" then .ok (.str "")
      else .ok .null := by
    funext fuel
    rw [defaultFor, hTarget]
    simp only [Except.mapError, bind, Except.bind, hType, fillObject_target hTarget hSelf]
    rfl
  by_cases hIs : type = "object"
  · obtain ⟨w, hReturns, hFills⟩ := hObject ⟨target, hTarget, by rw [hType, hIs]⟩
    refine ⟨w, Returns.of_call ?_, hFills⟩
    rw [hCall]
    simp only [if_pos hIs]
    exact hReturns
  · have hPlain : ∃ w : Json, (fun fuel => defaultFor root (fuel + 1) node) = (fun _ => .ok w) ∧
        w.isObject = false := by
      rw [hCall]
      simp only [if_neg hIs]
      split
      · exact ⟨_, rfl, rfl⟩
      · split
        · exact ⟨_, rfl, rfl⟩
        · exact ⟨_, rfl, rfl⟩
    obtain ⟨w, hRun, hNot⟩ := hPlain
    refine ⟨w, Returns.of_call ?_, fills_plain hNot⟩
    rw [hRun]
    exact returns_ok w

/-- An object that is left out is made, by induction on the objects that it nests. -/
theorem emptyObject_returns (h : Dialect root) (hEnds : Acc (Nests root) node) (hNode : Reached root node) :
    ∃ w, Returns (fun fuel => fillObject root fuel node (.obj [])) w ∧ Fills root node none w := by
  induction hEnds with
  | intro node _ ih =>
    obtain ⟨path, hAt⟩ := hNode
    obtain ⟨target, hTarget, -⟩ := h.wellFormed path node hAt
    have hReached : Reached root node := ⟨path, hAt⟩
    obtain ⟨w, hReturns, hFills⟩ := fillObject_of_members hTarget (h.ascending hReached)
      (Json.ordered_obj.mpr ⟨List.Pairwise.nil, fun _ _ hMember => nomatch hMember⟩) fun key sub hSub => by
        obtain ⟨path', hAt'⟩ := hReached.property hSub
        exact defaultFor_returns (h.wellFormed path' sub hAt') fun hType =>
          ih sub ⟨⟨key, hSub⟩, hType⟩ ⟨path', hAt'⟩
    exact ⟨w, hReturns, fills_none_of_empty hFills⟩

/-! ### What is there -/

/-- A value is filled, by induction on the value. -/
theorem fillObject_returns {node v : Json} (h : Dialect root) (hNode : Reached root node) (hOrdered : v.Ordered) :
    ∃ w, Returns (fun fuel => fillObject root fuel node v) w ∧ Fills root node (some v) w := by
  obtain ⟨path, hAt⟩ := hNode
  obtain ⟨target, hTarget, -⟩ := h.wellFormed path node hAt
  have hReached : Reached root node := ⟨path, hAt⟩
  refine fillObject_of_members hTarget (h.ascending hReached) hOrdered fun key sub hSub => ?_
  have hBelow := hReached.property hSub
  cases hMember : Json.member v.members key with
  | none =>
    obtain ⟨path', hAt'⟩ := hBelow
    exact defaultFor_returns (h.wellFormed path' sub hAt') fun _ =>
      emptyObject_returns h (h.ends path' sub hAt') ⟨path', hAt'⟩
  | some inner =>
    intro _
    cases v with
    | obj ms =>
      have hSmaller := Json.sizeOf_member hMember
      exact fillObject_returns h hBelow ((Json.ordered_obj.mp hOrdered).2 key inner hMember)
    | _ => cases hMember
termination_by sizeOf v

/-- The rounds for properties that are there change nothing, if the calls for the objects among them do not. -/
theorem fillMembers_same (hOrdered : (Json.obj ms).Ordered)
    (h : ∀ prop ∈ props, ∃ w, Json.member ms prop.1 = some w ∧
      (w.isObject → Returns (fun fuel => fillObject root fuel prop.2 w) w)) :
    Returns (fun fuel => props.foldlM (fillMember (defaultFor root fuel) (fillObject root fuel)) ms) ms := by
  have hOrder := (Json.ordered_obj.mp hOrdered).1
  induction props with
  | nil => exact returns_ok ms
  | cons prop rest ih =>
    rw [List.forall_mem_cons] at h
    obtain ⟨⟨w, hMember, hSame⟩, hRest⟩ := h
    have hRound : Returns (fun fuel => fillMember (defaultFor root fuel) (fillObject root fuel) ms prop) ms := by
      cases w with
      | obj inner =>
        have hSet : Returns (fun _ => (.ok (Json.setMember ms prop.1 (.obj inner)) : Except Halt _)) ms := by
          rw [hOrder.setMember_same hMember]
          exact returns_ok ms
        simp only [fillMember, hMember]
        exact (hSame rfl).bind hSet
      | _ =>
        simp only [fillMember, hMember]
        exact returns_ok ms
    exact hRound.bind (ih hRest)

/-- What is filled stays as it is, by induction on the value. -/
theorem fillObject_same {node v : Json} (h : Dialect root) (hNode : Reached root node) (hOrdered : v.Ordered)
    (hFilled : Filled root node v) : Returns (fun fuel => fillObject root fuel node v) v := by
  obtain ⟨path, hAt⟩ := hNode
  obtain ⟨target, hTarget, -⟩ := h.wellFormed path node hAt
  have hReached : Reached root node := ⟨path, hAt⟩
  cases v with
  | obj ms =>
    have hProps : ∀ key sub, Json.member (declared root node) key = some sub → ∃ w, Json.member ms key = some w ∧
        (w.isObject → Returns (fun fuel => fillObject root fuel sub w) w) := by
      intro key sub hSub
      obtain ⟨w, hMember, hBelow⟩ := filled_obj.mp hFilled key sub hSub
      have hSmaller := Json.sizeOf_member hMember
      exact ⟨w, hMember, fun _ => fillObject_same h (hReached.property hSub)
        ((Json.ordered_obj.mp hOrdered).2 key w hMember) hBelow⟩
    apply Returns.of_call
    rcases fillObject_obj hTarget with ⟨hNone, hCall⟩ | ⟨props, hSome, hCall⟩
    · rw [hCall]
      exact returns_ok _
    · rw [hCall]
      have hDeclared : declared root node = props := by
        rw [declared_eq hTarget, hSome]
        rfl
      have hOrder := h.ascending hReached
      rw [hDeclared] at hProps hOrder
      have hLoop := @fillMembers_same root ms props hOrdered fun prop hProp =>
        hProps prop.1 prop.2 (hOrder.member_of_mem hProp)
      exact hLoop.bind (returns_ok _)
  | _ => exact Returns.of_call ⟨0, fun fuel _ => fillObject_plain hTarget rfl fuel⟩
termination_by sizeOf v

end

/-- An input is filled with what its schema declares and it leaves out, at every depth outside of arrays; the
rest of it stays, and to fill it again changes nothing. -/
theorem normalizeInput_fills {schema input : Json} (hSchema : Dialect schema) (hInput : input.Ordered) :
    ∃ out, Returns (fun fuel => normalizeInput fuel schema input) out ∧
      Returns (fun fuel => normalizeInput fuel schema out) out ∧
      (∀ path inner, input.at? path = some inner → ∃ inner', out.at? path = some inner' ∧ Kept inner inner') ∧
      (∀ path, (out.at? path).isSome → (input.at? path).isSome ∨ (schemaAt schema schema path).isSome) ∧
      ∀ path key, (schemaAt schema schema (path ++ [key])).isSome → (out.at? path).any Json.isObject →
        (out.at? (path ++ [key])).isSome := by
  cases hObject : input.isObject with
  | false =>
    have hCall : (fun fuel => normalizeInput fuel schema input) = fun _ => .ok input := by
      funext fuel
      rw [normalizeInput, hObject]
      rfl
    have hReturns : Returns (fun fuel => normalizeInput fuel schema input) input := by
      rw [hCall]
      exact returns_ok input
    exact ⟨input, hReturns, hReturns, fun path inner hAt => ⟨inner, hAt, .inl rfl⟩, fun path hAt => .inl hAt,
      filled_of_not_object hObject⟩
  | true =>
    have hRoot : Reached schema schema := ⟨[], rfl⟩
    obtain ⟨out, hReturns, hFills⟩ := fillObject_returns hSchema hRoot hInput
    have hOut : out.isObject := by
      obtain ⟨out', hAt, hKept⟩ := hFills.kept [] input rfl
      cases hAt
      rcases hKept with rfl | ⟨-, hIs⟩
      · exact hObject
      · exact hIs
    have hAgain := fillObject_same hSchema hRoot hFills.ordered hFills.filled
    refine ⟨out, ?_, ?_, hFills.kept, hFills.isDeclared, hFills.filled⟩
    · simp only [normalizeInput, hObject]
      exact hReturns
    · simp only [normalizeInput, hOut]
      exact hAgain

/-! ### Schemas that are checked by running -/

def isWellFormed (root node : Json) : Bool :=
  match resolveRef root node with
  | .ok target => (Json.member target.members "$ref").isNone && (value target "type" "").isOk
  | .error _ => false

/-- The nodes that paths of at most this length lead to are of the dialect, and no path is longer. -/
def closes (root : Json) : Nat → Json → Bool
  | 0, _ => false
  | depth + 1, node => isWellFormed root node && (declared root node).all fun prop => closes root depth prop.2

theorem wellFormed_of_check {root node : Json} (h : isWellFormed root node = true) : WellFormed root node := by
  unfold isWellFormed at h
  split at h
  · rename_i target hTarget
    rw [Bool.and_eq_true, Option.isNone_iff_eq_none] at h
    obtain ⟨hRef, hType⟩ := h
    refine ⟨target, hTarget, by rw [resolveRef, hRef], ?_⟩
    cases hValue : value target "type" "" with
    | error e =>
      rw [hValue] at hType
      cases hType
    | ok type => exact ⟨type, rfl⟩
  · cases h

theorem closes_iff {root node : Json} {depth : Nat} : closes root (depth + 1) node = true ↔
    isWellFormed root node = true ∧ ∀ prop ∈ declared root node, closes root depth prop.2 = true := by
  rw [closes, Bool.and_eq_true, List.all_eq_true]

theorem acc_of_closes {root node : Json} {depth : Nat} (h : closes root depth node = true) :
    Acc (Nests root) node := by
  induction depth generalizing node with
  | zero => cases h
  | succ depth ih =>
    refine Acc.intro node fun sub hNests => ?_
    obtain ⟨⟨key, hSub⟩, -⟩ := hNests
    exact ih ((closes_iff.mp h).2 (key, sub) (Json.mem_of_member hSub))

theorem closes_of_schemaAt {root node sub : Json} {depth : Nat} {path : List String}
    (h : closes root depth node = true) (hSub : schemaAt root node path = some sub) :
    ∃ depth', closes root depth' sub = true := by
  induction path generalizing node depth with
  | nil =>
    cases hSub
    exact ⟨depth, h⟩
  | cons key path ih =>
    obtain ⟨next, hNext, hBelow⟩ := Option.bind_eq_some_iff.mp hSub
    cases depth with
    | zero => cases h
    | succ depth => exact ih ((closes_iff.mp h).2 (key, next) (Json.mem_of_member hNext)) hBelow

/-- A schema in which every path of properties ends. -/
theorem dialect_of_closes {schema : Json} {depth : Nat} (hOrder : schema.Ordered)
    (h : closes schema depth schema = true) : Dialect schema where
  ordered := hOrder
  wellFormed := fun path node hAt => by
    obtain ⟨depth', hNode⟩ := closes_of_schemaAt h hAt
    cases depth' with
    | zero => cases hNode
    | succ depth' => exact wellFormed_of_check (closes_iff.mp hNode).1
  ends := fun path node hAt => by
    obtain ⟨depth', hNode⟩ := closes_of_schemaAt h hAt
    exact acc_of_closes hNode

/-- A table whose rows may have a note and rows of their own, and a party. -/
def rowsSchema : Json :=
  .obj [
    ("definitions", .obj [
      ("party", .obj [
        ("properties", .obj [("address", .obj [("type", .str "string")]), ("name", .obj [("type", .str "string")])]),
        ("type", .str "object")]),
      ("row", .obj [
        ("properties", .obj [
          ("note", .obj [("type", .str "string")]),
          ("rows", .obj [("items", .obj [("$ref", .str "#/definitions/row")]), ("type", .str "array")])]),
        ("type", .str "object")])]),
    ("properties", .obj [
      ("rows", .obj [("items", .obj [("$ref", .str "#/definitions/row")]), ("type", .str "array")]),
      ("seller", .obj [("$ref", .str "#/definitions/party")])]),
    ("type", .str "object")]

theorem rowsSchema_ordered : rowsSchema.Ordered := Json.ordered_of_check (by decide +kernel)

theorem rowsSchema_dialect : Dialect rowsSchema :=
  @dialect_of_closes rowsSchema 3 rowsSchema_ordered (by decide +kernel)

def rowsInput : Json := .obj [("rows", .arr [.obj []]), ("seller", .obj [("name", .str "ТОО")])]

theorem rowsInput_ordered : rowsInput.Ordered := Json.ordered_of_check (by decide +kernel)

theorem rowsInput_filled :
    ∃ out, Returns (fun fuel => normalizeInput fuel rowsSchema rowsInput) out ∧
      (out.at? ["seller", "address"]).isSome := by
  obtain ⟨out, hReturns, -, hKept, -, hFilled⟩ := normalizeInput_fills rowsSchema_dialect rowsInput_ordered
  obtain ⟨seller, hSeller, hSame⟩ := hKept ["seller"] (.obj [("name", .str "ТОО")]) rfl
  have hObject : seller.isObject := by
    rcases hSame with rfl | ⟨-, hIs⟩
    · rfl
    · exact hIs
  refine ⟨out, hReturns, hFilled ["seller"] "address" (by decide +kernel) ?_⟩
  rw [hSeller, Option.any_some]
  exact hObject

def childNode : Json := .obj [("$ref", .str "#/definitions/node")]

/-- A definition that has itself as a property. -/
def nodeDefinition : Json := .obj [("properties", .obj [("child", childNode)]), ("type", .str "object")]

def nodeSchema : Json :=
  .obj [("definitions", .obj [("node", nodeDefinition)]), ("properties", .obj [("root", childNode)])]

/-- Where the only property cannot be made, the object cannot. -/
theorem fillObject_single {root node target sub : Json} {key : String} {fuel : Nat} {halt : Halt}
    (hTarget : resolveRef root node = .ok target) (hProps : properties target = some [(key, sub)])
    (h : defaultFor root fuel sub = .error halt) : fillObject root (fuel + 1) node (.obj []) = .error halt := by
  rcases @fillObject_obj root node target [] hTarget with ⟨hNone, -⟩ | ⟨props, hSome, hCall⟩
  · rw [hProps] at hNone
    cases hNone
  · rw [hProps] at hSome
    cases hSome
    rw [congrFun hCall fuel, List.foldlM_cons, fillMember, Json.member, h]
    rfl

theorem nodeSchema_exhausts (fuel : Nat) : defaultFor nodeSchema fuel childNode = .error .exhausted := by
  induction fuel using Nat.twoStepInduction with
  | zero => rfl
  | one => rfl
  | more fuel ih _ =>
    have hRef : resolveRef nodeSchema childNode = .ok nodeDefinition := rfl
    have hType : value nodeDefinition "type" "" = .ok "object" := rfl
    rw [defaultFor, hRef]
    simp only [Except.mapError, bind, Except.bind, hType, if_true]
    exact fillObject_single (rfl : resolveRef nodeSchema nodeDefinition = .ok nodeDefinition) rfl ih

/-- The rows of a table are not filled, and a definition that has itself as a property is never done. -/
theorem rows_not_filled :
    (∃ out, Returns (fun fuel => normalizeInput fuel rowsSchema rowsInput) out ∧
      out.at? ["rows"] = some (.arr [.obj []])) ∧
    ((rowsSchema.at? ["properties", "rows", "items"]).bind (schemaAt rowsSchema · ["note"])).isSome ∧
    ∀ fuel, normalizeInput fuel nodeSchema (.obj []) = .error .exhausted := by
  refine ⟨?_, by decide +kernel, fun fuel => ?_⟩
  · obtain ⟨out, hReturns, hFills⟩ := fillObject_returns rowsSchema_dialect ⟨[], rfl⟩ rowsInput_ordered
    obtain ⟨rows, hRows, hSame | ⟨hIs, -⟩⟩ := hFills.kept ["rows"] (.arr [.obj []]) rfl
    · exact ⟨out, hReturns, by rw [hRows, hSame]⟩
    · cases hIs
  · match fuel with
    | 0 => rfl
    | fuel + 1 =>
      exact fillObject_single (rfl : resolveRef nodeSchema nodeSchema = .ok nodeSchema) rfl (nodeSchema_exhausts fuel)

end CyberAccountant.Docgen.TemplateRegistry
