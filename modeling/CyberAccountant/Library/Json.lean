import Mathlib.Data.List.Infix
import Mathlib.Data.String.Basic

/-! JSON values, the values at their paths, and merge patches.  A merge patch is the sequence of the
assignments at its leaves, so what it may change is told by the paths of its leaves. -/

namespace CyberAccountant.Library

/-- A JSON value; the keys of an object are in ascending order, each once, and a floating-point number is
its bits. -/
inductive Json where
  | null
  | bool (b : Bool)
  | int (n : Int)
  | float (bits : UInt64)
  | str (text : String)
  | arr (items : List Json)
  | obj (members : List (String × Json))

namespace Json

/-! ### Objects -/

/-- The members of an object; any other value has none. -/
def members : Json → List (String × Json)
  | .obj ms => ms
  | _ => []

def isObject : Json → Bool
  | .obj _ => true
  | _ => false

def isNull : Json → Bool
  | .null => true
  | _ => false

def member : List (String × Json) → String → Option Json
  | [], _ => none
  | (k, v) :: rest, key => if k = key then some v else member rest key

/-- The members with `value` under the key, which replaces what the key had. -/
def setMember : List (String × Json) → String → Json → List (String × Json)
  | [], key, value => [(key, value)]
  | (k, v) :: rest, key, value =>
    if k = key then (k, value) :: rest
    else if key < k then (key, value) :: (k, v) :: rest
    else (k, v) :: setMember rest key value

def eraseMember : List (String × Json) → String → List (String × Json)
  | [], _ => []
  | (k, v) :: rest, key => if k = key then eraseMember rest key else (k, v) :: eraseMember rest key

variable {ms : List (String × Json)} {key other : String} {v w : Json}

@[simp] theorem member_setMember_same : member (setMember ms key v) key = some v := by
  induction ms with
  | nil => simp [setMember, member]
  | cons head rest ih =>
    simp only [setMember]
    split
    · rename_i hSame
      simp [member, hSame]
    · rename_i hNe
      split
      · simp [member]
      · simpa [member, hNe] using ih

theorem member_setMember_other (h : other ≠ key) : member (setMember ms key v) other = member ms other := by
  induction ms with
  | nil => simp [setMember, member, h.symm]
  | cons head rest ih =>
    simp only [setMember]
    split
    · rename_i hSame
      simp [member, hSame, h.symm]
    · split
      · simp [member, h.symm]
      · simp only [member, ih]

@[simp] theorem member_eraseMember_same : member (eraseMember ms key) key = none := by
  induction ms with
  | nil => rfl
  | cons head rest ih =>
    simp only [eraseMember]
    split
    · exact ih
    · rename_i hNe
      simpa [member, hNe] using ih

theorem member_eraseMember_other (h : other ≠ key) : member (eraseMember ms key) other = member ms other := by
  induction ms with
  | nil => rfl
  | cons head rest ih =>
    simp only [eraseMember]
    split
    · rename_i hSame
      simp [member, hSame, h.symm, ih]
    · simp only [member, ih]

theorem setMember_setMember : setMember (setMember ms key v) key w = setMember ms key w := by
  induction ms with
  | nil => simp [setMember]
  | cons head rest ih =>
    simp only [setMember]
    split
    · simp_all [setMember]
    · rename_i hNe
      split
      · simp [setMember]
      · rename_i hGt
        simp [setMember, hNe, hGt, ih]

/-! ### Paths -/

/-- The value at a path: a key for each object on the way. -/
def at? : Json → List String → Option Json
  | j, [] => some j
  | j, k :: path => (member j.members k).bind (·.at? path)

/-- The value at a path where it is not an object. -/
def leafAt? (j : Json) (path : List String) : Option Json := (j.at? path).filter (!·.isObject)

@[simp] theorem at?_nil (j : Json) : j.at? [] = some j := rfl

theorem at?_cons (j : Json) (k : String) (path : List String) :
    j.at? (k :: path) = (member j.members k).bind (·.at? path) := rfl

theorem leafAt?_cons (j : Json) (k : String) (path : List String) :
    j.leafAt? (k :: path) = (member j.members k).bind (·.leafAt? path) := by
  simp only [leafAt?, at?_cons]
  cases member j.members k <;> rfl

@[simp] theorem leafAt?_obj_nil (ms : List (String × Json)) : (Json.obj ms).leafAt? [] = none := rfl

/-! ### Merge patches -/

mutual

/-- `merge_patch` of RFC 7396. -/
def mergePatch : Json → Json → Json
  | target, .obj patch => .obj (mergeMembers target.members patch)
  | _, .null => .null
  | _, .bool b => .bool b
  | _, .int n => .int n
  | _, .float bits => .float bits
  | _, .str text => .str text
  | _, .arr items => .arr items
termination_by structural _ patch => patch

/-- A member that is null removes the key; any other is merged into what the key has. -/
def mergeMembers : List (String × Json) → List (String × Json) → List (String × Json)
  | ms, [] => ms
  | ms, (k, .null) :: rest => mergeMembers (eraseMember ms k) rest
  | ms, (k, v) :: rest => mergeMembers (setMember ms k (mergePatch ((member ms k).getD .null) v)) rest
termination_by structural _ patch => patch

end

mutual

/-- The leaves of a value with their paths.  An object without members is a leaf. -/
def leaves : Json → List (List String × Json)
  | .obj ms => if ms.isEmpty then [([], .obj [])] else leavesOf ms
  | .null => [([], .null)]
  | .bool b => [([], .bool b)]
  | .int n => [([], .int n)]
  | .float bits => [([], .float bits)]
  | .str text => [([], .str text)]
  | .arr items => [([], .arr items)]
termination_by structural v => v

def leavesOf : List (String × Json) → List (List String × Json)
  | [] => []
  | (k, v) :: rest => (leaves v).map (fun leaf => (k :: leaf.1, leaf.2)) ++ leavesOf rest
termination_by structural ms => ms

end

/-- The assignment of a leaf: null removes the key that it is under, and what is no object on the way
becomes one. -/
def put : Json → List String → Json → Json
  | target, [], v => if v.isObject then .obj target.members else v
  | target, k :: path, v =>
    if path = [] ∧ v.isNull then .obj (eraseMember target.members k)
    else .obj (setMember target.members k (put ((member target.members k).getD .null) path v))

def putAll (target : Json) (assignments : List (List String × Json)) : Json :=
  assignments.foldl (fun t leaf => t.put leaf.1 leaf.2) target

theorem putAll_append (target : Json) (xs ys : List (List String × Json)) :
    target.putAll (xs ++ ys) = (target.putAll xs).putAll ys := List.foldl_append

@[simp] theorem members_put_cons (target : Json) (k : String) (path : List String) (v : Json) :
    target.put (k :: path) v = .obj (target.put (k :: path) v).members := by
  simp only [put]
  split <;> rfl

@[simp] theorem leaves_obj_nil : leaves (.obj []) = [([], .obj [])] := rfl

theorem leaves_obj_cons (first : String × Json) (rest : List (String × Json)) :
    leaves (.obj (first :: rest)) = leavesOf (first :: rest) := rfl

theorem leaves_ne_nil (v : Json) : leaves v ≠ [] := by
  cases v with
  | obj ms =>
    cases ms with
    | nil => simp [leaves]
    | cons first rest =>
      have hFirst := leaves_ne_nil first.2
      simp only [leaves_obj_cons, leavesOf, ne_eq, List.append_eq_nil_iff, List.map_eq_nil_iff]
      exact fun hNone => hFirst hNone.1
  | _ => simp [leaves]

theorem leavesOf_ne_nil {patch : List (String × Json)} (h : patch ≠ []) : leavesOf patch ≠ [] := by
  cases patch with
  | nil => exact absurd rfl h
  | cons first rest => exact leaves_ne_nil (.obj (first :: rest))

theorem path_ne_nil {patch : List (String × Json)} {leaf : List String × Json} (h : leaf ∈ leavesOf patch) :
    leaf.1 ≠ [] := by
  induction patch with
  | nil => simp [leavesOf] at h
  | cons first rest ih =>
    simp only [leavesOf, List.mem_append, List.mem_map] at h
    rcases h with ⟨inner, -, rfl⟩ | h
    · exact List.cons_ne_nil _ _
    · exact ih h

/-- A leaf at the root is the value itself. -/
theorem leaf_at_root {v : Json} {leaf : List String × Json} (h : leaf ∈ leaves v) (hRoot : leaf.1 = []) :
    leaf.2 = v := by
  cases v with
  | obj ms =>
    cases ms with
    | nil => simp_all [leaves]
    | cons first rest => exact absurd hRoot (path_ne_nil h)
  | _ => simp_all [leaves]

/-- The assignments below a key are those of the value that it has. -/
theorem putAll_below (ms : List (String × Json)) (k : String) (first : List String × Json)
    (rest : List (List String × Json)) (hNull : ∀ leaf ∈ first :: rest, leaf.1 = [] → leaf.2.isNull = false) :
    (obj ms).putAll ((first :: rest).map fun leaf => (k :: leaf.1, leaf.2)) =
      .obj (setMember ms k (((member ms k).getD .null).putAll (first :: rest))) := by
  have hFirst : (obj ms).put (k :: first.1) first.2 =
      .obj (setMember ms k (((member ms k).getD .null).put first.1 first.2)) := by
    have hNot : ¬ (first.1 = [] ∧ first.2.isNull = true) := fun ⟨hRoot, hIs⟩ => by
      rw [hNull first List.mem_cons_self hRoot] at hIs
      cases hIs
    simp only [put, if_neg hNot, members]
  induction rest generalizing ms first with
  | nil => exact hFirst
  | cons second rest ih =>
    have hSecond := ih (setMember ms k (((member ms k).getD .null).put first.1 first.2)) second
      (fun leaf hLeaf => hNull leaf (List.mem_cons_of_mem _ hLeaf)) (by
        have hNot : ¬ (second.1 = [] ∧ second.2.isNull = true) := fun ⟨hRoot, hIs⟩ => by
          rw [hNull second (List.mem_cons_of_mem _ List.mem_cons_self) hRoot] at hIs
          cases hIs
        simp only [put, if_neg hNot, members])
    rw [member_setMember_same, setMember_setMember] at hSecond
    rw [List.map_cons, putAll, List.foldl_cons, hFirst]
    exact hSecond

/-- The first assignment makes an object of what is none. -/
theorem putAll_members (target : Json) {patch : List (String × Json)} (h : patch ≠ []) :
    target.putAll (leavesOf patch) = (obj target.members).putAll (leavesOf patch) := by
  cases hLeaves : leavesOf patch with
  | nil => exact absurd hLeaves (leavesOf_ne_nil h)
  | cons leaf rest =>
    have hPath : leaf.1 ≠ [] := path_ne_nil (by rw [hLeaves]; exact List.mem_cons_self)
    obtain ⟨k, path, hCons⟩ := List.exists_cons_of_ne_nil hPath
    have hSame : target.put leaf.1 leaf.2 = (obj target.members).put leaf.1 leaf.2 := by
      rw [hCons]
      rfl
    simp only [putAll, List.foldl_cons, hSame]

mutual

/-- A merge patch is the sequence of the assignments at its leaves. -/
theorem mergePatch_eq_putAll (target patch : Json) : target.mergePatch patch = target.putAll (leaves patch) := by
  cases patch with
  | obj ms =>
    cases ms with
    | nil => rfl
    | cons first rest =>
      rw [mergePatch, mergeMembers_eq_putAll target.members (first :: rest), leaves_obj_cons,
        ← putAll_members target (List.cons_ne_nil first rest)]
  | _ => rfl

theorem mergeMembers_eq_putAll (ms patch : List (String × Json)) :
    .obj (mergeMembers ms patch) = (obj ms).putAll (leavesOf patch) := by
  cases patch with
  | nil => rfl
  | cons first rest =>
    obtain ⟨k, v⟩ := first
    rw [leavesOf, putAll_append]
    by_cases hNull : v.isNull
    · cases v with
      | null => exact mergeMembers_eq_putAll (eraseMember ms k) rest
      | _ => cases hNull
    · have hMerge : mergeMembers ms ((k, v) :: rest) =
          mergeMembers (setMember ms k (mergePatch ((member ms k).getD .null) v)) rest := by
        cases v with
        | null => exact absurd rfl hNull
        | _ => rfl
      rw [hMerge, mergeMembers_eq_putAll _ rest, mergePatch_eq_putAll _ v]
      obtain ⟨leaf, more, hLeaves⟩ := List.exists_cons_of_ne_nil (leaves_ne_nil v)
      rw [hLeaves, putAll_below ms k leaf more]
      intro l hl hRoot
      rw [← hLeaves] at hl
      rw [leaf_at_root hl hRoot]
      simpa using hNull

end

/-! ### What an assignment changes -/

variable {target : Json} {path q : List String}

theorem at?_child (k : String) (h : q ≠ []) :
    ((member target.members k).getD .null).at? q = target.at? (k :: q) := by
  obtain ⟨next, rest, rfl⟩ := List.exists_cons_of_ne_nil h
  rw [at?_cons target]
  cases member target.members k <;> rfl

theorem leafAt?_child (k : String) (h : q ≠ []) :
    ((member target.members k).getD .null).leafAt? q = target.leafAt? (k :: q) := by
  rw [leafAt?, leafAt?, at?_child k h]

/-- What is under other keys stays. -/
theorem at?_put_other {k other : String} (h : other ≠ k) :
    (target.put (k :: path) v).at? (other :: q) = target.at? (other :: q) := by
  simp only [put]
  split
  · rw [at?_cons, at?_cons, members, member_eraseMember_other h]
  · rw [at?_cons, at?_cons, members, member_setMember_other h]

/-- Assignments under other keys, one after another. -/
theorem at?_putAll_other {assignments : List (List String × Json)} {key : String}
    (h : ∀ leaf ∈ assignments, ∃ k rest, leaf.1 = k :: rest ∧ key ≠ k) :
    (target.putAll assignments).at? (key :: q) = target.at? (key :: q) := by
  induction assignments generalizing target with
  | nil => rfl
  | cons leaf rest ih =>
    rw [List.forall_mem_cons] at h
    obtain ⟨⟨k, path, hLeaf, hNe⟩, hRest⟩ := h
    have hFirst : (target.put leaf.1 leaf.2).at? (key :: q) = target.at? (key :: q) := by
      rw [hLeaf, at?_put_other hNe]
    exact (ih hRest).trans hFirst

/-- An assignment further down. -/
theorem at?_put_same {k : String} (h : ¬ (path = [] ∧ v.isNull = true)) :
    (target.put (k :: path) v).at? (k :: q) = (((member target.members k).getD .null).put path v).at? q := by
  rw [put, if_neg h, at?_cons, members, member_setMember_same]
  rfl

theorem leafAt?_put_other {k other : String} (h : other ≠ k) :
    (target.put (k :: path) v).leafAt? (other :: q) = target.leafAt? (other :: q) := by
  rw [leafAt?, leafAt?, at?_put_other h]

theorem leafAt?_put_same {k : String} (h : ¬ (path = [] ∧ v.isNull = true)) :
    (target.put (k :: path) v).leafAt? (k :: q) = (((member target.members k).getD .null).put path v).leafAt? q := by
  rw [leafAt?, leafAt?, at?_put_same h]

/-- A leaf that lies neither above nor below stays. -/
theorem leafAt?_put_apart (hAbove : ¬ q <+: path) (hBelow : ¬ path <+: q) :
    (target.put path v).leafAt? q = target.leafAt? q := by
  induction path generalizing target q with
  | nil => exact absurd (List.nil_prefix) hBelow
  | cons k path ih =>
    cases q with
    | nil => exact absurd (List.nil_prefix) hAbove
    | cons other q =>
      by_cases hSame : other = k
      · subst hSame
        rw [List.prefix_cons_inj] at hAbove hBelow
        have hInner : ¬ (path = [] ∧ v.isNull = true) := fun ⟨hNil, _⟩ => hBelow (hNil ▸ List.nil_prefix)
        rw [leafAt?_put_same hInner, ih hAbove hBelow]
        exact leafAt?_child other fun hNil => hAbove (hNil ▸ List.nil_prefix)
      · exact leafAt?_put_other hSame

/-- Nothing above the path is a leaf any more. -/
theorem leafAt?_put_above (hAbove : q <+: path) (hNe : q ≠ path) : (target.put path v).leafAt? q = none := by
  induction path generalizing target q with
  | nil => exact absurd (List.prefix_nil.mp hAbove) hNe
  | cons k path ih =>
    cases q with
    | nil => rw [members_put_cons]; rfl
    | cons other q =>
      obtain ⟨rfl, hRest⟩ := List.cons_prefix_cons.mp hAbove
      have hNe' : q ≠ path := fun h => hNe (h ▸ rfl)
      have hInner : ¬ (path = [] ∧ v.isNull = true) := fun ⟨hNil, _⟩ => by
        subst hNil
        exact hNe' (List.prefix_nil.mp hRest)
      rw [leafAt?_put_same hInner]
      exact ih hRest hNe'

/-- Below the path is what was there, if the leaf is an object, and else nothing. -/
theorem leafAt?_put_below (hBelow : path <+: q) (hNe : path ≠ q) :
    (target.put path v).leafAt? q = if v.isObject then target.leafAt? q else none := by
  induction path generalizing target q with
  | nil =>
    obtain ⟨k, q, rfl⟩ := List.exists_cons_of_ne_nil hNe.symm
    rw [put, leafAt?_cons]
    split
    · rw [leafAt?_cons]
      rfl
    · rename_i hValue
      cases v with
      | obj ms => exact absurd rfl hValue
      | _ => rfl
  | cons k path ih =>
    cases q with
    | nil => exact absurd (List.prefix_nil.mp hBelow) (List.cons_ne_nil k path)
    | cons other q =>
      obtain ⟨rfl, hRest⟩ := List.cons_prefix_cons.mp hBelow
      have hNe' : path ≠ q := fun h => hNe (h ▸ rfl)
      have hInner : q ≠ [] := fun hNil => by
        subst hNil
        exact hNe' (List.prefix_nil.mp hRest)
      by_cases hErased : path = [] ∧ v.isNull = true
      · obtain ⟨rfl, hNull⟩ := hErased
        cases v with
        | null =>
          rw [leafAt?_cons]
          simp [put, isNull, members, isObject]
        | _ => cases hNull
      · rw [leafAt?_put_same hErased, ih hRest hNe']
        rw [leafAt?_child k hInner]

/-- A key is new only on the path. -/
theorem at?_put_isSome (h : ((target.put path v).at? q).isSome) : (target.at? q).isSome ∨ q <+: path := by
  induction path generalizing target q with
  | nil =>
    cases q with
    | nil => exact .inr List.nil_prefix
    | cons k q =>
      rw [put, at?_cons] at h
      split at h
      · exact .inl (by rwa [at?_cons])
      · rename_i hValue
        cases v with
        | obj ms => exact absurd rfl hValue
        | _ => cases h
  | cons k path ih =>
    cases q with
    | nil => exact .inr List.nil_prefix
    | cons other q =>
      by_cases hSame : other = k
      · subst hSame
        by_cases hErased : path = [] ∧ v.isNull = true
        · rw [put, if_pos hErased, at?_cons, members, member_eraseMember_same] at h
          cases h
        · rw [at?_put_same hErased] at h
          rcases ih h with hBefore | hOn
          · cases q with
            | nil => exact .inr (by simp)
            | cons next q => exact .inl (by rwa [at?_child other (List.cons_ne_nil next q)] at hBefore)
          · exact .inr (List.cons_prefix_cons.mpr ⟨rfl, hOn⟩)
      · rw [at?_put_other hSame] at h
        exact .inl h

/-! ### Assignments at paths apart -/

/-- Neither path leads through the other. -/
def Apart (p q : List String) : Prop := ¬ p <+: q ∧ ¬ q <+: p

instance (p q : List String) : Decidable (Apart p q) := inferInstanceAs (Decidable (_ ∧ _))

theorem Apart.symm {p q : List String} (h : Apart p q) : Apart q p := ⟨h.2, h.1⟩

/-- What lies neither above nor below stays. -/
theorem at?_put_apart (h : Apart path q) : (target.put path v).at? q = target.at? q := by
  induction path generalizing target q with
  | nil => exact absurd List.nil_prefix h.1
  | cons k path ih =>
    cases q with
    | nil => exact absurd List.nil_prefix h.2
    | cons other q =>
      by_cases hSame : other = k
      · subst hSame
        have hRest : Apart path q := by
          simpa only [Apart, List.prefix_cons_inj] using h
        have hNil : q ≠ [] := fun hNil => hRest.2 (hNil ▸ List.nil_prefix)
        have hInner : ¬ (path = [] ∧ v.isNull = true) := fun ⟨hNil, _⟩ => hRest.1 (hNil ▸ List.nil_prefix)
        rw [at?_put_same hInner, ih hRest, at?_child other hNil]
      · exact at?_put_other hSame

theorem at?_put_self (hObject : v.isObject = false) (hNull : v.isNull = false) :
    (target.put path v).at? path = some v := by
  induction path generalizing target with
  | nil => simp [put, hObject]
  | cons k path ih =>
    rw [at?_put_same (by simp [hNull])]
    exact ih

theorem at?_putAll_apart {assignments : List (List String × Json)} (h : ∀ leaf ∈ assignments, Apart leaf.1 q) :
    (target.putAll assignments).at? q = target.at? q := by
  induction assignments generalizing target with
  | nil => rfl
  | cons leaf rest ih =>
    rw [List.forall_mem_cons] at h
    exact (ih h.2).trans (at?_put_apart h.1)

/-- Of assignments apart from each other each has its effect in the end. -/
theorem at?_putAll_mem {assignments : List (List String × Json)}
    (hApart : assignments.Pairwise fun leaf leaf' => Apart leaf.1 leaf'.1) {leaf : List String × Json}
    (hMem : leaf ∈ assignments) (hObject : leaf.2.isObject = false) (hNull : leaf.2.isNull = false) :
    (target.putAll assignments).at? leaf.1 = some leaf.2 := by
  induction assignments generalizing target with
  | nil => cases hMem
  | cons first rest ih =>
    rw [List.pairwise_cons] at hApart
    rcases List.mem_cons.mp hMem with rfl | hMem
    · have hRest : ((target.put leaf.1 leaf.2).putAll rest).at? leaf.1 = (target.put leaf.1 leaf.2).at? leaf.1 :=
        at?_putAll_apart fun other hOther => (hApart.1 other hOther).symm
      exact hRest.trans (at?_put_self hObject hNull)
    · exact ih hApart.2 hMem

theorem at?_append (j : Json) (path q : List String) : j.at? (path ++ q) = (j.at? path).bind (·.at? q) := by
  induction path generalizing j with
  | nil => rfl
  | cons k path ih =>
    rw [List.cons_append, at?_cons, at?_cons, Option.bind_assoc]
    exact congrArg (Option.bind _) (funext ih)

/-! ### The order of the keys -/

/-- The keys ascend, so each is there once. -/
def Ascending (ms : List (String × Json)) : Prop := ms.Pairwise fun a b => a.1 < b.1

instance (ms : List (String × Json)) : Decidable (Ascending ms) :=
  inferInstanceAs (Decidable (ms.Pairwise _))

theorem mem_of_member (h : member ms key = some v) : (key, v) ∈ ms := by
  induction ms with
  | nil => cases h
  | cons head rest ih =>
    obtain ⟨k, w⟩ := head
    rw [member] at h
    split at h
    · rename_i hKey
      cases hKey
      cases h
      exact List.mem_cons_self
    · exact List.mem_cons_of_mem _ (ih h)

theorem mem_of_mem_setMember {entry : String × Json} (h : entry ∈ setMember ms key v) :
    entry = (key, v) ∨ entry ∈ ms := by
  induction ms with
  | nil => exact .inl (List.mem_singleton.mp h)
  | cons head rest ih =>
    simp only [setMember] at h
    split at h
    · rename_i hKey
      rcases List.mem_cons.mp h with rfl | hRest
      · exact .inl (by rw [hKey])
      · exact .inr (List.mem_cons_of_mem _ hRest)
    · split at h
      · exact List.mem_cons.mp h
      · rcases List.mem_cons.mp h with rfl | hRest
        · exact .inr List.mem_cons_self
        · exact (ih hRest).imp_right (List.mem_cons_of_mem _)

theorem Ascending.member_of_mem (hOrder : Ascending ms) (h : (key, v) ∈ ms) : member ms key = some v := by
  induction ms with
  | nil => cases h
  | cons head rest ih =>
    obtain ⟨k, w⟩ := head
    obtain ⟨hHead, hRest⟩ := List.pairwise_cons.mp hOrder
    rcases List.mem_cons.mp h with hSame | hMem
    · cases hSame
      simp [member]
    · have hNe : k ≠ key := ne_of_lt (hHead _ hMem)
      rw [member, if_neg hNe, ih hRest hMem]

theorem Ascending.setMember (hOrder : Ascending ms) : Ascending (setMember ms key v) := by
  induction ms with
  | nil => exact List.pairwise_singleton _ _
  | cons head rest ih =>
    obtain ⟨k, w⟩ := head
    obtain ⟨hHead, hRest⟩ := List.pairwise_cons.mp hOrder
    simp only [Json.setMember]
    split
    · exact List.pairwise_cons.mpr ⟨hHead, hRest⟩
    · rename_i hNe
      split
      · rename_i hLt
        refine List.pairwise_cons.mpr ⟨fun entry hEntry => ?_, hOrder⟩
        rcases List.mem_cons.mp hEntry with rfl | hMem
        · exact hLt
        · exact lt_trans hLt (hHead entry hMem)
      · rename_i hGe
        refine List.pairwise_cons.mpr ⟨fun entry hEntry => ?_, ih hRest⟩
        rcases mem_of_mem_setMember hEntry with rfl | hMem
        · exact lt_of_le_of_ne (not_lt.mp hGe) hNe
        · exact hHead entry hMem

/-- To set a key to what it has changes nothing. -/
theorem Ascending.setMember_same (hOrder : Ascending ms) (h : member ms key = some v) :
    Json.setMember ms key v = ms := by
  induction ms with
  | nil => cases h
  | cons head rest ih =>
    obtain ⟨k, w⟩ := head
    obtain ⟨hHead, hRest⟩ := List.pairwise_cons.mp hOrder
    rw [member] at h
    split at h
    · rename_i hKey
      cases h
      rw [Json.setMember, if_pos hKey]
    · rename_i hNe
      have hLt : k < key := hHead _ (mem_of_member h)
      rw [Json.setMember, if_neg hNe, if_neg (not_lt_of_gt hLt), ih hRest h]

/-- Every object that no array is around has its keys in order. -/
def Ordered (j : Json) : Prop := ∀ path inner, j.at? path = some inner → Ascending inner.members

theorem Ordered.at? {j inner : Json} (h : j.Ordered) (hAt : j.at? path = some inner) : inner.Ordered := by
  intro q below hBelow
  exact h (path ++ q) below (by rw [at?_append, hAt]; exact hBelow)

theorem ordered_obj :
    (obj ms).Ordered ↔ Ascending ms ∧ ∀ key v, member ms key = some v → v.Ordered := by
  constructor
  · intro h
    refine ⟨h [] (obj ms) rfl, fun key v hMember => ?_⟩
    have hAt : (obj ms).at? [key] = some v := by
      rw [at?_cons, members, hMember]
      rfl
    exact h.at? hAt
  · rintro ⟨hOrder, hMembers⟩ path inner hAt
    cases path with
    | nil =>
      cases hAt
      exact hOrder
    | cons key path =>
      obtain ⟨v, hMember, hInner⟩ := Option.bind_eq_some_iff.mp hAt
      exact hMembers key v hMember path inner hInner

theorem ordered_of_not_object {j : Json} (h : j.isObject = false) : j.Ordered := by
  intro path inner hAt
  have hNone : j.members = [] := by
    cases j with
    | obj ms => cases h
    | _ => rfl
  cases path with
  | nil =>
    cases hAt
    rw [hNone]
    exact List.Pairwise.nil
  | cons key path =>
    rw [at?_cons, hNone] at hAt
    cases hAt

mutual

/-- The check of the order, by running. -/
def isOrdered : Json → Bool
  | .obj ms => decide (Ascending ms) && areOrdered ms
  | _ => true
termination_by structural v => v

def areOrdered : List (String × Json) → Bool
  | [] => true
  | (_, v) :: rest => isOrdered v && areOrdered rest
termination_by structural ms => ms

end

theorem isOrdered_member (h : areOrdered ms = true) (hMember : member ms key = some v) : isOrdered v = true := by
  induction ms with
  | nil => cases hMember
  | cons head rest ih =>
    obtain ⟨k, w⟩ := head
    rw [areOrdered, Bool.and_eq_true] at h
    rw [member] at hMember
    split at hMember
    · cases hMember
      exact h.1
    · exact ih h.2 hMember

theorem ordered_of_check {j : Json} (h : j.isOrdered = true) : j.Ordered := by
  intro path inner hAt
  induction path generalizing j with
  | nil =>
    cases hAt
    cases inner with
    | obj ms =>
      rw [isOrdered, Bool.and_eq_true] at h
      exact of_decide_eq_true h.1
    | _ => exact List.Pairwise.nil
  | cons key path ih =>
    obtain ⟨v, hMember, hInner⟩ := Option.bind_eq_some_iff.mp hAt
    cases j with
    | obj ms =>
      rw [isOrdered, Bool.and_eq_true] at h
      exact ih (isOrdered_member h.2 hMember) hInner
    | _ => cases hMember

theorem sizeOf_member (h : member ms key = some v) : sizeOf v < sizeOf (obj ms) := by
  have hMem := List.sizeOf_lt_of_mem (mem_of_member h)
  simp only [Prod.mk.sizeOf_spec, obj.sizeOf_spec] at hMem ⊢
  omega

/-- The value has no leaves but at these paths. -/
def LeavesAmong (paths : List (List String)) (j : Json) : Prop := ∀ path, (j.leafAt? path).isSome → path ∈ paths

theorem leavesAmong_plain (h : v.isObject = false) : LeavesAmong [[]] v := by
  intro path hSome
  cases path with
  | nil => exact List.mem_singleton_self []
  | cons key path =>
    rw [leafAt?_cons] at hSome
    cases v with
    | obj ms => cases h
    | _ => cases hSome

theorem leavesAmong_empty : LeavesAmong [] (.obj []) := by
  intro path hSome
  cases path with
  | nil => cases hSome
  | cons key path => cases hSome

section

variable {paths more : List (List String)}

theorem LeavesAmong.mono (h : LeavesAmong paths v) (hMore : paths ⊆ more) : LeavesAmong more v :=
  fun path hSome => hMore (h path hSome)

/-- The leaves of members of which one has a value and the others are as in another object. -/
theorem LeavesAmong.of_member {ms' : List (String × Json)} (hv : LeavesAmong paths v) (h : LeavesAmong more (.obj ms))
    (hOther : ∀ other, other ≠ key → member ms' other = member ms other) (hHere : member ms' key = some v) :
    LeavesAmong (paths.map (key :: ·) ++ more) (.obj ms') := by
  intro path hSome
  cases path with
  | nil => cases hSome
  | cons k path =>
    rw [leafAt?_cons, members] at hSome
    by_cases hKey : k = key
    · subst hKey
      rw [hHere] at hSome
      exact List.mem_append_left _ (List.mem_map_of_mem (hv path hSome))
    · rw [hOther k hKey] at hSome
      exact List.mem_append_right _ (h (k :: path) (by rw [leafAt?_cons]; exact hSome))

theorem LeavesAmong.cons (hv : LeavesAmong paths v) (h : LeavesAmong more (.obj ms)) :
    LeavesAmong (paths.map (key :: ·) ++ more) (.obj ((key, v) :: ms)) :=
  hv.of_member h (fun _ hOther => if_neg (Ne.symm hOther)) (if_pos rfl)

theorem LeavesAmong.setMember (hv : LeavesAmong paths v) (h : LeavesAmong more (.obj ms)) :
    LeavesAmong (paths.map (key :: ·) ++ more) (.obj (setMember ms key v)) :=
  hv.of_member h (fun _ hOther => member_setMember_other hOther) member_setMember_same

end

end Json

end CyberAccountant.Library
