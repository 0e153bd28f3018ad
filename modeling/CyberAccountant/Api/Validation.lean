import CyberAccountant.Library.Checked
import CyberAccountant.Library.Json
import CyberAccountant.Docgen.InputPolicy

/-! The allowlist of what a client may write over an input that the server has built, and what a sequence
of such edits leaves of the input. -/

namespace CyberAccountant.Api.Validation

open CyberAccountant.Library CyberAccountant.Docgen

/-- An entry of the body of a 422. -/
structure FieldError where
  field : String
  code : String
  message : String
  deriving DecidableEq

def notAllowedOverride (path : String) : FieldError :=
  ⟨path, "not_allowed_override", "this field is derived from stored data and cannot be overridden"⟩

/-- The text of the path of a key below `parent`. -/
def pathBelow (parent key : String) : String := if parent = "" then key else parent ++ "." ++ key

mutual

/-- Fails at the first leaf whose path is not on the list. -/
def validateExtraAllowlist (allowed : List String) : List (String × Json) → String → Except FieldError Unit
  | [], _ => .ok ()
  | (key, value) :: rest, parent => do
    validateValue allowed value (pathBelow parent key)
    validateExtraAllowlist allowed rest parent
termination_by structural extra => extra

/-- An object without members is checked at its own path. -/
def validateValue (allowed : List String) : Json → String → Except FieldError Unit
  | .obj ms, path =>
    if ms.isEmpty then ensure (path ∈ allowed) (notAllowedOverride path) else validateExtraAllowlist allowed ms path
  | .null, path | .bool _, path | .int _, path | .float _, path | .str _, path | .arr _, path =>
    ensure (path ∈ allowed) (notAllowedOverride path)
termination_by structural value => value

end

/-- The reply, and the input as it is then. -/
def mergeAllowedExtra (input : Json) (extra : List (String × Json)) (allowed : List String) :
    Except FieldError Unit × Json :=
  match validateExtraAllowlist allowed extra "" with
  | .error refusal => (.error refusal, input)
  | .ok () => (.ok (), input.mergePatch (.obj extra))

/-- The input after the edits, one after another. -/
def applyEdits (allowed : List String) (input : Json) (edits : List (List (String × Json))) : Json :=
  edits.foldl (fun j extra => (mergeAllowedExtra j extra allowed).2) input

/-! ### Paths and their texts -/

/-- The keys of a path with dots between them. -/
def dotted : List String → String
  | [] => ""
  | [key] => key
  | key :: next :: rest => key ++ "." ++ dotted (next :: rest)

/-- An entry of the list names the path whose keys are its pieces between the dots. -/
def Named (allowed : List String) (path : List String) : Prop :=
  path ≠ [] ∧ (∀ key ∈ path, '.' ∉ key.toList) ∧ dotted path ∈ allowed

/-- The text by which the check knows a path. -/
def pathText (path : List String) : String := path.foldl pathBelow ""

theorem foldl_pathBelow (parent : String) (path : List String) (hParent : parent ≠ "") :
    path.foldl pathBelow parent = dotted (parent :: path) := by
  induction path generalizing parent with
  | nil => rfl
  | cons key rest ih =>
    have hBelow : pathBelow parent key = parent ++ "." ++ key := if_neg hParent
    have hNe : parent ++ "." ++ key ≠ "" := by simp
    rw [List.foldl_cons, hBelow, ih _ hNe]
    cases rest with
    | nil => rfl
    | cons next rest => simp only [dotted, String.append_assoc]

/-- The text is the dotted path, but where the first key is empty and not the only one. -/
theorem pathText_eq (key : String) (rest : List String) (h : key ≠ "" ∨ rest = []) :
    pathText (key :: rest) = dotted (key :: rest) := by
  have hFirst : pathBelow "" key = key := rfl
  rw [pathText, List.foldl_cons, hFirst]
  by_cases hKey : key = ""
  · obtain rfl := h.resolve_left fun hNe => hNe hKey
    rfl
  · exact foldl_pathBelow key rest hKey

mutual

theorem validateExtraAllowlist_ok (allowed : List String) (extra : List (String × Json)) (parent : String) :
    validateExtraAllowlist allowed extra parent = .ok () ↔
      ∀ leaf ∈ Json.leavesOf extra, leaf.1.foldl pathBelow parent ∈ allowed := by
  cases extra with
  | nil => simp [validateExtraAllowlist, Json.leavesOf]
  | cons first rest =>
    obtain ⟨key, value⟩ := first
    have hValue := validateValue_ok allowed value (pathBelow parent key)
    have hRest := validateExtraAllowlist_ok allowed rest parent
    simp only [validateExtraAllowlist, bind_eq_ok, exists_const, hValue, hRest, Json.leavesOf, List.forall_mem_append,
      List.forall_mem_map, List.foldl_cons]

theorem validateValue_ok (allowed : List String) (value : Json) (path : String) :
    validateValue allowed value path = .ok () ↔ ∀ leaf ∈ Json.leaves value, leaf.1.foldl pathBelow path ∈ allowed := by
  cases value with
  | obj ms =>
    cases ms with
    | nil => simp [validateValue, Json.leaves]
    | cons first rest => exact validateExtraAllowlist_ok allowed (first :: rest) path
  | _ => simp [validateValue, Json.leaves]

end

theorem mergeAllowedExtra_refused {allowed : List String} {input : Json} {extra : List (String × Json)}
    {refusal : FieldError} (h : (mergeAllowedExtra input extra allowed).1 = .error refusal) :
    (mergeAllowedExtra input extra allowed).2 = input := by
  unfold mergeAllowedExtra at h ⊢
  split
  · rfl
  · rename_i hOk
    rw [hOk] at h
    cases h

/-- A list of plain keys lets nothing pass but below these keys, or below an empty one. -/
theorem first_of_pathText {allowed : List String} (hPlain : ∀ a ∈ allowed, '.' ∉ a.toList) {key : String}
    {rest : List String} (h : pathText (key :: rest) ∈ allowed) : key = "" ∨ key ∈ allowed := by
  by_cases hKey : key = ""
  · exact .inl hKey
  · rw [pathText_eq key rest (.inl hKey)] at h
    cases rest with
    | nil => exact .inr h
    | cons next rest =>
      refine absurd ?_ (hPlain _ h)
      simp [dotted]

/-- What passes a list of plain keys changes nothing under the other keys. -/
theorem mergeAllowedExtra_at? {allowed : List String} (hPlain : ∀ a ∈ allowed, '.' ∉ a.toList)
    {ms extra : List (String × Json)} {result : Json}
    (h : mergeAllowedExtra (.obj ms) extra allowed = (.ok (), result)) {key : String} (hKey : key ≠ "")
    (hOther : key ∉ allowed) (path : List String) :
    result.at? (key :: path) = (Json.obj ms).at? (key :: path) := by
  unfold mergeAllowedExtra at h
  split at h
  · cases h
  · rename_i hOk
    have hTexts := (validateExtraAllowlist_ok allowed extra "").mp hOk
    have hMerge : (Json.obj ms).mergePatch (.obj extra) = (Json.obj ms).putAll (Json.leavesOf extra) :=
      Json.mergeMembers_eq_putAll ms extra
    have hResult : (Json.obj ms).mergePatch (.obj extra) = result := (Prod.mk.inj h).2
    rw [← hResult, hMerge]
    refine Json.at?_putAll_other fun leaf hLeaf => ?_
    obtain ⟨k, rest, hPath⟩ := List.exists_cons_of_ne_nil (Json.path_ne_nil hLeaf)
    refine ⟨k, rest, hPath, ?_⟩
    rintro rfl
    have hText := hTexts leaf hLeaf
    rw [hPath] at hText
    exact (first_of_pathText hPlain hText).elim hKey hOther

/-- No entry of the list names the path, one that leads to it or one below it. -/
def Guarded (allowed path : List String) : Prop :=
  path.head? ≠ some "" ∧ path ≠ [] ∧ (∀ n < path.length, dotted (path.take (n + 1)) ∉ allowed) ∧
    ∀ a ∈ allowed, ¬ (dotted path).toList ++ ['.'] <+: a.toList

instance (allowed path : List String) : Decidable (Guarded allowed path) :=
  inferInstanceAs (Decidable (_ ∧ _ ∧ _ ∧ _))

theorem dotted_append {path rest : List String} (hPath : path ≠ []) (hRest : rest ≠ []) :
    dotted (path ++ rest) = dotted path ++ "." ++ dotted rest := by
  induction path with
  | nil => exact absurd rfl hPath
  | cons key path ih =>
    cases path with
    | nil =>
      obtain ⟨next, more, rfl⟩ := List.exists_cons_of_ne_nil hRest
      rfl
    | cons next path =>
      show key ++ "." ++ dotted (next :: path ++ rest) = _
      rw [ih (List.cons_ne_nil _ _)]
      simp only [dotted, String.append_assoc]

/-- What passes the list changes nothing at a guarded path. -/
theorem mergeAllowedExtra_guarded {allowed path : List String} (hGuarded : Guarded allowed path)
    {ms extra : List (String × Json)} {result : Json}
    (h : mergeAllowedExtra (.obj ms) extra allowed = (.ok (), result)) :
    result.at? path = (Json.obj ms).at? path := by
  obtain ⟨hHead, hPath, hAbove, hBelow⟩ := hGuarded
  unfold mergeAllowedExtra at h
  split at h
  · cases h
  · rename_i hOk
    have hTexts := (validateExtraAllowlist_ok allowed extra "").mp hOk
    have hMerge : (Json.obj ms).mergePatch (.obj extra) = (Json.obj ms).putAll (Json.leavesOf extra) :=
      Json.mergeMembers_eq_putAll ms extra
    have hResult : (Json.obj ms).mergePatch (.obj extra) = result := (Prod.mk.inj h).2
    rw [← hResult, hMerge]
    refine Json.at?_putAll_apart fun leaf hLeaf => ?_
    have hNe := Json.path_ne_nil hLeaf
    have hTake : leaf.1 <+: path → dotted leaf.1 ∉ allowed := fun hPrefix => by
      obtain ⟨n, hLength⟩ := Nat.exists_eq_add_one_of_ne_zero (List.length_eq_zero_iff.not.mpr hNe)
      rw [List.prefix_iff_eq_take.mp hPrefix, hLength]
      have hLe := hPrefix.length_le
      exact hAbove n (by omega)
    -- A path that shares its first key with the guarded one is known to the check by its keys.
    have hText : leaf.1.head? = path.head? → dotted leaf.1 ∈ allowed := fun hSame => by
      have hIn := hTexts leaf hLeaf
      obtain ⟨key, rest, hKeys⟩ := List.exists_cons_of_ne_nil hNe
      rw [hKeys] at hIn hSame ⊢
      rwa [← pathText_eq key rest (.inl fun hEmpty => hHead (by rw [← hSame, hEmpty]; rfl))]
    constructor
    · intro hPrefix
      have hSame : leaf.1.head? = path.head? := by
        obtain ⟨rest, rfl⟩ := hPrefix
        rw [List.head?_append_of_ne_nil _ hNe]
      exact hTake hPrefix (hText hSame)
    · rintro ⟨rest, hRest⟩
      have hIn := hText (by rw [← hRest, List.head?_append_of_ne_nil _ hPath])
      cases rest with
      | nil =>
        rw [← hRest, List.append_nil] at hIn
        exact hTake (by rw [← hRest, List.append_nil]) (by rw [← hRest, List.append_nil]; exact hIn)
      | cons next rest =>
        refine hBelow _ hIn ?_
        rw [← hRest, dotted_append hPath (List.cons_ne_nil _ _), String.toList_append, String.toList_append]
        exact List.prefix_append _ _

/-! ### What the edits leave of the input -/

section

variable (allowed : List String)

/-- The leaves at the paths that the list does not name are the same, and every new key lies on a path that
it names. -/
structure Kept (input result : Json) : Prop where
  leaf : ∀ path, ¬ Named allowed path → result.leafAt? path = input.leafAt? path
  key : ∀ path, (result.at? path).isSome → (input.at? path).isSome ∨ ∃ rest, Named allowed (path ++ rest)

/-- If the texts of the paths of an edit are all on the list, the list names the paths themselves, and no
leaf of the input that it does not name lies above or below one that the edit writes. -/
def Aligned (input : Json) (extra : List (String × Json)) : Prop :=
  (∀ leaf ∈ Json.leavesOf extra, pathText leaf.1 ∈ allowed) →
    ∀ leaf ∈ Json.leavesOf extra, Named allowed leaf.1 ∧
      ∀ path, (input.leafAt? path).isSome → ¬ Named allowed path →
        ¬ path <+: leaf.1 ∧ (leaf.2.isObject = false → ¬ leaf.1 <+: path)

variable {allowed} {input mid result : Json}

theorem Kept.refl (input : Json) : Kept allowed input input := ⟨fun _ _ => rfl, fun _ h => .inl h⟩

theorem Kept.trans (h1 : Kept allowed input mid) (h2 : Kept allowed mid result) : Kept allowed input result where
  leaf := fun path hPath => (h2.leaf path hPath).trans (h1.leaf path hPath)
  key := fun path hSome => (h2.key path hSome).elim (h1.key path) .inr

/-- One assignment at a path that the list names. -/
theorem Kept.put {path : List String} {v : Json} (hNamed : Named allowed path)
    (hAcross : ∀ other, (input.leafAt? other).isSome → ¬ Named allowed other →
      ¬ other <+: path ∧ (v.isObject = false → ¬ path <+: other)) :
    Kept allowed input (input.put path v) where
  leaf := fun other hOther => by
    have hNe : other ≠ path := fun h => hOther (h ▸ hNamed)
    by_cases hAbove : other <+: path
    · rw [Json.leafAt?_put_above hAbove hNe]
      by_contra hLeaf
      exact (hAcross other (Option.isSome_iff_ne_none.mpr (Ne.symm hLeaf)) hOther).1 hAbove
    · by_cases hBelow : path <+: other
      · rw [Json.leafAt?_put_below hBelow hNe.symm]
        split
        · rfl
        · rename_i hValue
          by_contra hLeaf
          exact (hAcross other (Option.isSome_iff_ne_none.mpr (Ne.symm hLeaf)) hOther).2 (by simpa using hValue) hBelow
      · exact Json.leafAt?_put_apart hAbove hBelow
  key := fun other hSome => by
    rcases Json.at?_put_isSome hSome with hBefore | ⟨rest, hOn⟩
    · exact .inl hBefore
    · exact .inr ⟨rest, hOn ▸ hNamed⟩

/-- Assignments one after another, where none has a leaf of the input in its way. -/
theorem Kept.putAll {assignments : List (List String × Json)}
    (h : ∀ leaf ∈ assignments, Named allowed leaf.1 ∧
      ∀ path, (input.leafAt? path).isSome → ¬ Named allowed path →
        ¬ path <+: leaf.1 ∧ (leaf.2.isObject = false → ¬ leaf.1 <+: path)) :
    Kept allowed input (input.putAll assignments) := by
  induction assignments generalizing input with
  | nil => exact .refl input
  | cons first rest ih =>
    obtain ⟨hNamed, hAcross⟩ := h first List.mem_cons_self
    have hFirst : Kept allowed input (input.put first.1 first.2) := .put hNamed hAcross
    refine hFirst.trans (ih fun leaf hLeaf => ?_)
    obtain ⟨hNamed', hAcross'⟩ := h leaf (List.mem_cons_of_mem _ hLeaf)
    refine ⟨hNamed', fun path hSome hPath => hAcross' path ?_ hPath⟩
    rwa [hFirst.leaf path hPath] at hSome

/-- One edit. -/
theorem Kept.edit {extra : List (String × Json)} (hObject : input.isObject = true)
    (hAligned : Aligned allowed input extra) : Kept allowed input (mergeAllowedExtra input extra allowed).2 := by
  unfold mergeAllowedExtra
  split
  · exact .refl input
  · rename_i hOk
    have hAll := hAligned ((validateExtraAllowlist_ok allowed extra "").mp hOk)
    cases input with
    | obj ms =>
      have hMerge : (Json.obj ms).mergePatch (.obj extra) = (Json.obj ms).putAll (Json.leavesOf extra) :=
        Json.mergeMembers_eq_putAll ms extra
      rw [hMerge]
      exact .putAll hAll
    | _ => cases hObject

theorem isObject_edit {extra : List (String × Json)} (h : input.isObject = true) :
    (mergeAllowedExtra input extra allowed).2.isObject = true := by
  unfold mergeAllowedExtra
  split
  · exact h
  · rfl

/-- Without dots in its keys, and without an empty key over what has members, an edit has no path that the
list does not name but its text does. -/
theorem Aligned.of_plain {extra : List (String × Json)}
    (hDots : ∀ leaf ∈ Json.leavesOf extra, ∀ key ∈ leaf.1, '.' ∉ key.toList)
    (hEmpty : ∀ leaf ∈ Json.leavesOf extra, ∀ rest, leaf.1 = "" :: rest → rest = [])
    (hAcross : ∀ leaf ∈ Json.leavesOf extra, ∀ path, (input.leafAt? path).isSome → ¬ Named allowed path →
      ¬ path <+: leaf.1 ∧ (leaf.2.isObject = false → ¬ leaf.1 <+: path)) :
    Aligned allowed input extra := by
  refine fun hTexts leaf hLeaf => ⟨⟨Json.path_ne_nil hLeaf, hDots leaf hLeaf, ?_⟩, hAcross leaf hLeaf⟩
  have hText := hTexts leaf hLeaf
  obtain ⟨key, rest, hPath⟩ := List.exists_cons_of_ne_nil (Json.path_ne_nil hLeaf)
  rw [hPath] at hText ⊢
  rwa [pathText_eq key rest] at hText
  by_cases hKey : key = ""
  · exact .inr (hEmpty leaf hLeaf rest (hKey ▸ hPath))
  · exact .inl hKey

end

/-- Edits of which each is aligned with the input as it finds it leave all that the list does not name, and a
refused one leaves everything. -/
theorem applyEdits_kept (allowed : List String) (input : Json) (edits : List (List (String × Json)))
    (hObject : input.isObject = true)
    (hAligned : ∀ before extra after, edits = before ++ extra :: after →
      Aligned allowed (applyEdits allowed input before) extra) :
    Kept allowed input (applyEdits allowed input edits) ∧
      ∀ before extra refusal, (mergeAllowedExtra (applyEdits allowed input before) extra allowed).1 = .error refusal →
        applyEdits allowed input (before ++ [extra]) = applyEdits allowed input before := by
  refine ⟨?_, fun before extra refusal hRefused => ?_⟩
  · induction edits generalizing input with
    | nil => exact .refl input
    | cons extra rest ih =>
      have hFirst : Kept allowed input (mergeAllowedExtra input extra allowed).2 :=
        .edit hObject (hAligned [] extra rest rfl)
      refine hFirst.trans (ih _ (isObject_edit hObject) fun before next after hSplit => ?_)
      exact hAligned (extra :: before) next after (congrArg (extra :: ·) hSplit)
  · rw [applyEdits, List.foldl_append]
    exact mergeAllowedExtra_refused hRefused

/-- A director is written over, next to a name that the list does not name. -/
theorem applyEdits_kept_director :
    Kept ["director"] (.obj [("director", .str "А"), ("name", .str "Б")])
      (applyEdits ["director"] (.obj [("director", .str "А"), ("name", .str "Б")]) [[("director", .str "В")]]) := by
  refine (applyEdits_kept ["director"] _ [[("director", .str "В")]] rfl fun before extra after hSplit => ?_).1
  obtain ⟨rfl, rfl, rfl⟩ : before = [] ∧ extra = [("director", .str "В")] ∧ after = [] := by
    cases before with
    | nil =>
      obtain ⟨rfl, rfl⟩ := List.cons.inj hSplit
      exact ⟨rfl, rfl, rfl⟩
    | cons first before => simp at hSplit
  intro _ leaf hLeaf
  obtain rfl : leaf = (["director"], .str "В") := by simpa [Json.leavesOf, Json.leaves] using hLeaf
  have hNamed : Named ["director"] ["director"] := ⟨by simp, by decide, by simp [dotted]⟩
  refine ⟨hNamed, fun path hSome hPath => ⟨fun hAbove => ?_, fun _ hBelow => ?_⟩⟩
  · rcases List.prefix_cons_iff.mp hAbove with rfl | ⟨rest, rfl, hRest⟩
    · cases hSome
    · obtain rfl := List.prefix_nil.mp hRest
      exact hPath hNamed
  · obtain ⟨rest, rfl⟩ := hBelow
    cases rest with
    | nil => exact hPath hNamed
    | cons key rest => cases hSome

/-- A key with a dot in it passes for the path that the list names, and so does a key below an empty one. -/
theorem editableFields_forged :
    ¬ Kept (InputPolicy.editableFields "labor_contract") (.obj [("employer", .obj [("director", .str "А")])])
        (mergeAllowedExtra (.obj [("employer", .obj [("director", .str "А")])]) [("employer.director", .str "Б")]
          (InputPolicy.editableFields "labor_contract")).2 ∧
      ¬ Kept (InputPolicy.editableFields "hr_order") (.obj [])
        (mergeAllowedExtra (.obj []) [("", .obj [("reason", .str "Б")])] (InputPolicy.editableFields "hr_order")).2 := by
  constructor
  · intro hKept
    rcases hKept.key ["employer.director"] rfl with hBefore | ⟨rest, hNamed⟩
    · cases hBefore
    · exact absurd (hNamed.2.1 "employer.director" (by simp)) (by decide)
  · intro hKept
    have hNot : ¬ Named (InputPolicy.editableFields "hr_order") ["", "reason"] := fun hNamed => by
      have hEntry := hNamed.2.2
      simp [InputPolicy.editableFields, dotted] at hEntry
    cases hKept.leaf ["", "reason"] hNot

end CyberAccountant.Api.Validation
