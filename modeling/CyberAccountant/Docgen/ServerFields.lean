import CyberAccountant.Docgen.InputPolicy
import CyberAccountant.Library.Checked
import CyberAccountant.Library.Json
import CyberAccountant.Library.Word64
import CyberAccountant.Money.Agreement
import Mathlib.Data.List.Forall2
import Mathlib.Data.List.Nodup
import Mathlib.Data.List.Pairwise

/-! The fields of a document's input that the server writes itself: the printed amounts, from the integers
that the client sends, and the seller, from the organization. -/

namespace CyberAccountant.Docgen.InputPolicy

open CyberAccountant.Library CyberAccountant.Money

/-- The fields of money of a form, as dotted paths. -/
structure DerivedAmount where
  tiynPath : String
  amountPath : String
  wordsPath : String
  /-- The integers that add up to the total, each with the path of its text. -/
  components : List (String × String)
  /-- Parts of the total that may be missing. -/
  optionalParts : List (String × String)

def derivedAmountFor (slug : String) : Option DerivedAmount :=
  if slug = "invoice" ∨ slug = "avr" then
    some ⟨"total_tiyn", "total", "total_words", [], [("vat_tiyn", "vat_amount")]⟩
  else if slug = "waybill" then some ⟨"total_tiyn", "total", "total_words", [], []⟩
  else if slug = "tax_invoice" then
    some ⟨"totals.with_vat_tiyn", "totals.with_vat", "total_words",
      [("totals.amount_tiyn", "totals.amount"), ("totals.vat_tiyn", "totals.vat")], []⟩
  else none

/-- What the caller is told of a field. -/
structure FieldError where
  field : String
  code : String
  message : String
  deriving DecidableEq

/-- The exceptions of the calls below. -/
inductive Thrown where
  /-- `operator[]` of the JSON library on what is no object. -/
  | typeError
  /-- `format_tiyn_ru` of a negative amount. -/
  | format
  | words (fault : WordsFault)

/-- The keys of a dotted path. -/
def keysOf (path : String) : List String := (path.toList.splitOn '.').map String.ofList

def atPath (input : Json) (path : String) : Option Json := input.at? (keysOf path)

/-- The members that `operator[]` adds to: null becomes an object. -/
def indexed : Json → Except Thrown (List (String × Json))
  | .obj ms => .ok ms
  | .null => .ok []
  | _ => .error .typeError

def setPath : Json → List String → Json → Except Thrown Json
  | j, [], _ => .ok j
  | j, [key], value => do
    let ms ← indexed j
    return .obj (Json.setMember ms key value)
  | j, key :: next :: path, value => do
    let ms ← indexed j
    -- What is under the key is replaced by an object unless it is one.
    let inner ← setPath (.obj ((Json.member ms key).getD .null).members) (next :: path) value
    return .obj (Json.setMember ms key inner)

def readTiyn (input : Json) (path : String) : Except FieldError Int :=
  match atPath input path with
  | none => .error ⟨"input." ++ path, "missing",
      "'" ++ path ++ "' is required — money is carried as an integer number of tiyn"⟩
  | some (.int n) =>
    if wrap64 n < 0 ∨ maxTiyn < wrap64 n then
      .error ⟨"input." ++ path, "out_of_range",
        "'" ++ path ++ "' must be between 0 and " ++ toString maxTiyn ++ " tiyn inclusive"⟩
    else .ok (wrap64 n)
  | some _ => .error ⟨"input." ++ path, "not_integer", "'" ++ path ++ "' must be an integer number of tiyn"⟩

def DerivedAmount.serverWritten (d : DerivedAmount) : List String :=
  d.amountPath :: d.wordsPath :: d.components.map Prod.snd ++ d.optionalParts.map Prod.snd

def notAllowedOverride (path : String) : FieldError where
  field := "input." ++ path
  code := "not_allowed_override"
  message := "'" ++ path ++ "' is formatted by the server from the integer tiyn fields and may not be " ++
    "supplied by the client"

/-- The sum of the components in 64-bit integers. -/
def sum64 (values : List Int) : Int := values.foldl (fun sum v => wrap64 (sum + v)) 0

def inconsistentTotal (d : DerivedAmount) (values : List Int) (total : Int) : FieldError where
  field := "input." ++ d.tiynPath
  code := "inconsistent_total"
  message := " + ".intercalate ((d.components.zip values).map fun part =>
      part.1.1 ++ " (" ++ toString part.2 ++ ")") ++
    " = " ++ toString (sum64 values) ++ " tiyn, which does not equal " ++ d.tiynPath ++
    " (" ++ toString total ++ ")"

def exceedsTotal (d : DerivedAmount) (path : String) (value total : Int) : FieldError where
  field := "input." ++ path
  code := "exceeds_total"
  message := "'" ++ path ++ "' (" ++ toString value ++ " tiyn) is larger than " ++ d.tiynPath ++ " (" ++
    toString total ++ " tiyn) — a part of the amount due cannot exceed the amount due"

/-- The optional parts that are sent, each with the path of its text. -/
def readOptional (d : DerivedAmount) (input : Json) (total : Int) :
    List (String × String) → Except FieldError (List (String × Int))
  | [] => .ok []
  | part :: rest =>
    if (atPath input part.1).isNone then readOptional d input total rest
    else do
      let value ← readTiyn input part.1
      ensure (value ≤ total) (exceedsTotal d part.1 value total)
      return (part.2, value) :: (← readOptional d input total rest)

/-- The checks of `apply_derived_amount`: the total, and the paths of the other texts with their amounts. -/
def checkDerived (d : DerivedAmount) (input : Json) : Except FieldError (Int × List (String × Int)) := do
  d.serverWritten.forM fun path => ensure (atPath input path = none) (notAllowedOverride path)
  let total ← readTiyn input d.tiynPath
  let values ← d.components.mapM fun part => readTiyn input part.1
  ensure (d.components = [] ∨ sum64 values = total) (inconsistentTotal d values total)
  let optional ← readOptional d input total d.optionalParts
  return (total, (d.components.map Prod.snd).zip values ++ optional)

def formatted (tiyn : Int) : Except Thrown Json :=
  match formatTiynRu tiyn with
  | some text => .ok (.str text)
  | none => .error .format

def inWords (tiyn : Int) : Except Thrown Json :=
  match toWordsRu tiyn with
  | .ok text => .ok (.str text)
  | .error fault => .error (.words fault)

def writeDerived (d : DerivedAmount) (input : Json) (total : Int) (parts : List (String × Int)) :
    Except Thrown Json := do
  let input ← setPath input (keysOf d.amountPath) (← formatted total)
  let input ← setPath input (keysOf d.wordsPath) (← inWords total)
  parts.foldlM (fun input part => do setPath input (keysOf part.1) (← formatted part.2)) input

/-- What it answers, and the input as it leaves it. -/
def applyDerivedAmount (slug : String) (input : Json) : Except Thrown (Except FieldError Unit × Json) :=
  match derivedAmountFor slug with
  | none => .ok (.ok (), input)
  | some d =>
    match checkDerived d input with
    | .error e => .ok (.error e, input)
    | .ok (total, parts) => (fun input => (.ok (), input)) <$> writeDerived d input total parts

structure SellerRequisites where
  name : String
  identifier : String
  address : String
  iik : String
  bank : String
  bik : String
  kbe : String
  vatCertificate : String

def sellerIsTheOrganization (slug : String) : Bool :=
  slug = "invoice" || slug = "avr" || slug = "waybill" || slug = "tax_invoice"

/-- The requisites that are filled in, under their keys. -/
def SellerRequisites.party (slug : String) (seller : SellerRequisites) : Json :=
  .obj ((("name", seller.name) :: ("identifier", seller.identifier) ::
    ([("address", seller.address), ("iik", seller.iik), ("bank", seller.bank), ("bik", seller.bik),
      ("kbe", seller.kbe)] ++
      if slug = "tax_invoice" then [("vat_certificate", seller.vatCertificate)] else []).filter (·.2 ≠ "")).foldl
        (fun party field => Json.setMember party field.1 (.str field.2)) [])

def sellerOverride : FieldError where
  field := "input.seller"
  code := "not_allowed_override"
  message := "'seller' is filled in by the server from the organization's own requisites and may not be supplied " ++
    "by the client"

def applySellerRequisites (slug : String) (input : Json) (seller : SellerRequisites) :
    Except Thrown (Except FieldError Unit × Json) :=
  if ¬ sellerIsTheOrganization slug then .ok (.ok (), input)
  else if (Json.member input.members "seller").isSome then .ok (.error sellerOverride, input)
  else do
    let ms ← indexed input
    return (.ok (), .obj (Json.setMember ms "seller" (seller.party slug)))

/-! ### What is written -/

theorem keysOf_ne_nil (path : String) : keysOf path ≠ [] := by
  simp [keysOf, List.splitOn_ne_nil]

/-- On objects, a text is written by an assignment. -/
theorem setPath_obj {path : List String} {ms : List (String × Json)} (text : String) (h : path ≠ []) :
    setPath (.obj ms) path (.str text) = .ok ((Json.obj ms).put path (.str text)) := by
  induction path generalizing ms with
  | nil => exact absurd rfl h
  | cons key path ih =>
    cases path with
    | nil => rfl
    | cons next path =>
      have hInner := @ih ((Json.member ms key).getD .null).members (List.cons_ne_nil next path)
      have hSame : (Json.obj ((Json.member ms key).getD .null).members).put (next :: path) (.str text) =
          ((Json.member ms key).getD .null).put (next :: path) (.str text) := rfl
      have hPut : (Json.obj ms).put (key :: next :: path) (.str text) =
          .obj (Json.setMember ms key (((Json.member ms key).getD .null).put (next :: path) (.str text))) := by
        rw [Json.put, if_neg (by simp)]
        rfl
      rw [setPath, indexed, hPut, ← hSame]
      simp only [bind, Except.bind, pure, Except.pure, hInner]

theorem formatted_eq {tiyn : Int} {text : String} (h : formatTiynRu tiyn = some text) :
    formatted tiyn = .ok (.str text) := by
  rw [formatted, h]

/-- The text of an amount, to be written at the same path. -/
def TextOf (part : String × Int) (text : String × String) : Prop :=
  text.1 = part.1 ∧ formatTiynRu part.2 = some text.2

/-- The texts of the parts are written one after another. -/
theorem writeParts_ok {parts : List (String × Int)} (h : ∀ part ∈ parts, 0 ≤ part.2) :
    ∃ texts : List (String × String), List.Forall₂ TextOf parts texts ∧
      ∀ ms, parts.foldlM (fun input part => do setPath input (keysOf part.1) (← formatted part.2)) (.obj ms) =
        (.ok ((Json.obj ms).putAll (texts.map fun text => (keysOf text.1, .str text.2))) : Except Thrown Json) := by
  induction parts with
  | nil => exact ⟨[], .nil, fun ms => rfl⟩
  | cons part parts ih =>
    rw [List.forall_mem_cons] at h
    obtain ⟨texts, hTexts, hWrites⟩ := ih h.2
    obtain ⟨text, hText⟩ := formatTiynRu_prints h.1
    refine ⟨(part.1, text) :: texts, .cons ⟨rfl, hText⟩ hTexts, fun ms => ?_⟩
    obtain ⟨key, rest, hKeys⟩ := List.exists_cons_of_ne_nil (keysOf_ne_nil part.1)
    have hMembers : (Json.obj ms).put (keysOf part.1) (.str text) =
        .obj ((Json.obj ms).put (keysOf part.1) (.str text)).members := by
      rw [hKeys]
      exact Json.members_put_cons _ _ _ _
    rw [List.foldlM_cons, formatted_eq hText]
    simp only [bind, Except.bind, setPath_obj text (keysOf_ne_nil part.1)]
    rw [hMembers]
    have hRest := hWrites ((Json.obj ms).put (keysOf part.1) (.str text)).members
    simp only [bind, Except.bind] at hRest
    rw [hRest, ← hMembers]
    rfl

/-! ### What is read -/

/-- The integers of the JSON library are signed or unsigned and have 64 bits. -/
def LibraryInts (input : Json) : Prop :=
  ∀ path n, input.at? path = some (.int n) → -9223372036854775808 ≤ n ∧ n < 18446744073709551616

theorem wrap64_in_range {n : Int} (hLow : -9223372036854775808 ≤ n) (hHigh : n < 18446744073709551616)
    (hSign : 0 ≤ wrap64 n) : wrap64 n = n := by
  by_cases hFits : n < 9223372036854775808
  · exact wrap64_of_inInt64 ⟨hLow, hFits⟩
  · -- An unsigned integer from 2 ^ 63 on is read as a negative one.
    have hWrap : wrap64 n = wrap64 (n - 18446744073709551616) :=
      (Int.sub_bmod_right n 18446744073709551616).symm
    rw [hWrap, wrap64_of_inInt64 ⟨by omega, by omega⟩] at hSign
    omega

theorem readTiyn_ok {input : Json} {path : String} {value : Int} (hInts : LibraryInts input)
    (h : readTiyn input path = .ok value) :
    atPath input path = some (.int value) ∧ 0 ≤ value ∧ value ≤ maxTiyn := by
  unfold readTiyn at h
  split at h
  · cases h
  · rename_i n hNode
    split at h
    · cases h
    · obtain rfl := Except.ok.inj h
      have hSign : 0 ≤ wrap64 n := by omega
      have hBounds := hInts _ _ hNode
      have hSame := wrap64_in_range hBounds.1 hBounds.2 hSign
      exact ⟨by rw [hSame]; exact hNode, hSign, by omega⟩
  · cases h

theorem readOptional_ok {d : DerivedAmount} {input : Json} {total : Int} {parts : List (String × String)}
    {optional : List (String × Int)} (h : readOptional d input total parts = .ok optional) :
    (optional.map Prod.fst).Sublist (parts.map Prod.snd) ∧
    (∀ part ∈ parts, (atPath input part.1).isSome → ∃ value, readTiyn input part.1 = .ok value ∧ value ≤ total ∧
      (part.2, value) ∈ optional) ∧
    ∀ text ∈ optional, ∃ part ∈ parts, part.2 = text.1 ∧ readTiyn input part.1 = .ok text.2 := by
  induction parts generalizing optional with
  | nil =>
    obtain rfl := Except.ok.inj h
    exact ⟨.slnil, by simp, by simp⟩
  | cons part rest ih =>
    unfold readOptional at h
    split at h
    · rename_i hNone
      obtain ⟨hPaths, hRead, hFrom⟩ := ih h
      refine ⟨hPaths.cons _, ?_, fun text hText => ?_⟩
      · rw [List.forall_mem_cons]
        refine ⟨fun hSome => ?_, hRead⟩
        rw [Option.isNone_iff_eq_none.mp hNone] at hSome
        cases hSome
      · obtain ⟨other, hOther, hSame⟩ := hFrom text hText
        exact ⟨other, List.mem_cons_of_mem _ hOther, hSame⟩
    · simp only [bind_eq_ok, ensure_eq_ok, pure_eq_ok] at h
      obtain ⟨value, hValue, -, hTotal, more, hMore, rfl⟩ := h
      obtain ⟨hPaths, hRead, hFrom⟩ := ih hMore
      refine ⟨hPaths.cons_cons _, ?_, ?_⟩
      · rw [List.forall_mem_cons]
        refine ⟨fun _ => ⟨value, hValue, hTotal, List.mem_cons_self⟩, fun other hOther hSome => ?_⟩
        obtain ⟨otherValue, hOtherValue, hLe, hMem⟩ := hRead other hOther hSome
        exact ⟨otherValue, hOtherValue, hLe, List.mem_cons_of_mem _ hMem⟩
      · rw [List.forall_mem_cons]
        refine ⟨⟨part, List.mem_cons_self, rfl, hValue⟩, fun text hText => ?_⟩
        obtain ⟨other, hOther, hSame⟩ := hFrom text hText
        exact ⟨other, List.mem_cons_of_mem _ hOther, hSame⟩

/-- What the checks have seen when they pass. -/
structure Checked (d : DerivedAmount) (input : Json) (total : Int) (values : List Int)
    (optional : List (String × Int)) : Prop where
  unsupplied : ∀ path ∈ d.serverWritten, atPath input path = none
  readTotal : readTiyn input d.tiynPath = .ok total
  components : List.Forall₂ (fun part value => readTiyn input part.1 = .ok value) d.components values
  sum : d.components = [] ∨ sum64 values = total
  readOptional : readOptional d input total d.optionalParts = .ok optional

theorem mapM_eq_ok {ε α β : Type} {f : α → Except ε β} {xs : List α} {ys : List β} (h : xs.mapM f = .ok ys) :
    List.Forall₂ (fun x y => f x = .ok y) xs ys := by
  induction xs generalizing ys with
  | nil =>
    obtain rfl : [] = ys := by simpa using h
    exact .nil
  | cons x xs ih =>
    simp only [List.mapM_cons, bind_eq_ok, pure_eq_ok] at h
    obtain ⟨y, hFirst, rest, hRest, rfl⟩ := h
    exact .cons hFirst (ih hRest)

theorem checkDerived_ok {d : DerivedAmount} {input : Json} {total : Int} {parts : List (String × Int)}
    (h : checkDerived d input = .ok (total, parts)) :
    ∃ values optional, Checked d input total values optional ∧
      parts = (d.components.map Prod.snd).zip values ++ optional := by
  simp only [checkDerived, bind_eq_ok, ensure_eq_ok, pure_eq_ok, Prod.mk.injEq] at h
  obtain ⟨_, hUnsupplied, _, hTotal, values, hValues, -, hSum, optional, hOptional, rfl, rfl⟩ := h
  refine ⟨values, optional, ⟨fun path hPath => ?_, hTotal, mapM_eq_ok hValues, hSum, hOptional⟩, rfl⟩
  have hEach := forM_eq_ok.mp hUnsupplied path hPath
  exact ensure_eq_ok.mp hEach

/-- A sum of amounts in range is exact. -/
theorem sum64_eq {values : List Int} {bound : Int} (h : ∀ v ∈ values, 0 ≤ v ∧ v ≤ bound)
    (hFits : bound * values.length < 9223372036854775808) : sum64 values = values.foldr (· + ·) 0 := by
  have hRun : ∀ (values : List Int) (start : Int), 0 ≤ start → (∀ v ∈ values, 0 ≤ v ∧ v ≤ bound) →
      start + bound * values.length < 9223372036854775808 →
      values.foldl (fun sum v => wrap64 (sum + v)) start = start + values.foldr (· + ·) 0 := by
    intro values
    induction values with
    | nil => simp
    | cons v values ih =>
      intro start hStart hValues hSum
      rw [List.forall_mem_cons] at hValues
      obtain ⟨⟨hLow, hHigh⟩, hValues⟩ := hValues
      have hBound : 0 ≤ bound * values.length := Int.mul_nonneg (by omega) (by omega)
      have hLength : bound * ((v :: values).length : Int) = bound * values.length + bound := by
        rw [List.length_cons, Int.natCast_succ, Int.mul_add, Int.mul_one]
      rw [hLength] at hSum
      rw [List.foldl_cons, wrap64_of_inInt64 ⟨by omega, by omega⟩, ih (start + v) (by omega) hValues (by omega),
        List.foldr_cons]
      omega
  have hAll := hRun values 0 (by omega) h (by omega)
  simpa [sum64] using hAll

/-! ### The whole -/

theorem writeDerived_ok {d : DerivedAmount} {total : Int} {parts : List (String × Int)}
    (hTotal : 0 ≤ total ∧ total ≤ maxTiyn) (hParts : ∀ part ∈ parts, 0 ≤ part.2) :
    ∃ text words texts, formatTiynRu total = some text ∧ toWordsRu total = .ok words ∧
      List.Forall₂ TextOf parts texts ∧ ∀ ms, writeDerived d (.obj ms) total parts = .ok ((Json.obj ms).putAll
        (((d.amountPath, text) :: (d.wordsPath, words) :: texts).map fun text => (keysOf text.1, .str text.2))) := by
  obtain ⟨text, hText⟩ := formatTiynRu_prints hTotal.1
  obtain ⟨words, hWords⟩ := toWordsRu_accepts hTotal
  obtain ⟨texts, hTexts, hWrites⟩ := writeParts_ok hParts
  refine ⟨text, words, texts, hText, hWords, hTexts, fun ms => ?_⟩
  have hObject : ∀ ms path (text : String), (Json.obj ms).put (keysOf path) (.str text) =
      .obj ((Json.obj ms).put (keysOf path) (.str text)).members := by
    intro ms path text
    obtain ⟨key, rest, hKeys⟩ := List.exists_cons_of_ne_nil (keysOf_ne_nil path)
    rw [hKeys]
    exact Json.members_put_cons _ _ _ _
  rw [writeDerived, formatted_eq hText, show inWords total = .ok (.str words) by rw [inWords, hWords]]
  simp only [bind, Except.bind, setPath_obj text (keysOf_ne_nil _)]
  rw [hObject ms d.amountPath text, setPath_obj words (keysOf_ne_nil _)]
  simp only
  rw [hObject _ d.wordsPath words]
  have hRest := hWrites ((Json.obj ((Json.obj ms).put (keysOf d.amountPath) (.str text)).members).put
    (keysOf d.wordsPath) (.str words)).members
  simp only [bind, Except.bind] at hRest
  rw [hRest, ← hObject, ← hObject]
  rfl

def DerivedAmount.readPaths (d : DerivedAmount) : List String :=
  d.tiynPath :: d.components.map Prod.fst ++ d.optionalParts.map Prod.fst

/-- No path of the table leads through another or through the seller. -/
structure DerivedAmount.Separate (d : DerivedAmount) : Prop where
  written : d.serverWritten.Pairwise fun w w' => Json.Apart (keysOf w) (keysOf w')
  read : ∀ w ∈ d.serverWritten, ∀ r ∈ d.readPaths, Json.Apart (keysOf w) (keysOf r)
  seller : ∀ w ∈ d.serverWritten ++ d.readPaths, Json.Apart ["seller"] (keysOf w)
  few : d.components.length ≤ 2

theorem derivedAmountFor_separate {slug : String} {d : DerivedAmount} (h : derivedAmountFor slug = some d) :
    d.Separate := by
  unfold derivedAmountFor at h
  split at h
  · obtain rfl := Option.some.inj h
    exact ⟨by decide +kernel, by decide +kernel, by decide +kernel, by decide⟩
  split at h
  · obtain rfl := Option.some.inj h
    exact ⟨by decide +kernel, by decide +kernel, by decide +kernel, by decide⟩
  split at h
  · obtain rfl := Option.some.inj h
    exact ⟨by decide +kernel, by decide +kernel, by decide +kernel, by decide⟩
  · cases h

/-- An integer field and the text that is printed of it. -/
structure Printed (result : Json) (tiynPath textPath : String) (value : Int) : Prop where
  sign : 0 ≤ value
  max : value ≤ maxTiyn
  integer : atPath result tiynPath = some (.int value)
  text : ∃ text, formatTiynRu value = some text ∧ atPath result textPath = some (.str text)

/-- The texts of a form are those of its integers, which add up, and the client has sent none of them. -/
structure AmountsOk (d : DerivedAmount) (input result : Json) (total : Int) (values : List Int) : Prop where
  amount : Printed result d.tiynPath d.amountPath total
  words : ∃ words, toWordsRu total = .ok words ∧ atPath result d.wordsPath = some (.str words)
  components : List.Forall₂ (fun part value => Printed result part.1 part.2 value) d.components values
  sum : d.components ≠ [] → values.foldr (· + ·) 0 = total
  optional : ∀ part ∈ d.optionalParts, (atPath result part.1).isSome →
    ∃ value, Printed result part.1 part.2 value ∧ value ≤ total
  present : ∀ part ∈ d.optionalParts, ((atPath result part.2).isSome ↔ (atPath result part.1).isSome)
  unsupplied : ∀ path ∈ d.serverWritten, atPath input path = none

theorem textOf_paths {parts : List (String × Int)} {texts : List (String × String)}
    (h : List.Forall₂ TextOf parts texts) : texts.map Prod.fst = parts.map Prod.fst := by
  induction h with
  | nil => rfl
  | cons hText _ ih => rw [List.map_cons, List.map_cons, hText.1, ih]

theorem textOf_mem {parts : List (String × Int)} {texts : List (String × String)}
    (h : List.Forall₂ TextOf parts texts) {part : String × Int} (hMem : part ∈ parts) :
    ∃ text, formatTiynRu part.2 = some text ∧ (part.1, text) ∈ texts := by
  induction h with
  | nil => cases hMem
  | @cons _ written _ _ hText _ ih =>
    rcases List.mem_cons.mp hMem with rfl | hMem
    · exact ⟨written.2, hText.2, by rw [← hText.1]; exact List.mem_cons_self⟩
    · obtain ⟨text, hFormat, hIn⟩ := ih hMem
      exact ⟨text, hFormat, List.mem_cons_of_mem _ hIn⟩

/-- The texts that are written at paths of the table. -/
structure Written (d : DerivedAmount) (input result : Json) (texts : List (String × String)) : Prop where
  paths : (texts.map Prod.fst).Sublist d.serverWritten
  result : result = input.putAll (texts.map fun text => (keysOf text.1, .str text.2))

theorem Written.text {d : DerivedAmount} {input result : Json} {texts : List (String × String)}
    (hSeparate : d.Separate) (h : Written d input result texts) {path text : String} (hMem : (path, text) ∈ texts) :
    atPath result path = some (.str text) := by
  have hApart : (texts.map fun text => (keysOf text.1, Json.str text.2)).Pairwise
      fun leaf leaf' => Json.Apart leaf.1 leaf'.1 := by
    have hPaths := hSeparate.written.sublist h.paths
    rw [List.pairwise_map] at hPaths ⊢
    exact hPaths
  rw [h.result, atPath]
  exact Json.at?_putAll_mem hApart (List.mem_map_of_mem hMem) rfl rfl

theorem Written.frame {d : DerivedAmount} {input result : Json} {texts : List (String × String)}
    (h : Written d input result texts) {path : List String}
    (hApart : ∀ text ∈ texts, Json.Apart (keysOf text.1) path) : result.at? path = input.at? path := by
  rw [h.result]
  refine Json.at?_putAll_apart fun leaf hLeaf => ?_
  obtain ⟨text, hText, rfl⟩ := List.mem_map.mp hLeaf
  exact hApart text hText

theorem Written.frame_all {d : DerivedAmount} {input result : Json} {texts : List (String × String)}
    (h : Written d input result texts) {path : List String}
    (hApart : ∀ w ∈ d.serverWritten, Json.Apart (keysOf w) path) : result.at? path = input.at? path :=
  h.frame fun _ hText => hApart _ (h.paths.subset (List.mem_map_of_mem hText))

/-- A path of the table whose text is not written is left as it was. -/
theorem Written.untouched {d : DerivedAmount} {input result : Json} {texts : List (String × String)}
    (hSeparate : d.Separate) (h : Written d input result texts) {path : String} (hPath : path ∈ d.serverWritten)
    (hNot : path ∉ texts.map Prod.fst) : atPath result path = atPath input path := by
  refine h.frame fun text hText => ?_
  have hIn : text.1 ∈ d.serverWritten := h.paths.subset (List.mem_map_of_mem hText)
  have hNe : text.1 ≠ path := fun hSame => hNot (hSame ▸ List.mem_map_of_mem hText)
  have hSymm : Std.Symm fun w w' : String => Json.Apart (keysOf w) (keysOf w') := ⟨fun _ _ h => h.symm⟩
  exact hSeparate.written.forall hIn hPath hNe

theorem DerivedAmount.Separate.nodup {d : DerivedAmount} (h : d.Separate) : d.serverWritten.Nodup :=
  h.written.imp fun hApart hSame => hApart.1 (by rw [hSame])

section

variable {d : DerivedAmount} {ms : List (String × Json)} {total : Int} {values : List Int}
  {optional : List (String × Int)}

theorem Checked.parts_paths (h : Checked d (.obj ms) total values optional) :
    ((d.components.map Prod.snd).zip values ++ optional).map Prod.fst =
      d.components.map Prod.snd ++ optional.map Prod.fst := by
  rw [List.map_append, List.map_fst_zip (by simp [h.components.length_eq])]

theorem Checked.values_ok (hInts : LibraryInts (.obj ms)) (h : Checked d (.obj ms) total values optional) :
    ∀ value ∈ values, 0 ≤ value ∧ value ≤ maxTiyn := by
  have hReads : ∀ (parts : List (String × String)) (values : List Int),
      List.Forall₂ (fun part value => readTiyn (.obj ms) part.1 = .ok value) parts values →
      ∀ value ∈ values, 0 ≤ value ∧ value ≤ maxTiyn := by
    intro parts values hRead
    induction hRead with
    | nil => exact fun _ hValue => by cases hValue
    | cons hFirst _ ih => exact List.forall_mem_cons.mpr ⟨(readTiyn_ok hInts hFirst).2, ih⟩
  exact hReads _ _ h.components

theorem Checked.parts_sign (hInts : LibraryInts (.obj ms)) (h : Checked d (.obj ms) total values optional) :
    ∀ part ∈ (d.components.map Prod.snd).zip values ++ optional, 0 ≤ part.2 := by
  intro part hPart
  rcases List.mem_append.mp hPart with hPart | hPart
  · exact (h.values_ok hInts part.2 (List.of_mem_zip hPart).2).1
  · obtain ⟨_, -, -, hRead⟩ := (readOptional_ok h.readOptional).2.2 part hPart
    exact (readTiyn_ok hInts hRead).2.1

/-- The components of a checked input sum up without a wrap. -/
theorem Checked.sum_eq (hInts : LibraryInts (.obj ms)) (hSeparate : d.Separate)
    (h : Checked d (.obj ms) total values optional) (hSome : d.components ≠ []) : values.foldr (· + ·) 0 = total := by
  have hSum := h.sum.resolve_left hSome
  have hFew : (values.length : Int) ≤ 2 := by
    have hLength := h.components.length_eq
    have hTwo := hSeparate.few
    omega
  have hFits : maxTiyn * (values.length : Int) < 9223372036854775808 := by
    rw [maxTiyn]
    omega
  rw [sum64_eq (h.values_ok hInts) hFits] at hSum
  exact hSum

/-- The text of an optional part whose integer is missing is not among those that are written. -/
theorem Checked.not_written (hInts : LibraryInts (.obj ms)) (hSeparate : d.Separate)
    (h : Checked d (.obj ms) total values optional) {text words : String} {texts : List (String × String)}
    (hTexts : List.Forall₂ TextOf ((d.components.map Prod.snd).zip values ++ optional) texts)
    {part : String × String} (hPart : part ∈ d.optionalParts) (hMissing : ¬(atPath (.obj ms) part.1).isSome) :
    part.2 ∉ ((d.amountPath, text) :: (d.wordsPath, words) :: texts).map Prod.fst := by
  obtain ⟨-, -, hFrom⟩ := readOptional_ok h.readOptional
  intro hIn
  rw [List.map_cons, List.map_cons, textOf_paths hTexts, h.parts_paths, ← List.cons_append, ← List.cons_append] at hIn
  obtain ⟨-, hNodup, hDisjoint⟩ := List.nodup_append.mp hSeparate.nodup
  rcases List.mem_append.mp hIn with hIn | hIn
  · exact hDisjoint _ hIn _ (List.mem_map_of_mem hPart) rfl
  · obtain ⟨written, hWritten, hSame⟩ := List.mem_map.mp hIn
    obtain ⟨other, hOther, hOtherPath, hOtherRead⟩ := hFrom written hWritten
    have hPartSame : other = part := List.inj_on_of_nodup_map hNodup hOther hPart (hOtherPath.trans hSame)
    rw [hPartSame] at hOtherRead
    rw [(readTiyn_ok hInts hOtherRead).1] at hMissing
    exact hMissing rfl

/-- What the writes make of an input that has been checked. -/
theorem Checked.amountsOk (hInts : LibraryInts (.obj ms)) (hSeparate : d.Separate)
    (h : Checked d (.obj ms) total values optional) {text words : String} {texts : List (String × String)}
    {result : Json} (hText : formatTiynRu total = some text) (hWords : toWordsRu total = .ok words)
    (hTexts : List.Forall₂ TextOf ((d.components.map Prod.snd).zip values ++ optional) texts)
    (hWritten : Written d (.obj ms) result ((d.amountPath, text) :: (d.wordsPath, words) :: texts)) :
    AmountsOk d (.obj ms) result total values := by
  obtain ⟨-, hRead, -⟩ := readOptional_ok h.readOptional
  have hKept : ∀ path ∈ d.readPaths, atPath result path = atPath (.obj ms) path := fun path hPath =>
    hWritten.frame_all fun w hw => hSeparate.read w hw path hPath
  have hPrinted : ∀ tiynPath ∈ d.readPaths, ∀ textPath value,
      readTiyn (.obj ms) tiynPath = .ok value →
      (textPath, value) ∈ (d.components.map Prod.snd).zip values ++ optional →
      Printed result tiynPath textPath value := by
    intro tiynPath hPath textPath value hValue hPart
    obtain ⟨hInteger, hSign, hMax⟩ := readTiyn_ok hInts hValue
    obtain ⟨part, hFormat, hIn⟩ := textOf_mem hTexts hPart
    exact ⟨hSign, hMax, (hKept _ hPath).trans hInteger, part, hFormat, hWritten.text hSeparate
      (List.mem_cons_of_mem _ (List.mem_cons_of_mem _ hIn))⟩
  have hOptionalPath : ∀ part ∈ d.optionalParts, part.1 ∈ d.readPaths := fun part hPart =>
    List.mem_cons_of_mem _ (List.mem_append_right _ (List.mem_map_of_mem hPart))
  refine ⟨?_, ⟨words, hWords, hWritten.text hSeparate (List.mem_cons_of_mem _ List.mem_cons_self)⟩, ?_,
    h.sum_eq hInts hSeparate, fun part hPart hPresent => ?_, fun part hPart => ?_, h.unsupplied⟩
  · obtain ⟨hInteger, hSign, hMax⟩ := readTiyn_ok hInts h.readTotal
    exact ⟨hSign, hMax, (hKept _ List.mem_cons_self).trans hInteger, text, hText,
      hWritten.text hSeparate List.mem_cons_self⟩
  · obtain ⟨hLength, hReads⟩ := List.forall₂_iff_zip.mp h.components
    refine List.forall₂_iff_zip.mpr ⟨hLength, fun {part value} hZip => ?_⟩
    have hPart : (part.2, value) ∈ (d.components.map Prod.snd).zip values := by
      rw [List.zip_map_left]
      exact List.mem_map.mpr ⟨(part, value), hZip, rfl⟩
    have hPath : part.1 ∈ d.readPaths := List.mem_cons_of_mem _
      (List.mem_append_left _ (List.mem_map_of_mem (List.of_mem_zip hZip).1))
    exact hPrinted part.1 hPath part.2 value (hReads hZip) (List.mem_append_left _ hPart)
  · rw [hKept _ (hOptionalPath part hPart)] at hPresent
    obtain ⟨value, hValue, hLe, hIn⟩ := hRead part hPart hPresent
    exact ⟨value, hPrinted part.1 (hOptionalPath part hPart) part.2 value hValue (List.mem_append_right _ hIn), hLe⟩
  · rw [hKept _ (hOptionalPath part hPart)]
    have hServer : part.2 ∈ d.serverWritten := List.mem_append_right _ (List.mem_map_of_mem hPart)
    constructor
    · intro hPresent
      by_contra hMissing
      rw [hWritten.untouched hSeparate hServer (h.not_written hInts hSeparate hTexts hPart hMissing),
        h.unsupplied _ hServer] at hPresent
      cases hPresent
    · intro hPresent
      obtain ⟨value, hValue, -, hIn⟩ := hRead part hPart hPresent
      obtain ⟨_, _, hAt⟩ :=
        (hPrinted part.1 (hOptionalPath part hPart) part.2 value hValue (List.mem_append_right _ hIn)).text
      rw [hAt]
      rfl

end

/-- The paths at which the server writes into the input of a form. -/
def writtenBy (slug : String) : List String :=
  ((derivedAmountFor slug).map DerivedAmount.serverWritten).getD [] ++
    if sellerIsTheOrganization slug then ["seller"] else []

/-- What the two calls owe the documents: amounts that agree with their integers, the organization itself as the
seller, and nothing else changed. -/
structure Trustworthy (slug : String) (seller : SellerRequisites) (input result : Json) : Prop where
  amounts : ∀ d, derivedAmountFor slug = some d → ∃ total values, AmountsOk d input result total values
  seller : sellerIsTheOrganization slug = true →
    input.at? ["seller"] = none ∧ result.at? ["seller"] = some (seller.party slug)
  frame : ∀ path, (∀ w ∈ writtenBy slug, Json.Apart (keysOf w) path) → result.at? path = input.at? path

/-- A call leaves the input as it was or ends well, and throws in no case. -/
structure Answers (called : Except Thrown (Except FieldError Unit × Json)) (input : Json)
    (Good : Json → Prop) : Prop where
  answered : ∃ outcome result, called = .ok (outcome, result)
  failed : ∀ e result, called = .ok (.error e, result) → result = input
  succeeded : ∀ result, called = .ok (.ok (), result) → Good result

theorem Answers.error {e : FieldError} {input : Json} {Good : Json → Prop} :
    Answers (.ok (.error e, input)) input Good :=
  ⟨⟨_, _, rfl⟩, fun _ _ h => (Prod.mk.inj (Except.ok.inj h)).2.symm, fun _ h => (by cases h)⟩

theorem Answers.ok {input result : Json} {Good : Json → Prop} (h : Good result) :
    Answers (.ok (.ok (), result)) input Good :=
  ⟨⟨_, _, rfl⟩, fun _ _ h => (by cases h), fun _ hSame => (Prod.mk.inj (Except.ok.inj hSame)).2 ▸ h⟩

/-- What `apply_derived_amount` makes of an object. -/
structure DerivedOk (slug : String) (input result : Json) : Prop where
  object : ∃ ms, result = .obj ms
  amounts : ∀ d, derivedAmountFor slug = some d → ∃ total values, AmountsOk d input result total values
  frame : ∀ path, (∀ d, derivedAmountFor slug = some d → ∀ w ∈ d.serverWritten, Json.Apart (keysOf w) path) →
    result.at? path = input.at? path

theorem putAll_obj (ms : List (String × Json)) {assignments : List (List String × Json)}
    (h : ∀ leaf ∈ assignments, leaf.1 ≠ []) : ∃ ms', (Json.obj ms).putAll assignments = .obj ms' := by
  induction assignments generalizing ms with
  | nil => exact ⟨ms, rfl⟩
  | cons leaf rest ih =>
    rw [List.forall_mem_cons] at h
    obtain ⟨key, path, hPath⟩ := List.exists_cons_of_ne_nil h.1
    have hFirst : (Json.obj ms).put leaf.1 leaf.2 = .obj ((Json.obj ms).put leaf.1 leaf.2).members := by
      rw [hPath]
      exact Json.members_put_cons _ _ _ _
    have hRest := ih ((Json.obj ms).put leaf.1 leaf.2).members h.2
    rw [← hFirst] at hRest
    exact hRest

theorem applyDerivedAmount_answers (slug : String) {ms : List (String × Json)} (hInts : LibraryInts (.obj ms)) :
    Answers (applyDerivedAmount slug (.obj ms)) (.obj ms) (DerivedOk slug (.obj ms)) := by
  unfold applyDerivedAmount
  cases hSlug : derivedAmountFor slug with
  | none =>
    refine .ok ⟨⟨ms, rfl⟩, fun d h => ?_, fun path _ => rfl⟩
    cases hSlug.symm.trans h
  | some d =>
    cases hCheck : checkDerived d (.obj ms) with
    | error e =>
      simp only [hCheck]
      exact .error
    | ok checked =>
      obtain ⟨total, parts⟩ := checked
      obtain ⟨values, optional, hChecked, rfl⟩ := checkDerived_ok hCheck
      have hSeparate := derivedAmountFor_separate hSlug
      have hTotal := readTiyn_ok hInts hChecked.readTotal
      obtain ⟨text, words, texts, hText, hWords, hTexts, hWrite⟩ :=
        writeDerived_ok (d := d) hTotal.2 (hChecked.parts_sign hInts)
      have hPaths : (((d.amountPath, text) :: (d.wordsPath, words) :: texts).map Prod.fst).Sublist
          d.serverWritten := by
        rw [List.map_cons, List.map_cons, textOf_paths hTexts, hChecked.parts_paths]
        exact (((List.Sublist.refl _).append (readOptional_ok hChecked.readOptional).1).cons_cons _).cons_cons _
      have hWritten : Written d (.obj ms) _ ((d.amountPath, text) :: (d.wordsPath, words) :: texts) := ⟨hPaths, rfl⟩
      simp only [hCheck, hWrite ms]
      refine .ok ⟨putAll_obj ms fun leaf hLeaf => ?_, fun d' h' => ?_, fun path hApart => ?_⟩
      · obtain ⟨written, -, rfl⟩ := List.mem_map.mp hLeaf
        exact keysOf_ne_nil written.1
      · obtain rfl := Option.some.inj (hSlug.symm.trans h')
        exact ⟨total, values, hChecked.amountsOk hInts hSeparate hText hWords hTexts hWritten⟩
      · exact hWritten.frame_all (hApart d hSlug)

/-- What `apply_seller_requisites` makes of an object. -/
structure SellerOk (slug : String) (seller : SellerRequisites) (input result : Json) : Prop where
  seller : sellerIsTheOrganization slug = true →
    input.at? ["seller"] = none ∧ result.at? ["seller"] = some (seller.party slug)
  frame : ∀ path, (sellerIsTheOrganization slug = true → Json.Apart ["seller"] path) →
    result.at? path = input.at? path

theorem applySellerRequisites_answers (slug : String) (seller : SellerRequisites) (ms : List (String × Json)) :
    Answers (applySellerRequisites slug (.obj ms) seller) (.obj ms) (SellerOk slug seller (.obj ms)) := by
  unfold applySellerRequisites
  by_cases hOwn : sellerIsTheOrganization slug = true
  · rw [if_neg (not_not_intro hOwn), Json.members]
    cases hSeller : Json.member ms "seller" with
    | some value =>
      rw [if_pos Option.isSome_some]
      exact .error
    | none =>
      rw [if_neg (by simp)]
      refine .ok ⟨fun _ => ⟨?_, ?_⟩, fun path hApart => ?_⟩
      · rw [Json.at?_cons, Json.members, hSeller]
        rfl
      · rw [Json.at?_cons, Json.members, Json.member_setMember_same]
        rfl
      · cases path with
        | nil => exact absurd List.nil_prefix (hApart hOwn).2
        | cons key path =>
          have hKey : key ≠ "seller" := by
            rintro rfl
            exact (hApart hOwn).1 ((List.prefix_cons_inj "seller").mpr List.nil_prefix)
          rw [Json.at?_cons, Json.at?_cons, Json.members, Json.members, Json.member_setMember_other hKey]
  · rw [if_pos hOwn]
    exact .ok ⟨fun h => absurd h hOwn, fun path _ => rfl⟩

/-- The seller's name leads through no path of the table. -/
theorem seller_apart {slug : String} {d : DerivedAmount} (h : derivedAmountFor slug = some d) :
    ∀ path ∈ d.serverWritten ++ d.readPaths, Json.Apart ["seller"] (keysOf path) :=
  (derivedAmountFor_separate h).seller

/-- What has been printed stays printed where its paths are left alone. -/
theorem Printed.of_same {result result' : Json} {tiynPath textPath : String} {value : Int}
    (h : Printed result tiynPath textPath value) (hInteger : atPath result' tiynPath = atPath result tiynPath)
    (hText : atPath result' textPath = atPath result textPath) : Printed result' tiynPath textPath value := by
  obtain ⟨text, hFormat, hAt⟩ := h.text
  exact ⟨h.sign, h.max, hInteger.trans h.integer, text, hFormat, hText.trans hAt⟩

theorem AmountsOk.of_same {d : DerivedAmount} {input result result' : Json} {total : Int} {values : List Int}
    (h : AmountsOk d input result total values)
    (hSame : ∀ path ∈ d.serverWritten ++ d.readPaths, atPath result' path = atPath result path) :
    AmountsOk d input result' total values := by
  have hWritten : ∀ path ∈ d.serverWritten, atPath result' path = atPath result path := fun path hPath =>
    hSame path (List.mem_append_left _ hPath)
  have hRead : ∀ path ∈ d.readPaths, atPath result' path = atPath result path := fun path hPath =>
    hSame path (List.mem_append_right _ hPath)
  have hOptional : ∀ part ∈ d.optionalParts, atPath result' part.1 = atPath result part.1 ∧
      atPath result' part.2 = atPath result part.2 := fun part hPart =>
    ⟨hRead _ (List.mem_cons_of_mem _ (List.mem_append_right _ (List.mem_map_of_mem hPart))),
      hWritten _ (List.mem_append_right _ (List.mem_map_of_mem hPart))⟩
  refine ⟨h.amount.of_same (hRead _ List.mem_cons_self) (hWritten _ (List.mem_append_left _ List.mem_cons_self)), ?_,
    ?_, h.sum, fun part hPart hSome => ?_, fun part hPart => ?_, h.unsupplied⟩
  · obtain ⟨words, hWords, hAt⟩ := h.words
    exact ⟨words, hWords, (hWritten _ (List.mem_append_left _ (List.mem_cons_of_mem _ List.mem_cons_self))).trans hAt⟩
  · obtain ⟨hLength, hEach⟩ := List.forall₂_iff_zip.mp h.components
    refine List.forall₂_iff_zip.mpr ⟨hLength, fun {part value} hZip => (hEach hZip).of_same ?_ ?_⟩
    · exact hRead _ (List.mem_cons_of_mem _ (List.mem_append_left _ (List.mem_map_of_mem (List.of_mem_zip hZip).1)))
    · exact hWritten _ (List.mem_append_left _ (List.mem_cons_of_mem _ (List.mem_cons_of_mem _
        (List.mem_map_of_mem (List.of_mem_zip hZip).1))))
  · rw [(hOptional part hPart).1] at hSome
    obtain ⟨value, hPrinted, hLe⟩ := h.optional part hPart hSome
    exact ⟨value, hPrinted.of_same (hOptional part hPart).1 (hOptional part hPart).2, hLe⟩
  · rw [(hOptional part hPart).1, (hOptional part hPart).2]
    exact h.present part hPart

theorem keysOf_seller : keysOf "seller" = ["seller"] := by decide +kernel

/-- The two calls one after the other: neither throws, one that fails leaves the input as it was, and where both
succeed the fields that the server owns can be trusted. -/
theorem serverFields_trustworthy (slug : String) (seller : SellerRequisites) (ms : List (String × Json))
    (hInts : LibraryInts (.obj ms)) :
    Answers (applySellerRequisites slug (.obj ms) seller) (.obj ms) (fun _ => True) ∧
    Answers (applyDerivedAmount slug (.obj ms)) (.obj ms) (fun prepared =>
      Answers (applySellerRequisites slug prepared seller) prepared (Trustworthy slug seller (.obj ms))) := by
  have hAlone := applySellerRequisites_answers slug seller ms
  have hDerived := applyDerivedAmount_answers slug hInts
  refine ⟨⟨hAlone.answered, hAlone.failed, fun _ _ => trivial⟩, hDerived.answered, hDerived.failed, ?_⟩
  intro prepared h
  obtain ⟨⟨ms', rfl⟩, hAmounts, hFrame⟩ := hDerived.succeeded prepared h
  have hSeller := applySellerRequisites_answers slug seller ms'
  refine ⟨hSeller.answered, hSeller.failed, fun result hResult => ?_⟩
  obtain ⟨hParty, hRest⟩ := hSeller.succeeded result hResult
  refine ⟨fun d hd => ?_, fun hOwn => ⟨?_, (hParty hOwn).2⟩, fun path hApart => ?_⟩
  · obtain ⟨total, values, hOk⟩ := hAmounts d hd
    exact ⟨total, values, hOk.of_same fun path hPath => hRest _ fun _ => seller_apart hd path hPath⟩
  · rw [← (hParty hOwn).1]
    refine (hFrame _ fun d hd w hw => ?_).symm
    exact (seller_apart hd w (List.mem_append_left _ hw)).symm
  · have hOwn : sellerIsTheOrganization slug = true → Json.Apart ["seller"] path := fun hOwn => by
      rw [← keysOf_seller]
      exact hApart "seller" (List.mem_append_right _ (by simp [hOwn]))
    refine (hRest path hOwn).trans (hFrame path fun d hd w hw => hApart w (List.mem_append_left _ ?_))
    rw [hd]
    exact hw

/-! ### Two inputs -/

/-- The call has ended well. -/
def succeeds (called : Except Thrown (Except FieldError Unit × Json)) : Bool :=
  match called with
  | .ok (.ok (), _) => true
  | _ => false

theorem of_succeeds {called : Except Thrown (Except FieldError Unit × Json)} (h : succeeds called = true) :
    ∃ result, called = .ok (.ok (), result) := by
  unfold succeeds at h
  split at h
  · exact ⟨_, rfl⟩
  · cases h

def invoiceInput : List (String × Json) := [("total_tiyn", .int 112000), ("vat_tiyn", .int 12000)]

def alma : SellerRequisites := ⟨"ТОО Алма", "123456789012", "", "", "", "", "", ""⟩

theorem invoiceInput_ints : LibraryInts (.obj invoiceInput) := by
  intro path n h
  cases path with
  | nil => cases h
  | cons key path =>
    rw [Json.at?_cons, Json.members, invoiceInput] at h
    simp only [Json.member] at h
    split at h
    · cases path with
      | nil =>
        obtain rfl : 112000 = n := by simpa using h
        decide
      | cons _ _ => cases h
    · split at h
      · cases path with
        | nil =>
          obtain rfl : 12000 = n := by simpa using h
          decide
        | cons _ _ => cases h
      · cases h

/-- Both calls end well. -/
theorem invoice_trustworthy : ∃ prepared result,
    applyDerivedAmount "invoice" (.obj invoiceInput) = .ok (.ok (), prepared) ∧
    applySellerRequisites "invoice" prepared alma = .ok (.ok (), result) ∧
    Trustworthy "invoice" alma (.obj invoiceInput) result := by
  obtain ⟨prepared, hPrepared⟩ :=
    of_succeeds (show succeeds (applyDerivedAmount "invoice" (.obj invoiceInput)) = true by decide +kernel)
  have hBoth : succeeds ((applyDerivedAmount "invoice" (.obj invoiceInput)).bind fun called =>
      applySellerRequisites "invoice" called.2 alma) = true := by decide +kernel
  rw [hPrepared] at hBoth
  obtain ⟨result, hResult⟩ := of_succeeds hBoth
  have hBoth := serverFields_trustworthy "invoice" alma invoiceInput invoiceInput_ints
  have hAnswers := hBoth.2.succeeded prepared hPrepared
  exact ⟨prepared, result, hPrepared, hResult, hAnswers.succeeded result hResult⟩

/-- Which of the parties of a reconciliation is the organization is not known here, so its seller is the client's. -/
theorem reconciliation_seller :
    applyDerivedAmount "reconciliation" (.obj [("seller", .str "ТОО Чужое")]) =
      .ok (.ok (), .obj [("seller", .str "ТОО Чужое")]) ∧
    applySellerRequisites "reconciliation" (.obj [("seller", .str "ТОО Чужое")]) alma =
      .ok (.ok (), .obj [("seller", .str "ТОО Чужое")]) := ⟨rfl, rfl⟩

end CyberAccountant.Docgen.InputPolicy
