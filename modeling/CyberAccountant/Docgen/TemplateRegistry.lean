import CyberAccountant.Docgen.Templates

/-! The templates on disk, the check of an input against the latest of them, and the render, which looks
for a template in the table first. -/

namespace CyberAccountant.Docgen

open CyberAccountant.Library CyberAccountant.Ledger

/-- A directory `<slug>/<name>/` with its `template.typ` and its `schema.json`, or what the parser says of
the latter. -/
structure TemplateDir (J : Type) where
  slug : String
  name : String
  template : Option String
  schema : Option (Except String J)

structure TemplateInfo (J : Type) where
  slug : String
  version : Nat
  versionStr : String
  source : String
  schema : J

/-- The directories below the root, in the order in which they are listed. -/
abbrev TemplateRegistry (J : Type) : Type := List (TemplateDir J)

/-- `^[a-z][a-z0-9_-]*$`. -/
def isValidSlug (slug : String) : Bool :=
  match slug.toList with
  | [] => false
  | first :: rest => 'a' ≤ first && first ≤ 'z' &&
      rest.all fun c => ('a' ≤ c && c ≤ 'z') || ('0' ≤ c && c ≤ '9') || c = '_' || c = '-'

/-- The number of a directory `v<N>`, unless it is too large for an `int`. -/
def parseVersion (name : String) : Option Nat :=
  match name.toList with
  | 'v' :: first :: rest =>
    if (first :: rest).all Char.isDigit then
      let version := (first :: rest).foldl (fun n c => 10 * n + (c.toNat - '0'.toNat)) 0
      if version ≤ 2147483647 then some version else none
    else none
  | _ => none

namespace TemplateRegistry

variable {J : Type}

/-- The directory of a slug with the highest number. -/
def best (registry : TemplateRegistry J) (slug : String) : Option (Nat × String) :=
  (registry.filter (·.slug = slug)).foldl
    (fun best dir =>
      match parseVersion dir.name with
      | some version => if best.all (·.1 < version) then some (version, dir.name) else best
      | none => best)
    none

def dir (registry : TemplateRegistry J) (slug versionStr : String) : Option (TemplateDir J) :=
  registry.find? fun dir => dir.slug = slug ∧ dir.name = versionStr

/-- The text of the template with this label. -/
def sourceOf (registry : TemplateRegistry J) (slug versionStr : String) : Option String :=
  (registry.dir slug versionStr).bind TemplateDir.template

def load (registry : TemplateRegistry J) (slug versionStr : String) (version : Nat) :
    Except String (TemplateInfo J) :=
  match registry.sourceOf slug versionStr with
  | none => .error ("template registry: missing template.typ for " ++ slug ++ "/" ++ versionStr)
  | some source =>
    match (registry.dir slug versionStr).bind TemplateDir.schema with
    | none => .error ("template registry: missing schema.json for " ++ slug ++ "/" ++ versionStr)
    | some (.error what) =>
      .error ("template registry: malformed schema.json for " ++ slug ++ "/" ++ versionStr ++ ": " ++ what)
    | some (.ok schema) => .ok ⟨slug, version, versionStr, source, schema⟩

def latest (registry : TemplateRegistry J) (slug : String) : Except String (Option (TemplateInfo J)) :=
  if isValidSlug slug then
    match registry.best slug with
    | none => .ok none
    | some (version, versionStr) => (registry.load slug versionStr version).map some
  else .ok none

variable {registry : TemplateRegistry J} {slug versionStr : String} {version : Nat} {info : TemplateInfo J}

theorem load_ok (h : registry.load slug versionStr version = .ok info) :
    info.slug = slug ∧ info.versionStr = versionStr ∧ registry.sourceOf slug versionStr = some info.source := by
  unfold load at h
  split at h
  · cases h
  · rename_i source hSource
    split at h
    · cases h
    · cases h
    · cases h
      exact ⟨rfl, rfl, hSource⟩

theorem latest_ok (h : registry.latest slug = .ok (some info)) :
    info.slug = slug ∧ registry.sourceOf slug info.versionStr = some info.source := by
  unfold latest at h
  split at h
  · split at h
    · cases h
    · rename_i version versionStr _
      cases hLoad : registry.load slug versionStr version with
      | error e =>
        rw [hLoad] at h
        cases h
      | ok loaded =>
        rw [hLoad] at h
        cases h
        obtain ⟨hSlug, hVersion, hSource⟩ := load_ok hLoad
        exact ⟨hSlug, by rw [hVersion]; exact hSource⟩
  · cases h

end TemplateRegistry

section

variable {J : Type} (validateAgainst : J → J → Option String)

/-- What each request that makes a version of a document checks last.  The input that passes is recorded
with the label of the template on disk. -/
def checkInput (registry : TemplateRegistry J) (slug : String) (input : J) : Option (J × String) :=
  match registry.latest slug with
  | .ok (some info) => if (validateAgainst info.schema input).isNone then some (input, info.versionStr) else none
  | _ => none

variable {validateAgainst}

theorem checkInput_some {registry : TemplateRegistry J} {slug versionStr : String} {input input' : J}
    (h : checkInput validateAgainst registry slug input = some (input', versionStr)) :
    input' = input ∧ ∃ info, registry.latest slug = .ok (some info) ∧ validateAgainst info.schema input = none ∧
      versionStr = info.versionStr := by
  unfold checkInput at h
  split at h
  · rename_i info hLatest
    split at h
    · rename_i hValid
      cases h
      exact ⟨rfl, info, hLatest, Option.isNone_iff_eq_none.mp hValid, rfl⟩
    · cases h
  · cases h

end

/-- The check of JSON schemas, the filling in of what an input leaves out, and the compiler. -/
structure Renderer (J : Type) where
  validateAgainst : J → J → Option String
  normalizeInput : J → J → J
  compileTypst : String → J → Except String ByteArray
  engineVersion : String

namespace Renderer

variable {J : Type} (r : Renderer J)

/-- The check of the input, and what is written for the compiler: `main.typ` and `input.json`. -/
def stage (source : String) (schema input : J) : Except String (String × J) :=
  match r.validateAgainst schema input with
  | some err => .error ("docgen: schema validation failed: " ++ err)
  | none => .ok (source, r.normalizeInput schema input)

/-- What `render_and_compile` has compiled.  Without an organisation it does not look at the table. -/
def staged (registry : TemplateRegistry J) (templates : List (DocumentTemplate J)) (slug : String) (input : J)
    (org : Option Uuid) : Except String (String × J) :=
  match org.bind fun org => resolve templates org slug with
  | some custom => r.stage custom.source custom.schema input
  | none =>
    match registry.latest slug with
    | .error what => .error what
    | .ok none => .error ("docgen: no template found for slug '" ++ slug ++ "'")
    | .ok (some info) => r.stage info.source info.schema input

/-- `render_and_compile`: the PDF and the engine that has made it. -/
def renderAndCompile (registry : TemplateRegistry J) (templates : List (DocumentTemplate J)) (slug : String)
    (input : J) (org : Option Uuid) : Except String (ByteArray × String) := do
  let (source, data) ← r.staged registry templates slug input org
  let pdf ← r.compileTypst source data
  pure (pdf, r.engineVersion)

variable {r}

theorem stage_ok {source source' : String} {schema input data : J} :
    r.stage source schema input = .ok (source', data) ↔
      r.validateAgainst schema input = none ∧ source' = source ∧ data = r.normalizeInput schema input := by
  unfold stage
  cases r.validateAgainst schema input with
  | some err => simp
  | none =>
    simp only [Except.ok.injEq, Prod.mk.injEq, true_and]
    exact ⟨fun ⟨hSource, hData⟩ => ⟨hSource.symm, hData.symm⟩, fun ⟨hSource, hData⟩ => ⟨hSource.symm, hData.symm⟩⟩

/-- An input that the schema on disk accepts is rendered with the template on disk just where no published
template comes before it, or one with the same text that accepts the input too. -/
theorem staged_source {registry : TemplateRegistry J} {templates : List (DocumentTemplate J)} {slug : String}
    {input : J} {org : Uuid} {info : TemplateInfo J} (hLatest : registry.latest slug = .ok (some info))
    (hValid : r.validateAgainst info.schema input = none) :
    (∃ data, r.staged registry templates slug input (some org) = .ok (info.source, data)) ↔
      ∀ custom, resolve templates org slug = some custom →
        custom.source = info.source ∧ r.validateAgainst custom.schema input = none := by
  have hOrg : (some org).bind (fun org => resolve templates org slug) = resolve templates org slug := rfl
  unfold staged
  rw [hOrg]
  cases resolve templates org slug with
  | none =>
    rw [hLatest]
    constructor
    · rintro - custom hNone
      cases hNone
    · intro _
      exact ⟨_, stage_ok.mpr ⟨hValid, rfl, rfl⟩⟩
  | some custom =>
    constructor
    · rintro ⟨data, hStaged⟩ found hFound
      obtain rfl := Option.some.inj hFound
      obtain ⟨hAccepts, hSource, -⟩ := stage_ok.mp hStaged
      exact ⟨hSource.symm, hAccepts⟩
    · intro hSame
      obtain ⟨hSource, hAccepts⟩ := hSame custom rfl
      exact ⟨_, stage_ok.mpr ⟨hAccepts, hSource.symm, rfl⟩⟩

end Renderer

end CyberAccountant.Docgen
