import CyberAccountant.Docgen.Templates
import CyberAccountant.Library.Checked
import CyberAccountant.Library.Json
import CyberAccountant.Security.Jwt

/-! The blocks of a template, compiled to a source, the schema of its input, its form and the labels that
it prints.  The texts of the tenant are in the source as string literals only. -/

namespace CyberAccountant.Docgen.Blocks

open CyberAccountant.Library CyberAccountant.Security.Jwt

/-! ### The catalogue of variables -/

def catalogue : List String :=
  ["org.name", "org.bin", "org.address", "org.director_name", "org.director_position", "org.vat_certificate",
    "org.iik", "org.bank_name", "org.bik", "org.kbe", "tax.vat_rate", "employee.full_name", "employee.position",
    "employee.salary_tiyn", "counterparty.name", "counterparty.identifier", "counterparty.address", "doc.number",
    "doc.date"]

/-- The variable with this identifier. -/
def find (id : String) : Option String := List.find? (· = id) catalogue

def inputPath (id : String) : String := id

/-! ### Texts and names -/

/-- A backslash or a quote after a backslash; any other character stays. -/
def escape (raw : List Char) : List Char :=
  raw.flatMap fun c => if c = '\\' ∨ c = '"' then ['\\', c] else [c]

/-- A string literal. -/
def literal (raw : String) : String := String.ofList ('"' :: escape raw.toList ++ ['"'])

def isNameChar (c : Char) : Bool :=
  ('a' ≤ c && c ≤ 'z') || ('A' ≤ c && c ≤ 'Z') || ('0' ≤ c && c ≤ '9') || c = '_'

def isValidField (name : String) : Bool :=
  match name.toList with
  | [] => false
  | first :: rest => decide (rest.length < 64) && !('0' ≤ first && first ≤ '9') && (first :: rest).all isNameChar

/-- A piece of the source. -/
inductive Fragment where
  | code (text : String)
  /-- A text that the source prints. -/
  | label (text : String)
  /-- A member of the input that has to be there. -/
  | member (name : String)
  /-- A member of the input, or nothing. -/
  | memberOr (path : String)
  deriving DecidableEq

def Fragment.render : Fragment → String
  | .code text => text
  | .label text => literal text
  | .member name => "d." ++ name
  | .memberOr path => "d.at(" ++ literal path ++ ", default: \"\")"

def render (fragments : List Fragment) : String := String.join (fragments.map Fragment.render)

/-! ### The state of a compilation -/

structure Build where
  body : List Fragment
  preamble : List Fragment
  labels : List String
  properties : List (String × Json)
  required : List String
  formFields : List Json
  literalCounter : Nat

/-- Why nothing is compiled: an error that is returned, or an exception. -/
inductive Failure where
  | refused (error : BlockError)
  | thrown (error : TypeError)
  /-- 302: the member is not a boolean. -/
  | notBoolean

namespace Build

def start : Build where
  body := []
  preamble := []
  labels := []
  properties := []
  required := []
  formFields := []
  literalCounter := 0

def write (st : Build) (fragments : List Fragment) : Build := { st with body := st.body ++ fragments }

/-- The name of the next label. -/
def labelName (st : Build) : String := "s" ++ toString st.literalCounter

/-- The definition of a label, with which the source prints it by its name. -/
def emitLabel (st : Build) (text : String) : Build :=
  { st with
    literalCounter := st.literalCounter + 1
    preamble := st.preamble ++ [.code ("#let " ++ st.labelName ++ " = "), .label text, .code "\n"]
    labels := st.labels ++ [text] }

/-- The line to sign on, a box with a lower border. -/
def emitRule (st : Build) : Build :=
  { st with
    preamble := st.preamble ++ [.code "#let sigrule = box(width: 1fr, height: 8mm, stroke: (bottom: 0.4pt))\n"] }

def setProperty (st : Build) (name : String) (schema : Json) : Build :=
  { st with properties := Json.setMember st.properties name schema }

def require (st : Build) (name : String) : Build := { st with required := st.required ++ [name] }

def addFormField (st : Build) (field : Json) : Build := { st with formFields := st.formFields ++ [field] }

end Build

/-- The schema of a value that only has a type. -/
def typed (type : String) : Json := .obj [("type", .str type)]

def formField (field labelRu labelKk widget : String) : Json :=
  .obj [("field", .str field), ("label_kk", .str labelKk), ("label_ru", .str labelRu), ("widget", .str widget)]

def Build.declareField (st : Build) (name labelRu labelKk type : String) (isRequired : Bool) : Build :=
  let declared := st.setProperty name (typed type)
  (if isRequired then declared.require name else declared).addFormField
    (formField name labelRu labelKk (if type = "integer" then "money" else "text"))

/-! ### The members of a block -/

/-- `value` with a text as its default. -/
def read (j : Json) (key default : String) : Except Failure String := (value j key default).mapError .thrown

/-- `value` with a boolean as its default. -/
def readBool (j : Json) (key : String) (default : Bool) : Except Failure Bool :=
  match j with
  | .obj ms =>
    match Json.member ms key with
    | none => .ok default
    | some (.bool b) => .ok b
    | some _ => .error .notBoolean
  | _ => .error (.thrown .notObject)

/-- The elements of an array that is not empty. -/
def elements (b : Json) (key : String) : Option (List Json) :=
  match Json.member b.members key with
  | some (.arr (first :: rest)) => some (first :: rest)
  | _ => none

def refusal (index : Nat) (code message : String) : Failure := .refused ⟨index, code, message⟩

/-! ### The kinds of blocks -/

def Build.addHeader (st : Build) (title : String) : Build :=
  (st.emitLabel title).write
    [.code ("#align(center)[#text(size: 13pt, weight: \"bold\")[#" ++ st.labelName ++ "]]\n#v(4mm)\n")]

def compileHeader (index : Nat) (b : Json) (st : Build) : Except Failure Build := do
  let title ← read b "title" ""
  ensure (title ≠ "") (refusal index "header_title_required" "a header block needs a non-empty 'title'")
  return st.addHeader title

def Build.addText (st : Build) (text : String) : Build :=
  (st.emitLabel text).write [.code ("#" ++ st.labelName ++ "\n#v(3mm)\n")]

def compileText (index : Nat) (b : Json) (st : Build) : Except Failure Build := do
  let text ← read b "text" ""
  ensure (text ≠ "") (refusal index "text_required" "a text block needs a non-empty 'text'")
  return st.addText text

def Build.addRowLabel (st : Build) (label : String) : Build :=
  (st.emitLabel label).write [.code ("  [#" ++ st.labelName ++ "], ")]

def Build.addVariable (st : Build) (id : String) : Build :=
  (st.write [.code "[#", .memberOr (inputPath id), .code "],\n"]).setProperty id (typed "string")

def Build.addField (st : Build) (field label labelKk : String) (isRequired : Bool) : Build :=
  (st.write [.code "[#", .member field, .code "],\n"]).declareField field label labelKk "string" isRequired

/-- The value of a row: a variable of the catalogue, or a field of the form. -/
def compileRowValue (index : Nat) (row : Json) (label : String) (st : Build) : Except Failure Build :=
  match Json.member row.members "variable" with
  | some (.str var) =>
    match find var with
    | none => .error (refusal index "unknown_variable" ("no such template variable: '" ++ var ++ "'"))
    | some id => .ok (st.addVariable id)
  | some _ => .error (.thrown .notString)
  | none => do
    let field ← read row "field" ""
    ensure (isValidField field) (refusal index "invalid_field_name"
      "field names are letters, digits and underscore, not starting with a digit")
    let labelKk ← read row "label_kk" label
    let isRequired ← readBool row "required" true
    return st.addField field label labelKk isRequired

def compileRow (index : Nat) (st : Build) (row : Json) : Except Failure Build := do
  let label ← read row "label" ""
  ensure (label ≠ "") (refusal index "field_label_required" "every fields row needs a 'label'")
  compileRowValue index row label (st.addRowLabel label)

def Build.openFields (st : Build) : Build :=
  st.write [.code "#table(columns: (auto, 1fr), stroke: none, inset: 2pt,\n"]

def Build.closeFields (st : Build) : Build := st.write [.code ")\n#v(3mm)\n"]

def compileFields (index : Nat) (b : Json) (st : Build) : Except Failure Build := do
  let rows ← orFail (refusal index "fields_rows_required" "a fields block needs a non-empty 'rows' array")
    (elements b "rows")
  let filled ← rows.foldlM (compileRow index) st.openFields
  return filled.closeFields

/-- What the columns of a table add up to. -/
structure Columns where
  build : Build
  keys : List String
  headerCells : String
  widths : String

def Columns.start (st : Build) : Columns where
  build := st
  keys := []
  headerCells := ""
  widths := ""

def Columns.add (columns : Columns) (title key : String) : Columns where
  build := columns.build.emitLabel title
  keys := columns.keys ++ [key]
  headerCells := columns.headerCells ++ "[*#" ++ columns.build.labelName ++ "*], "
  -- Only the column of the description takes what is left of the width.
  widths := columns.widths ++ (if key = "name" ∨ key = "description" then "1fr, " else "auto, ")

def compileColumn (index : Nat) (columns : Columns) (c : Json) : Except Failure Columns := do
  let title ← read c "title" ""
  let key ← read c "key" ""
  ensure (title ≠ "" ∧ isValidField key)
    (refusal index "table_column_invalid" "every column needs a 'title' and a valid 'key'")
  return columns.add title key

/-- The cells of a row; a key that a row does not have is empty. -/
def cells (keys : List String) : String :=
  String.intercalate ", " (keys.map fun key => "[#it.at(" ++ literal key ++ ", default: \"\")]")

/-- The schema of an array of objects with these keys. -/
def rowsOf (keys : List String) : Json :=
  .obj [
    ("items", .obj [
      ("properties", .obj (keys.foldl (fun props key => Json.setMember props key (typed "string")) [])),
      ("type", .str "object")]),
    ("type", .str "array")]

/-- The table itself, and the form field with its columns as they were sent. -/
def Columns.addTable (table : Columns) (itemsField : String) (columns : List Json) : Build :=
  let written := table.build.write [
    .code ("#table(columns: (" ++ table.widths ++ "),\n  " ++ table.headerCells ++ "\n  .."),
    .member itemsField,
    .code (".map(it => (" ++ cells table.keys ++ ")).flatten()\n)\n#v(3mm)\n")]
  ((written.setProperty itemsField (rowsOf table.keys)).require itemsField).addFormField <| .obj [
    ("columns", .arr columns), ("field", .str itemsField), ("label_kk", .str "Жолдар"), ("label_ru", .str "Позиции"),
    ("widget", .str "table")]

def compileTable (index : Nat) (b : Json) (st : Build) : Except Failure Build := do
  let columns ← orFail (refusal index "table_columns_required" "a table block needs a non-empty 'columns' array")
    (elements b "columns")
  let itemsField ← read b "field" "items"
  ensure (isValidField itemsField)
    (refusal index "invalid_field_name" "the table's 'field' must be a valid field name")
  let table ← columns.foldlM (compileColumn index) (.start st)
  return table.addTable itemsField columns

/-- The schema of an amount. -/
def amount : Json := .obj [("minimum", .int 0), ("type", .str "integer")]

/-- The client sends an integer; the texts that are printed are the server's. -/
def Build.addTotals (st : Build) (tiyn label wordsLabel labelKk : String) : Build :=
  let labelled := st.emitLabel label
  let written := (labelled.emitLabel wordsLabel).write [
    .code ("#align(right)[#" ++ st.labelName ++ ": #"), .member "total", .code "]\n",
    .code ("#" ++ labelled.labelName ++ ": #"), .member "total_words", .code "\n#v(3mm)\n"]
  let declared := ((written.setProperty tiyn amount).setProperty "total" (typed "string")).setProperty "total_words"
    (typed "string")
  (((declared.require tiyn).require "total").require "total_words").addFormField
    (formField tiyn label labelKk "money")

def compileTotals (index : Nat) (b : Json) (st : Build) : Except Failure Build := do
  let tiyn ← read b "field" "total_tiyn"
  ensure (isValidField tiyn)
    (refusal index "invalid_field_name" "the totals 'field' must be a valid field name")
  let label ← read b "label" "Итого к оплате"
  let wordsLabel ← read b "words_label" "Сумма прописью"
  let labelKk ← read b "label_kk" label
  return st.addTotals tiyn label wordsLabel labelKk

/-- The title of a party, which may be the party itself. -/
def partyTitle : Json → Except Failure String
  | .str title => .ok title
  | party => read party "title" ""

def Build.addParty (st : Build) (title : String) : Build :=
  (st.emitLabel title).write [.code ("  [#" ++ st.labelName ++ " #sigrule],\n")]

def compileParty (index : Nat) (st : Build) (party : Json) : Except Failure Build := do
  let title ← partyTitle party
  ensure (title ≠ "") (refusal index "signature_title_required" "every signature party needs a title")
  return st.addParty title

def Build.openSignatures (st : Build) (parties : Nat) : Build :=
  st.emitRule.write [.code ("#v(6mm)\n#grid(columns: (1fr,) * " ++ toString parties ++ ", gutter: 8mm,\n")]

def compileSignatures (index : Nat) (b : Json) (st : Build) : Except Failure Build := do
  let parties ← orFail
    (refusal index "signature_parties_required" "a signatures block needs a non-empty 'parties' array")
    (elements b "parties")
  let signed ← parties.foldlM (compileParty index) (st.openSignatures parties.length)
  return signed.write [.code ")\n"]

def compileBlock (index : Nat) (b : Json) (st : Build) : Except Failure Build :=
  match Json.member b.members "type" with
  | some (.str type) =>
    if type = "header" then compileHeader index b st
    else if type = "text" then compileText index b st
    else if type = "fields" then compileFields index b st
    else if type = "table" then compileTable index b st
    else if type = "totals" then compileTotals index b st
    else if type = "signatures" then compileSignatures index b st
    else if type = "pagebreak" then .ok (st.write [.code "#pagebreak()\n"])
    else .error (refusal index "unknown_block_type" ("no such block type: '" ++ type ++ "'"))
  | _ => .error (refusal index "block_type_missing" "every block needs a string 'type'")

/-! ### The template -/

/-- The first lines of every source. -/
def headerLines : List String := [
  "// Собран из блоков конструктором (src/docgen/BlockCompiler.hpp).\n",
  "// Править этот текст руками бессмысленно: источник правды — блоки,\n",
  "// и следующая публикация соберёт его заново.\n",
  "#set page(paper: \"a4\", margin: 18mm)\n",
  "// overhang: Typst свешивает финальный дефис ЗА поле; hyphenate:\n",
  "// перенос РАЗРЫВАЕТ слово, и объявленная подпись перестаёт\n",
  "// находиться как непрерывный текст. Локально этот класс дефектов\n",
  "// не воспроизводится — метрики шрифтов различаются.\n",
  "#set text(font: \"Noto Sans\", size: 9.2pt, lang: \"ru\", overhang: false, hyphenate: false)\n",
  "// Токен со слешем (№ 12/2026, шт/кг) иначе рвётся по слешу.\n",
  "#show regex(\"\\\\S+/\\\\S+\"): it => box(it)\n",
  "#let d = json(\"input.json\")\n"]

def header : String := String.join headerLines

/-- The schema of the input. -/
def Build.schema (st : Build) : Json :=
  .obj [("properties", .obj st.properties), ("required", .arr (st.required.map .str)), ("type", .str "object")]

def Build.compiled (st : Build) : Compiled Json where
  source := header ++ render st.preamble ++ "\n" ++ render st.body
  schema := st.schema
  form := .obj [("fields", .arr st.formFields)]
  expected := String.join (st.labels.map (· ++ "\n")) ++ "margin 18mm\n"

/-- The blocks, one after another, each with its index. -/
def compileBlocks (blocks : List Json) : Except Failure Build :=
  blocks.zipIdx.foldlM (fun st entry => compileBlock entry.2 entry.1 st) .start

def compiledOf (blocks : Json) : Except Failure (Compiled Json) :=
  match blocks with
  | .arr list => do
    ensure (list ≠ []) (refusal 0 "blocks_empty" "a template needs at least one block")
    ensure (list.length ≤ 200) (refusal 0 "too_many_blocks" "a template may not have more than 200 blocks")
    let st ← compileBlocks list
    ensure (st.labels ≠ []) (refusal 0 "no_static_labels"
      ("a template with no static label at all cannot be gated — the content layer would have nothing " ++
        "to check"))
    return st.compiled
  | _ => .error (refusal 0 "blocks_not_array" "blocks must be a JSON array")

/-- An exception of `compile`. -/
inductive Exception where
  | typeError (error : TypeError)
  | notBoolean

/-- `compile`: the error that is returned, if any, and what `out` has then, which is written last. -/
def compile (blocks : Json) (out : Compiled Json) : Except Exception (Option BlockError × Compiled Json) :=
  match compiledOf blocks with
  | .ok compiled => .ok (none, compiled)
  | .error (.refused error) => .ok (some error, out)
  | .error (.thrown error) => .error (.typeError error)
  | .error .notBoolean => .error .notBoolean

end CyberAccountant.Docgen.Blocks
