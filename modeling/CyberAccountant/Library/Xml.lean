import Mathlib.Data.List.Basic

/-! A parser of XML 1.0 for documents without a document type, comments, processing instructions and CDATA sections.
It reads one character after another, with the elements that are open on a stack. -/

namespace CyberAccountant.Library.Xml

/-! ### Characters -/

/-- `Char`. -/
def isXmlChar (c : Char) : Bool :=
  c = '\t' ∨ c = '\n' ∨ c = '\r' ∨ 0x20 ≤ c.toNat ∧ c.toNat ≤ 0xD7FF ∨ 0xE000 ≤ c.toNat ∧ c.toNat ≤ 0xFFFD ∨
    0x10000 ≤ c.toNat

/-- `S`. -/
def isWhiteSpace (c : Char) : Bool := c = ' ' ∨ c = '\t' ∨ c = '\n' ∨ c = '\r'

def within (c : Char) (ranges : List (Nat × Nat)) : Bool := ranges.any fun r => r.1 ≤ c.toNat ∧ c.toNat ≤ r.2

/-- `:`, the letters, `_`, and the letters beyond ASCII. -/
def nameStartRanges : List (Nat × Nat) :=
  [(0x3A, 0x3A), (0x41, 0x5A), (0x5F, 0x5F), (0x61, 0x7A), (0xC0, 0xD6), (0xD8, 0xF6), (0xF8, 0x2FF), (0x370, 0x37D),
    (0x37F, 0x1FFF), (0x200C, 0x200D), (0x2070, 0x218F), (0x2C00, 0x2FEF), (0x3001, 0xD7FF), (0xF900, 0xFDCF),
    (0xFDF0, 0xFFFD), (0x10000, 0xEFFFF)]

/-- `-`, `.`, the digits, and what may follow beyond ASCII. -/
def nameRanges : List (Nat × Nat) := [(0x2D, 0x2E), (0x30, 0x39), (0xB7, 0xB7), (0x300, 0x36F), (0x203F, 0x2040)]

/-- `NameStartChar`. -/
def isNameStart (c : Char) : Bool := within c nameStartRanges

/-- `NameChar`. -/
def isNameChar (c : Char) : Bool := within c (nameStartRanges ++ nameRanges)

/-- The ends of lines, each as one line feed. -/
def normalizeEnds : List Char → List Char
  | [] => []
  | '\r' :: '\n' :: rest => '\n' :: normalizeEnds rest
  | '\r' :: rest => '\n' :: normalizeEnds rest
  | c :: rest => c :: normalizeEnds rest

/-! ### References -/

def hexDigit (c : Char) : Option Nat :=
  if c.isDigit then some (c.toNat - 48)
  else if 'a' ≤ c ∧ c ≤ 'f' then some (c.toNat - 87)
  else if 'A' ≤ c ∧ c ≤ 'F' then some (c.toNat - 55)
  else none

/-- The number with these digits, if there is one. -/
def ofDigits (base : Nat) (digits : List (Option Nat)) : Option Nat :=
  if digits = [] then none
  else digits.foldlM (fun n d => d.bind fun d => if d < base then some (n * base + d) else none) 0

def charOf (n : Nat) : Option Char :=
  if (Char.ofNat n).toNat = n ∧ isXmlChar (Char.ofNat n) then some (Char.ofNat n) else none

/-- The character of a reference: one of the five entities, or the number of the character. -/
def referent (name : List Char) : Option Char :=
  match name with
  | ['a', 'm', 'p'] => some '&'
  | ['l', 't'] => some '<'
  | ['g', 't'] => some '>'
  | ['q', 'u', 'o', 't'] => some '"'
  | ['a', 'p', 'o', 's'] => some '\''
  | '#' :: 'x' :: digits => (ofDigits 16 (digits.map hexDigit)).bind charOf
  | '#' :: digits => (ofDigits 10 (digits.map hexDigit)).bind charOf
  | _ => none

/-! ### Documents -/

/-- What an element contains: characters and elements. -/
inductive Item where
  | char (c : Char)
  | element (name : String) (attributes : List (String × String)) (content : List Item)

/-- The start of an element. -/
structure Tag where
  name : String
  attributes : List (String × String)

/-- An element that is open, with what it contains so far. -/
structure Frame extends Tag where
  content : List Item

inductive Mode where
  /-- Between tags, after so many closing brackets. -/
  | content (brackets : Nat)
  /-- After `&`. -/
  | reference (name : List Char)
  /-- After `<`. -/
  | markup
  | startName (name : List Char)
  | inTag (tag : Tag) (spaced : Bool)
  | attName (tag : Tag) (att : List Char)
  /-- Before `=`. -/
  | equals (tag : Tag) (att : String)
  /-- After `=`. -/
  | quote (tag : Tag) (att : String)
  | attValue (tag : Tag) (att : String) (quote : Char) (value : List Char)
  | attReference (tag : Tag) (att : String) (quote : Char) (value name : List Char)
  /-- After `/` at the end of a tag. -/
  | emptyTag (tag : Tag)
  | endName (name : List Char)
  | endSpace (name : String)

structure State where
  mode : Mode
  /-- The innermost element first. -/
  stack : List Frame
  root : Option Item

namespace State

def start : State := ⟨.content 0, [], none⟩

/-- Adds to the content of the innermost element; what is outside of all of them is the root. -/
def push (s : State) (item : Item) : State :=
  match s.stack with
  | [] => { s with root := some item }
  | frame :: rest => { s with stack := { frame with content := frame.content ++ [item] } :: rest }

/-- A character between tags. -/
def text (s : State) (c : Char) : Option State :=
  if s.stack = [] then (if isWhiteSpace c then some s else none) else some (s.push (.char c))

def openTag (s : State) (tag : Tag) : State := ⟨.content 0, ⟨tag, []⟩ :: s.stack, s.root⟩

/-- Closes the innermost element, which has to have the name. -/
def close (s : State) (name : String) : Option State :=
  match s.stack with
  | [] => none
  | frame :: rest =>
    if frame.name = name then
      some ({ mode := .content 0, stack := rest, root := s.root : State }.push
        (.element name frame.attributes frame.content))
    else none

def tagChar (s : State) (tag : Tag) (spaced : Bool) (c : Char) : Option State :=
  if isWhiteSpace c then some { s with mode := .inTag tag true }
  else if c = '>' then some (s.openTag tag)
  else if c = '/' then some { s with mode := .emptyTag tag }
  else if spaced ∧ isNameStart c then some { s with mode := .attName tag [c] }
  else none

def equalsChar (s : State) (tag : Tag) (att : String) (c : Char) : Option State :=
  if isWhiteSpace c then some { s with mode := .equals tag att }
  else if c = '=' then some { s with mode := .quote tag att }
  else none

def endChar (s : State) (name : String) (c : Char) : Option State :=
  if isWhiteSpace c then some { s with mode := .endSpace name }
  else if c = '>' then s.close name
  else none

/-- A space in the value of an attribute is a blank, whatever it was. -/
def blank (c : Char) : Char := if isWhiteSpace c then ' ' else c

end State

open State

/-- One character. -/
def step (s : State) (c : Char) : Option State :=
  match s.mode with
  | .content brackets =>
    if c = '<' then some { s with mode := .markup }
    else if c = '&' then if s.stack = [] then none else some { s with mode := .reference [] }
    else if c = '>' ∧ 2 ≤ brackets then none
    else (s.text c).map fun s => { s with mode := .content (if c = ']' then brackets + 1 else 0) }
  | .reference name =>
    if c = ';' then (referent name).map fun d => { s.push (.char d) with mode := .content 0 }
    else some { s with mode := .reference (name ++ [c]) }
  | .markup =>
    if c = '/' then some { s with mode := .endName [] }
    else if isNameStart c ∧ (s.stack ≠ [] ∨ s.root.isNone) then some { s with mode := .startName [c] }
    else none
  | .startName name =>
    if isNameChar c then some { s with mode := .startName (name ++ [c]) }
    else s.tagChar ⟨String.ofList name, []⟩ false c
  | .inTag tag spaced => s.tagChar tag spaced c
  | .attName tag att =>
    if isNameChar c then some { s with mode := .attName tag (att ++ [c]) }
    else s.equalsChar tag (String.ofList att) c
  | .equals tag att => s.equalsChar tag att c
  | .quote tag att =>
    if isWhiteSpace c then some s
    else if c = '"' ∨ c = '\'' then some { s with mode := .attValue tag att c [] }
    else none
  | .attValue tag att quote value =>
    if c = quote then
      if att ∈ tag.attributes.map Prod.fst then none
      else some { s with mode := .inTag { tag with attributes := tag.attributes ++ [(att, String.ofList value)] } false }
    else if c = '<' then none
    else if c = '&' then some { s with mode := .attReference tag att quote value [] }
    else some { s with mode := .attValue tag att quote (value ++ [blank c]) }
  | .attReference tag att quote value name =>
    if c = ';' then (referent name).map fun d => { s with mode := .attValue tag att quote (value ++ [d]) }
    else some { s with mode := .attReference tag att quote value (name ++ [c]) }
  | .emptyTag tag =>
    if c = '>' then some ({ s with mode := .content 0 }.push (.element tag.name tag.attributes [])) else none
  | .endName name =>
    if isNameChar c then some { s with mode := .endName (name ++ [c]) }
    else s.endChar (String.ofList name) c
  | .endSpace name => s.endChar name c

/-- All the characters of a text. -/
def feed (s : State) (text : List Char) : Option State := text.foldlM step s

/-- The root, once every element is closed. -/
def State.finished (s : State) : Option Item :=
  match s.mode with
  | .content _ => if s.stack = [] then s.root else none
  | _ => none

def declaration : String := "<?xml version=\"1.0\" encoding=\"UTF-8\"?>"

/-- The root of a document that is well formed. -/
def parse (text : String) : Option Item :=
  if text.toList.all isXmlChar then
    let chars := normalizeEnds text.toList
    let body := if declaration.toList <+: chars then chars.drop declaration.toList.length else chars
    (feed start body).bind State.finished
  else none

/-! ### Reading documents -/

namespace Item

def content : Item → List Item
  | .char _ => []
  | .element _ _ items => items

/-- The characters that an element contains itself. -/
def text (item : Item) : String :=
  String.ofList (item.content.filterMap fun
    | .char c => some c
    | .element _ _ _ => none)

def name? : Item → Option String
  | .char _ => none
  | .element name _ _ => some name

def attribute? (item : Item) (att : String) : Option String :=
  match item with
  | .char _ => none
  | .element _ attributes _ => attributes.lookup att

/-- The elements of a name that an element contains itself. -/
def elements (item : Item) (name : String) : List Item := item.content.filter fun child => child.name? = some name

mutual

/-- The tags of an element, in the order of the document. -/
def tags : Item → List String
  | .char _ => []
  | .element name _ content => ("<" ++ name) :: tagsAll content ++ ["</" ++ name]
termination_by structural item => item

def tagsAll : List Item → List String
  | [] => []
  | item :: rest => tags item ++ tagsAll rest
termination_by structural items => items

end

end Item

/-! ### Texts one after another -/

@[simp] theorem feed_nil (s : State) : feed s [] = some s := rfl

@[simp] theorem feed_cons (s : State) (c : Char) (text : List Char) :
    feed s (c :: text) = (step s c).bind (feed · text) :=
  List.foldlM_cons

theorem feed_append (s : State) (xs ys : List Char) : feed s (xs ++ ys) = (feed s xs).bind (feed · ys) :=
  List.foldlM_append

end CyberAccountant.Library.Xml
