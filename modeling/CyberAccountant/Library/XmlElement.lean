import CyberAccountant.Library.Xml
import Mathlib.Data.List.Nodup

/-! XML documents written down, and what a parser reads: every element comes back, and every value up to the ends
of its lines, in the value of an attribute up to its spaces. -/

namespace CyberAccountant.Library.Xml

/-- An element that contains a text, or elements only. -/
inductive Element where
  | leaf (name : String) (attributes : List (String × String)) (text : String)
  | node (name : String) (attributes : List (String × String)) (children : List Element)

/-! ### Writing -/

def escapeChar : Char → List Char
  | '&' => ['&', 'a', 'm', 'p', ';']
  | '<' => ['&', 'l', 't', ';']
  | '>' => ['&', 'g', 't', ';']
  | '"' => ['&', 'q', 'u', 'o', 't', ';']
  | '\'' => ['&', 'a', 'p', 'o', 's', ';']
  | c => [c]

def escape (text : List Char) : List Char := text.flatMap escapeChar

def attributeText (att : String × String) : List Char :=
  ' ' :: att.1.toList ++ '=' :: '"' :: escape att.2.toList ++ ['"']

def startText (name : String) (attributes : List (String × String)) : List Char :=
  '<' :: name.toList ++ attributes.flatMap attributeText ++ ['>']

def endText (name : String) : List Char := '<' :: '/' :: name.toList ++ ['>']

mutual

def render : Element → List Char
  | .leaf name attributes text => startText name attributes ++ escape text.toList ++ endText name
  | .node name attributes children => startText name attributes ++ renderAll children ++ endText name
termination_by structural e => e

def renderAll : List Element → List Char
  | [] => []
  | e :: rest => render e ++ renderAll rest
termination_by structural es => es

end

/-! ### What is written -/

theorem Item.text_chars (name : String) (attributes : List (String × String)) (text : String) :
    (Item.element name attributes (text.toList.map .char)).text = text := by
  simp [Item.text, Item.content, List.filterMap_map]

namespace Element

mutual

def item : Element → Item
  | .leaf name attributes text => .element name attributes (text.toList.map .char)
  | .node name attributes children => .element name attributes (itemAll children)
termination_by structural e => e

def itemAll : List Element → List Item
  | [] => []
  | e :: rest => item e :: itemAll rest
termination_by structural es => es

end

/-- Every value of an attribute by `f`, and every text by `g`. -/
def mapAttributes (f : String → String) (attributes : List (String × String)) : List (String × String) :=
  attributes.map fun a => (a.1, f a.2)

mutual

def mapTexts (f g : String → String) : Element → Element
  | .leaf name attributes text => .leaf name (mapAttributes f attributes) (g text)
  | .node name attributes children => .node name (mapAttributes f attributes) (mapTextsAll f g children)
termination_by structural e => e

def mapTextsAll (f g : String → String) : List Element → List Element
  | [] => []
  | e :: rest => mapTexts f g e :: mapTextsAll f g rest
termination_by structural es => es

end

mutual

/-- The values of the attributes and the texts. -/
def texts : Element → List String
  | .leaf _ attributes text => attributes.map Prod.snd ++ [text]
  | .node _ attributes children => attributes.map Prod.snd ++ textsAll children
termination_by structural e => e

def textsAll : List Element → List String
  | [] => []
  | e :: rest => texts e ++ textsAll rest
termination_by structural es => es

end

end Element

/-- `Name`. -/
def isName (name : String) : Bool :=
  match name.toList with
  | [] => false
  | c :: rest => isNameStart c && rest.all isNameChar

/-- A tag with names as XML has them, and no attribute twice. -/
def isTag (name : String) (attributes : List (String × String)) : Bool :=
  isName name && attributes.all (fun a => isName a.1) && decide (attributes.map Prod.fst).Nodup

namespace Element

mutual

def named : Element → Bool
  | .leaf name attributes _ => isTag name attributes
  | .node name attributes children => isTag name attributes && namedAll children
termination_by structural e => e

def namedAll : List Element → Bool
  | [] => true
  | e :: rest => named e && namedAll rest
termination_by structural es => es

end

end Element

/-! ### Reading names and values -/

/-- The parser gets from one state to another by a text. -/
def Reads (s : State) (text : List Char) (s' : State) : Prop := feed s text = some s'

variable {s s' s'' : State}

theorem Reads.nil : Reads s [] s := rfl

theorem Reads.cons {c : Char} {text : List Char} (h : step s c = some s') (hRest : Reads s' text s'') :
    Reads s (c :: text) s'' := by
  rw [Reads, feed_cons, h]
  exact hRest

theorem Reads.single {c : Char} (h : step s c = some s') : Reads s [c] s' := .cons h .nil

theorem Reads.append {xs ys : List Char} (h : Reads s xs s') (hRest : Reads s' ys s'') : Reads s (xs ++ ys) s'' := by
  rw [Reads, feed_append, h]
  exact hRest

/-- A text written character by character, in a state that keeps what it has read. -/
theorem reads_flatMap {st : List Char → State} {write : Char → List Char} {read : Char → Char} {text : List Char}
    (h : ∀ acc, ∀ c ∈ text, Reads (st acc) (write c) (st (acc ++ [read c]))) (acc : List Char) :
    Reads (st acc) (text.flatMap write) (st (acc ++ text.map read)) := by
  induction text generalizing acc with
  | nil => simpa using Reads.nil
  | cons c text ih =>
    have hRest := ih (fun acc' d hd => h acc' d (List.mem_cons_of_mem _ hd)) (acc ++ [read c])
    rw [List.append_assoc] at hRest
    exact (h acc c List.mem_cons_self).append hRest

theorem reads_chars {st : List Char → State} {text : List Char}
    (h : ∀ acc, ∀ c ∈ text, step (st acc) c = some (st (acc ++ [c])))
    (acc : List Char) : Reads (st acc) text (st (acc ++ text)) := by
  have hReads := @reads_flatMap st (fun c => [c]) id text (fun acc c hc => .single (h acc c hc)) acc
  simpa using hReads

theorem escapeChar_cases (c : Char) :
    (escapeChar c = [c] ∧ c ≠ '&' ∧ c ≠ '<' ∧ c ≠ '>' ∧ c ≠ '"' ∧ c ≠ '\'') ∨
      ∃ name, escapeChar c = '&' :: (name ++ [';']) ∧ referent name = some c ∧ ';' ∉ name ∧ isWhiteSpace c = false := by
  unfold escapeChar
  split
  · exact .inr ⟨['a', 'm', 'p'], rfl, rfl, by decide, rfl⟩
  · exact .inr ⟨['l', 't'], rfl, rfl, by decide, rfl⟩
  · exact .inr ⟨['g', 't'], rfl, rfl, by decide, rfl⟩
  · exact .inr ⟨['q', 'u', 'o', 't'], rfl, rfl, by decide, rfl⟩
  · exact .inr ⟨['a', 'p', 'o', 's'], rfl, rfl, by decide, rfl⟩
  · rename_i hAmp hLt hGt hQuot hApos
    exact .inl ⟨rfl, hAmp, hLt, hGt, hQuot, hApos⟩

/-- The value of an attribute, with its spaces as blanks. -/
theorem reads_value (tag : Tag) (att : String) (value : List Char) (acc : List Char) :
    Reads { s with mode := .attValue tag att '"' acc } (escape value)
      { s with mode := .attValue tag att '"' (acc ++ value.map State.blank) } := by
  refine @reads_flatMap (fun acc => { s with mode := .attValue tag att '"' acc }) escapeChar State.blank value ?_ acc
  intro acc c _
  rcases escapeChar_cases c with ⟨hWritten, hAmp, hLt, -, hQuot, -⟩ | ⟨name, hWritten, hReferent, hName, hSpace⟩
  · rw [hWritten]
    exact .single (by simp [step, hAmp, hLt, hQuot])
  · have hChars := @reads_chars (fun name => { s with mode := .attReference tag att '"' acc name }) name
      (fun acc' d hd => by simp [step, show d ≠ ';' from fun hEq => hName (hEq ▸ hd)]) []
    rw [hWritten]
    refine .cons rfl (hChars.append (.single ?_))
    simp [step, hReferent, State.blank, hSpace]

/-- A text inside of an element. -/
theorem reads_text {frame : Frame} {stack : List Frame} {root : Option Item} (text : List Char) (k : Nat) :
    ∃ k', Reads ⟨.content k, frame :: stack, root⟩ (escape text)
      ⟨.content k', { frame with content := frame.content ++ text.map .char } :: stack, root⟩ := by
  induction text generalizing frame k with
  | nil =>
    refine ⟨k, ?_⟩
    rw [List.map_nil, List.append_nil]
    exact .nil
  | cons c text ih =>
    have hFirst : ∃ k₁, Reads ⟨.content k, frame :: stack, root⟩ (escapeChar c)
        ⟨.content k₁, { frame with content := frame.content ++ [.char c] } :: stack, root⟩ := by
      rcases escapeChar_cases c with ⟨hWritten, hAmp, hLt, hGt, -⟩ | ⟨name, hWritten, hReferent, hName, -⟩
      · rw [hWritten]
        refine ⟨if c = ']' then k + 1 else 0, .single ?_⟩
        simp [step, hAmp, hLt, hGt, State.text, State.push]
      · have hChars := @reads_chars (fun name => ⟨.reference name, frame :: stack, root⟩) name
          (fun acc' d hd => by simp [step, show d ≠ ';' from fun hEq => hName (hEq ▸ hd)]) []
        rw [hWritten]
        refine ⟨0, .cons rfl (hChars.append (.single ?_))⟩
        simp [step, hReferent, State.push]
    obtain ⟨k₁, hFirst⟩ := hFirst
    obtain ⟨k₂, hRest⟩ := @ih { frame with content := frame.content ++ [.char c] } k₁
    refine ⟨k₂, hFirst.append ?_⟩
    rw [List.append_assoc] at hRest
    exact hRest

/-! ### Reading tags -/

/-- What ends a name. -/
theorem not_isNameChar : ∀ c ∈ [' ', '\t', '\n', '\r', '>', '/', '='], isNameChar c = false := by
  simp [isNameChar, within, nameStartRanges, nameRanges]

theorem isNameChar_of_start {c : Char} (h : isNameStart c = true) : isNameChar c = true := by
  rw [isNameChar, within, List.any_append, Bool.or_eq_true]
  exact .inl h

theorem isNameChar_ne {c d : Char} (h : isNameChar c = true) (hd : d ∈ [' ', '\t', '\n', '\r', '>', '/', '=']) :
    c ≠ d := by
  rintro rfl
  rw [not_isNameChar c hd] at h
  cases h

theorem not_isWhiteSpace_of_name {c : Char} (h : isNameChar c = true) : isWhiteSpace c = false := by
  have hNe (d : Char) (hd : d ∈ [' ', '\t', '\n', '\r', '>', '/', '=']) : c ≠ d := isNameChar_ne h hd
  simp [isWhiteSpace, hNe ' ' (by simp), hNe '\t' (by simp), hNe '\n' (by simp), hNe '\r' (by simp)]

theorem name_cons {name : String} (h : isName name = true) :
    ∃ c rest, name.toList = c :: rest ∧ isNameStart c = true ∧ ∀ d ∈ rest, isNameChar d = true := by
  unfold isName at h
  split at h
  · cases h
  · rename_i c rest hName
    rw [Bool.and_eq_true, List.all_eq_true] at h
    exact ⟨c, rest, hName, h⟩

/-- The spaces of the value of an attribute, as blanks. -/
def blanks (value : String) : String := String.ofList (value.toList.map State.blank)

/-- One attribute, from a state that takes the blank before it. -/
theorem reads_attribute {X : State} {tag : Tag} {att : String × String}
    (hX : step X ' ' = some { s with mode := .inTag tag true })
    (hName : isName att.1 = true) (hNew : att.1 ∉ tag.attributes.map Prod.fst) :
    Reads X (attributeText att)
      { s with mode := .inTag { tag with attributes := tag.attributes ++ [(att.1, blanks att.2)] } false } := by
  obtain ⟨c, rest, hChars, hStart, hRest⟩ := name_cons hName
  have hc := isNameChar_of_start hStart
  have hFirst : step { s with mode := .inTag tag true } c = some { s with mode := .attName tag [c] } := by
    have hEnd : c ≠ '>' := isNameChar_ne hc (by simp)
    have hSlash : c ≠ '/' := isNameChar_ne hc (by simp)
    simp [step, State.tagChar, not_isWhiteSpace_of_name hc, hEnd, hSlash, hStart]
  have hAtt : Reads { s with mode := .inTag tag true } att.1.toList { s with mode := .attName tag att.1.toList } := by
    rw [hChars]
    exact .cons hFirst (@reads_chars (fun acc => { s with mode := .attName tag acc }) rest
      (fun acc d hd => by simp [step, hRest d hd]) [c])
  have hEquals : step { s with mode := .attName tag att.1.toList } '=' = some { s with mode := .quote tag att.1 } := by
    have hNot : isNameChar '=' = false := by decide
    simp [step, State.equalsChar, hNot, isWhiteSpace]
  have hEnd : step { s with mode := .attValue tag att.1 '"' (att.2.toList.map State.blank) } '"' =
      some { s with mode := .inTag { tag with attributes := tag.attributes ++ [(att.1, blanks att.2)] } false } := by
    rw [List.mem_map] at hNew
    simp [step, hNew, blanks]
  rw [attributeText, List.append_assoc, List.cons_append]
  have hValue := @reads_value s tag att.1 att.2.toList []
  exact .cons hX (hAtt.append (.cons hEquals (.cons rfl (hValue.append (.single hEnd)))))

/-- The attributes of a tag and its end. -/
theorem reads_attributes {tag : Tag} {attributes : List (String × String)}
    (hNames : ∀ att ∈ attributes, isName att.1 = true)
    (hNew : (tag.attributes.map Prod.fst ++ attributes.map Prod.fst).Nodup) {X : State}
    (hX : ∀ c, isNameChar c = false → step X c = s.tagChar tag false c) :
    Reads X (attributes.flatMap attributeText ++ ['>'])
      (s.openTag { tag with attributes := tag.attributes ++ Element.mapAttributes blanks attributes }) := by
  induction attributes generalizing tag X with
  | nil =>
    refine .single ((hX '>' (by decide)).trans ?_)
    simp [State.tagChar, isWhiteSpace, Element.mapAttributes]
  | cons att rest ih =>
    rw [List.forall_mem_cons] at hNames
    have hFirst : att.1 ∉ tag.attributes.map Prod.fst := fun hMem =>
      (List.nodup_append.mp hNew).2.2 _ hMem _ List.mem_cons_self rfl
    have hAtt := @reads_attribute s X tag att (hX ' ' (by decide)) hNames.1 hFirst
    let next : Tag := { tag with attributes := tag.attributes ++ [(att.1, blanks att.2)] }
    have hRest := @ih next hNames.2 (by simpa [next] using hNew) { s with mode := .inTag next false } (fun c _ => rfl)
    rw [List.flatMap_cons, List.append_assoc]
    refine hAtt.append ?_
    simpa [next, Element.mapAttributes] using hRest

/-- The name of a tag, in a mode that keeps it. -/
theorem reads_startText {name : String} {attributes : List (String × String)} (hTag : isTag name attributes = true)
    {k : Nat}
    (hMode : s.mode = .content k) (hPlace : s.stack ≠ [] ∨ s.root.isNone = true) :
    Reads s (startText name attributes) (s.openTag ⟨name, Element.mapAttributes blanks attributes⟩) := by
  rw [isTag, Bool.and_eq_true, Bool.and_eq_true, List.all_eq_true, decide_eq_true_eq] at hTag
  obtain ⟨⟨hName, hNames⟩, hNew⟩ := hTag
  obtain ⟨c, rest, hChars, hStart, hRest⟩ := name_cons hName
  have hOpen : step s '<' = some { s with mode := .markup } := by simp [step, hMode]
  have hFirst : step { s with mode := .markup } c = some { s with mode := .startName [c] } := by
    have hSlash : c ≠ '/' := isNameChar_ne (isNameChar_of_start hStart) (by simp)
    simp only [step, if_neg hSlash]
    exact if_pos ⟨hStart, hPlace⟩
  have hOthers := @reads_chars (fun acc => { s with mode := .startName acc }) rest
    (fun acc d hd => by simp [step, hRest d hd]) [c]
  have hEnd := @reads_attributes s ⟨name, []⟩ attributes hNames (by simpa using hNew)
    { s with mode := .startName name.toList }
    fun d hd => by
      simp only [step, hd, String.ofList_toList]
      rfl
  rw [startText, hChars, List.append_assoc]
  rw [hChars] at hEnd
  exact .cons hOpen (.append (.cons hFirst hOthers) hEnd)

/-- The end of the innermost element. -/
theorem reads_endText {name : String} (hName : isName name = true) {k : Nat} {frame : Frame} {stack : List Frame}
    {root : Option Item} (hFrame : frame.name = name) :
    Reads ⟨.content k, frame :: stack, root⟩ (endText name)
      ((⟨.content 0, stack, root⟩ : State).push (.element name frame.attributes frame.content)) := by
  obtain ⟨c, rest, hChars, hStart, hRest⟩ := name_cons hName
  have hNameChars : ∀ d ∈ name.toList, isNameChar d = true := by
    rw [hChars, List.forall_mem_cons]
    exact ⟨isNameChar_of_start hStart, hRest⟩
  have hAll := @reads_chars (fun acc => ⟨.endName acc, frame :: stack, root⟩) name.toList
    (fun acc d hd => by simp [step, hNameChars d hd]) []
  have hEnd : step ⟨.endName name.toList, frame :: stack, root⟩ '>' =
      some ((⟨.content 0, stack, root⟩ : State).push (.element name frame.attributes frame.content)) := by
    have hNot : isNameChar '>' = false := by decide
    simp [step, hNot, State.endChar, isWhiteSpace, State.close, hFrame]
  rw [endText]
  exact .cons rfl (.cons rfl (hAll.append (.single hEnd)))

/-! ### Reading elements -/

theorem isTag_of_names {name : String} {attributes : List (String × String)} (names : List String)
    (hNames : attributes.map Prod.fst = names) (h : isName name && names.all isName && decide names.Nodup) :
    isTag name attributes = true := by
  rw [← hNames, List.all_map] at h
  exact h

theorem isName_of_isTag {name : String} {attributes : List (String × String)} (h : isTag name attributes = true) :
    isName name = true := by
  rw [isTag, Bool.and_eq_true, Bool.and_eq_true] at h
  exact h.1.1

mutual

/-- An element that is read is added to the content of the innermost one that is open. -/
theorem reads_render (e : Element) (hNamed : e.named = true) {k : Nat} {stack : List Frame} {root : Option Item}
    (hPlace : stack ≠ [] ∨ root.isNone = true) :
    Reads ⟨.content k, stack, root⟩ (render e)
      ((⟨.content 0, stack, root⟩ : State).push (e.mapTexts blanks id).item) := by
  cases e with
  | leaf name attributes text =>
    have hTag : isTag name attributes = true := hNamed
    have hStart := @reads_startText ⟨.content k, stack, root⟩ name attributes hTag k rfl hPlace
    obtain ⟨k', hText⟩ := @reads_text ⟨⟨name, Element.mapAttributes blanks attributes⟩, []⟩ stack root text.toList 0
    have hEnd := @reads_endText name (isName_of_isTag hTag) k'
      ⟨⟨name, Element.mapAttributes blanks attributes⟩, text.toList.map .char⟩ stack root rfl
    rw [render]
    exact (hStart.append hText).append hEnd
  | node name attributes children =>
    rw [Element.named, Bool.and_eq_true] at hNamed
    have hStart := @reads_startText ⟨.content k, stack, root⟩ name attributes hNamed.1 k rfl hPlace
    obtain ⟨k', hChildren⟩ := reads_renderAll children hNamed.2 0
      ⟨⟨name, Element.mapAttributes blanks attributes⟩, []⟩ stack root
    have hEnd := @reads_endText name (isName_of_isTag hNamed.1) k'
      ⟨⟨name, Element.mapAttributes blanks attributes⟩, Element.itemAll (Element.mapTextsAll blanks id children)⟩
      stack root rfl
    rw [render]
    exact (hStart.append hChildren).append hEnd

theorem reads_renderAll (es : List Element) (hNamed : Element.namedAll es = true) (k : Nat) (frame : Frame)
    (stack : List Frame) (root : Option Item) :
    ∃ k', Reads ⟨.content k, frame :: stack, root⟩ (renderAll es)
      ⟨.content k', { frame with content := frame.content ++ Element.itemAll (Element.mapTextsAll blanks id es) } :: stack,
        root⟩ := by
  cases es with
  | nil =>
    refine ⟨k, ?_⟩
    simp only [renderAll, Element.mapTextsAll, Element.itemAll, List.append_nil]
    exact .nil
  | cons e rest =>
    rw [Element.namedAll, Bool.and_eq_true] at hNamed
    have hFirst := @reads_render e hNamed.1 k (frame :: stack) root (.inl (List.cons_ne_nil _ _))
    obtain ⟨k', hRest⟩ := reads_renderAll rest hNamed.2 0
      { frame with content := frame.content ++ [(e.mapTexts blanks id).item] } stack root
    refine ⟨k', ?_⟩
    rw [List.append_assoc] at hRest
    rw [renderAll]
    exact hFirst.append hRest

end

/-! ### The ends of lines -/

theorem normalizeEnds_cons {c : Char} (hc : c ≠ '\r') (text : List Char) :
    normalizeEnds (c :: text) = c :: normalizeEnds text := by
  rw [normalizeEnds.eq_4]
  · exact fun _ hEq _ => hc hEq
  · exact hc

theorem normalizeEnds_append {text : List Char} (h : '\r' ∉ text) (rest : List Char) :
    normalizeEnds (text ++ rest) = text ++ normalizeEnds rest := by
  induction text with
  | nil => rfl
  | cons c text ih =>
    rw [List.mem_cons, not_or] at h
    rw [List.cons_append, normalizeEnds_cons (Ne.symm h.1), ih h.2]
    rfl

theorem normalizeEnds_of_not_mem {text : List Char} (h : '\r' ∉ text) : normalizeEnds text = text := by
  simpa [normalizeEnds] using normalizeEnds_append h []

theorem not_mem_normalizeEnds (text : List Char) : '\r' ∉ normalizeEnds text := by
  fun_induction normalizeEnds text with
  | case1 => exact List.not_mem_nil
  | case2 rest ih => simpa using ih
  | case3 rest _ ih => simpa using ih
  | case4 c rest _ hc ih => simpa [ih] using Ne.symm hc

theorem normalizeEnds_eq_self {text : List Char} : normalizeEnds text = text ↔ '\r' ∉ text :=
  ⟨fun h => h ▸ not_mem_normalizeEnds text, normalizeEnds_of_not_mem⟩

theorem escape_cons (c : Char) (text : List Char) : escape (c :: text) = escapeChar c ++ escape text :=
  List.flatMap_cons

theorem return_not_mem_escapeChar {c : Char} (h : c ≠ '\r') : '\r' ∉ escapeChar c := by
  unfold escapeChar
  split
  case h_6 => simpa using Ne.symm h
  all_goals decide

theorem normalizeEnds_return {text : List Char} (h : text.head? ≠ some '\n') :
    normalizeEnds ('\r' :: text) = '\n' :: normalizeEnds text := by
  rw [normalizeEnds]
  rintro rest rfl
  exact h rfl

theorem head?_escape {c d : Char} (hc : c ≠ d) (hd : d ≠ '&') (text rest : List Char) :
    (escape (c :: text) ++ rest).head? ≠ some d := by
  rw [escape_cons, List.append_assoc]
  rcases escapeChar_cases c with ⟨hWritten, -⟩ | ⟨name, hWritten, -⟩
  · simpa [hWritten] using hc
  · simpa [hWritten] using hd.symm

/-- A written text up to the character that follows it. -/
theorem normalizeEnds_escape {d : Char} (hFeed : d ≠ '\n') (text rest : List Char) :
    normalizeEnds (escape text ++ d :: rest) = escape (normalizeEnds text) ++ normalizeEnds (d :: rest) := by
  fun_induction normalizeEnds text with
  | case1 => rfl
  | case2 text ih =>
    show normalizeEnds ('\r' :: '\n' :: (escape text ++ d :: rest)) = '\n' :: (escape (normalizeEnds text) ++ _)
    rw [normalizeEnds, ih]
  | case3 text hNot ih =>
    have hHead : (escape text ++ d :: rest).head? ≠ some '\n' := by
      cases text with
      | nil => simpa [escape] using hFeed
      | cons c tail => exact head?_escape (fun hEq : c = '\n' => hNot tail (by rw [hEq])) (by decide) tail _
    show normalizeEnds ('\r' :: (escape text ++ d :: rest)) = '\n' :: (escape (normalizeEnds text) ++ _)
    rw [normalizeEnds_return hHead, ih]
  | case4 c text _ hc ih =>
    rw [escape_cons, escape_cons, List.append_assoc, List.append_assoc,
      normalizeEnds_append (return_not_mem_escapeChar hc), ih]

/-- The ends of the lines of a value, each as one line feed. -/
def lines (value : String) : String := String.ofList (normalizeEnds value.toList)

theorem return_not_mem_name {name : String} (h : isName name = true) : '\r' ∉ name.toList := by
  obtain ⟨c, rest, hChars, hStart, hRest⟩ := name_cons h
  have hReturn {d : Char} (hd : isNameChar d = true) : '\r' ≠ d := (isNameChar_ne hd (by simp)).symm
  rw [hChars, List.mem_cons, not_or]
  exact ⟨hReturn (isNameChar_of_start hStart), fun hMem => hReturn (hRest _ hMem) rfl⟩

theorem normalizeEnds_attributes {attributes : List (String × String)}
    (hNames : ∀ att ∈ attributes, isName att.1 = true)
    (rest : List Char) :
    normalizeEnds (attributes.flatMap attributeText ++ rest) =
      (Element.mapAttributes lines attributes).flatMap attributeText ++ normalizeEnds rest := by
  induction attributes with
  | nil => rfl
  | cons att others ih =>
    rw [List.forall_mem_cons] at hNames
    have hName : '\r' ∉ ' ' :: att.1.toList ++ ['=', '"'] := by simpa using return_not_mem_name hNames.1
    have hWritten : (att :: others).flatMap attributeText ++ rest =
        (' ' :: att.1.toList ++ ['=', '"']) ++
          (escape att.2.toList ++ '"' :: (others.flatMap attributeText ++ rest)) := by
      simp [attributeText]
    rw [hWritten, normalizeEnds_append hName, normalizeEnds_escape (by decide), normalizeEnds_cons (by decide),
      ih hNames.2]
    simp [Element.mapAttributes, attributeText, lines]

theorem normalizeEnds_startText {name : String} {attributes : List (String × String)}
    (hTag : isTag name attributes = true)
    (rest : List Char) :
    normalizeEnds (startText name attributes ++ rest) =
      startText name (Element.mapAttributes lines attributes) ++ normalizeEnds rest := by
  rw [isTag, Bool.and_eq_true, Bool.and_eq_true, List.all_eq_true] at hTag
  have hName : '\r' ∉ '<' :: name.toList := by simpa using return_not_mem_name hTag.1.1
  have hWritten : startText name attributes ++ rest =
      ('<' :: name.toList) ++ (attributes.flatMap attributeText ++ '>' :: rest) := by simp [startText]
  rw [hWritten, normalizeEnds_append hName, normalizeEnds_attributes hTag.1.2, normalizeEnds_cons (by decide)]
  simp [startText]

theorem normalizeEnds_endText {name : String} (hName : isName name = true) (rest : List Char) :
    normalizeEnds (endText name ++ rest) = endText name ++ normalizeEnds rest := by
  refine normalizeEnds_append ?_ rest
  simpa [endText] using return_not_mem_name hName

mutual

/-- The ends of the lines of a document are those of its values. -/
theorem normalizeEnds_render (e : Element) (hNamed : e.named = true) (rest : List Char) :
    normalizeEnds (render e ++ rest) = render (e.mapTexts lines lines) ++ normalizeEnds rest := by
  cases e with
  | leaf name attributes text =>
    have hTag : isTag name attributes = true := hNamed
    have hText : normalizeEnds (escape text.toList ++ (endText name ++ rest)) =
        escape (lines text).toList ++ (endText name ++ normalizeEnds rest) := by
      rw [lines, String.toList_ofList, ← normalizeEnds_endText (isName_of_isTag hTag)]
      exact normalizeEnds_escape (by decide) _ _
    rw [render, List.append_assoc, List.append_assoc, normalizeEnds_startText hTag, hText, Element.mapTexts, render,
      List.append_assoc, List.append_assoc]
  | node name attributes children =>
    rw [Element.named, Bool.and_eq_true] at hNamed
    rw [render, List.append_assoc, List.append_assoc, normalizeEnds_startText hNamed.1,
      normalizeEnds_renderAll children hNamed.2, normalizeEnds_endText (isName_of_isTag hNamed.1), Element.mapTexts, render,
      List.append_assoc, List.append_assoc]

theorem normalizeEnds_renderAll (es : List Element) (hNamed : Element.namedAll es = true) (rest : List Char) :
    normalizeEnds (renderAll es ++ rest) = renderAll (Element.mapTextsAll lines lines es) ++ normalizeEnds rest := by
  cases es with
  | nil => rfl
  | cons e others =>
    rw [Element.namedAll, Bool.and_eq_true] at hNamed
    rw [renderAll, List.append_assoc, normalizeEnds_render e hNamed.1, normalizeEnds_renderAll others hNamed.2,
      Element.mapTextsAll, renderAll, List.append_assoc]

end

/-! ### The characters of a document -/

def isLegal (text : String) : Bool := text.toList.all isXmlChar

theorem all_escape (text : List Char) : (escape text).all isXmlChar = text.all isXmlChar := by
  induction text with
  | nil => rfl
  | cons c text ih =>
    have hChar : (escapeChar c).all isXmlChar = isXmlChar c := by
      unfold escapeChar
      split
      case h_6 => simp
      all_goals decide
    rw [escape_cons, List.all_append, hChar, ih, List.all_cons]

theorem nameRanges_legal : ∀ r ∈ nameStartRanges ++ nameRanges,
    0x20 ≤ r.1 ∧ r.2 ≤ 0xD7FF ∨ 0xE000 ≤ r.1 ∧ r.2 ≤ 0xFFFD ∨ 0x10000 ≤ r.1 := by decide

theorem isXmlChar_of_name {c : Char} (h : isNameChar c = true) : isXmlChar c = true := by
  rw [isNameChar, within, List.any_eq_true] at h
  obtain ⟨r, hr, hWithin⟩ := h
  have hLegal := nameRanges_legal r hr
  rw [decide_eq_true_eq] at hWithin
  simp only [isXmlChar, decide_eq_true_eq]
  omega

theorem all_name {name : String} (h : isName name = true) : name.toList.all isXmlChar = true := by
  obtain ⟨c, rest, hChars, hStart, hRest⟩ := name_cons h
  rw [hChars, List.all_cons, isXmlChar_of_name (isNameChar_of_start hStart), Bool.true_and, List.all_eq_true]
  exact fun d hd => isXmlChar_of_name (hRest d hd)

theorem all_startText {name : String} {attributes : List (String × String)} (hTag : isTag name attributes = true) :
    (startText name attributes).all isXmlChar = (attributes.map Prod.snd).all isLegal := by
  rw [isTag, Bool.and_eq_true, Bool.and_eq_true, List.all_eq_true] at hTag
  have hAttributes : (attributes.flatMap attributeText).all isXmlChar = (attributes.map Prod.snd).all isLegal := by
    have hNames := hTag.1.2
    clear hTag
    induction attributes with
    | nil => rfl
    | cons att rest ih =>
      rw [List.forall_mem_cons] at hNames
      have hAtt : (attributeText att).all isXmlChar = isLegal att.2 := by
        simp [attributeText, all_name hNames.1, all_escape, isLegal, show isXmlChar ' ' = true by decide,
          show isXmlChar '=' = true by decide, show isXmlChar '"' = true by decide]
      rw [List.flatMap_cons, List.all_append, hAtt, ih hNames.2, List.map_cons, List.all_cons]
  simp [startText, all_name hTag.1.1, hAttributes, show isXmlChar '<' = true by decide,
    show isXmlChar '>' = true by decide]

theorem all_endText {name : String} (hName : isName name = true) : (endText name).all isXmlChar = true := by
  simp [endText, all_name hName, show isXmlChar '<' = true by decide, show isXmlChar '/' = true by decide,
    show isXmlChar '>' = true by decide]

mutual

theorem all_render (e : Element) (hNamed : e.named = true) : (render e).all isXmlChar = e.texts.all isLegal := by
  cases e with
  | leaf name attributes text =>
    have hTag : isTag name attributes = true := hNamed
    rw [render, List.all_append, List.all_append, all_startText hTag, all_escape, all_endText (isName_of_isTag hTag),
      Element.texts, List.all_append, Bool.and_true]
    simp [isLegal]
  | node name attributes children =>
    rw [Element.named, Bool.and_eq_true] at hNamed
    rw [render, List.all_append, List.all_append, all_startText hNamed.1, all_renderAll children hNamed.2,
      all_endText (isName_of_isTag hNamed.1), Element.texts, List.all_append, Bool.and_true]

theorem all_renderAll (es : List Element) (hNamed : Element.namedAll es = true) :
    (renderAll es).all isXmlChar = (Element.textsAll es).all isLegal := by
  cases es with
  | nil => rfl
  | cons e rest =>
    rw [Element.namedAll, Bool.and_eq_true] at hNamed
    rw [renderAll, List.all_append, all_render e hNamed.1, all_renderAll rest hNamed.2, Element.textsAll,
      List.all_append]

end

/-! ### Documents -/

namespace Element

variable (f g f' g' : String → String)

theorem mapAttributes_mapAttributes (attributes : List (String × String)) :
    mapAttributes f' (mapAttributes f attributes) = mapAttributes (f' ∘ f) attributes := by
  simp [mapAttributes]

theorem isTag_mapAttributes (name : String) (attributes : List (String × String)) :
    isTag name (mapAttributes f attributes) = isTag name attributes := by
  simp [isTag, mapAttributes, Function.comp_def]

mutual

theorem mapTexts_mapTexts (e : Element) : (e.mapTexts f g).mapTexts f' g' = e.mapTexts (f' ∘ f) (g' ∘ g) := by
  cases e with
  | leaf name attributes text => simp only [mapTexts, mapAttributes_mapAttributes, Function.comp_apply]
  | node name attributes children =>
    simp only [mapTexts, mapAttributes_mapAttributes, mapTextsAll_mapTextsAll children]

theorem mapTextsAll_mapTextsAll (es : List Element) :
    mapTextsAll f' g' (mapTextsAll f g es) = mapTextsAll (f' ∘ f) (g' ∘ g) es := by
  cases es with
  | nil => rfl
  | cons e rest => simp only [mapTextsAll, mapTexts_mapTexts e, mapTextsAll_mapTextsAll rest]

end

mutual

theorem named_mapTexts (e : Element) : (e.mapTexts f g).named = e.named := by
  cases e with
  | leaf name attributes text => exact isTag_mapAttributes f name attributes
  | node name attributes children =>
    simp only [mapTexts, named, isTag_mapAttributes, namedAll_mapTextsAll children]

theorem namedAll_mapTextsAll (es : List Element) : namedAll (mapTextsAll f g es) = namedAll es := by
  cases es with
  | nil => rfl
  | cons e rest => simp only [mapTextsAll, namedAll, named_mapTexts e, namedAll_mapTextsAll rest]

end

mutual

/-- The tags of an element do not depend on its values. -/
theorem tags_mapTexts (e : Element) : (e.mapTexts f g).item.tags = e.item.tags := by
  cases e with
  | leaf name attributes text =>
    have hChars (text : String) : Item.tagsAll (text.toList.map .char) = [] := by
      induction text.toList with
      | nil => rfl
      | cons c rest ih => simpa [Item.tagsAll, Item.tags] using ih
    simp only [mapTexts, item, Item.tags, hChars]
  | node name attributes children => simp only [mapTexts, item, Item.tags, tagsAll_mapTextsAll children]

theorem tagsAll_mapTextsAll (es : List Element) :
    Item.tagsAll (itemAll (mapTextsAll f g es)) = Item.tagsAll (itemAll es) := by
  cases es with
  | nil => rfl
  | cons e rest => simp only [mapTextsAll, itemAll, Item.tagsAll, tags_mapTexts e, tagsAll_mapTextsAll rest]

end

end Element

/-- The text of a document. -/
def write (e : Element) : String := declaration ++ String.ofList (render e)

/-- An element as it is read. -/
def Element.received (e : Element) : Element := e.mapTexts (blanks ∘ lines) lines

/-- What is read of a document: nothing if one of its characters is not allowed, and otherwise its elements with
their values, up to the ends of lines and the spaces. -/
theorem parse_write {e : Element} (hNamed : e.named = true) :
    parse (write e) = if e.texts.all isLegal then some e.received.item else none := by
  have hDeclaration : declaration.toList.all isXmlChar = true ∧ '\r' ∉ declaration.toList := by decide
  have hLegal : (write e).toList.all isXmlChar = e.texts.all isLegal := by
    rw [write, String.toList_append, String.toList_ofList, List.all_append, hDeclaration.1, all_render e hNamed,
      Bool.true_and]
  have hEnds : normalizeEnds (write e).toList = declaration.toList ++ render (e.mapTexts lines lines) := by
    have hRender := normalizeEnds_render e hNamed []
    rw [List.append_nil] at hRender
    rw [write, String.toList_append, String.toList_ofList, normalizeEnds_append hDeclaration.2, hRender]
    simp [normalizeEnds]
  rw [parse, hLegal, hEnds]
  split
  · have hReads := @reads_render (e.mapTexts lines lines) ((Element.named_mapTexts _ _ e).trans hNamed) 0 [] none
      (.inr rfl)
    rw [Element.mapTexts_mapTexts, Function.id_comp] at hReads
    simp only [List.prefix_append, if_true, List.drop_left]
    rw [show feed State.start (render (e.mapTexts lines lines)) = _ from hReads]
    rfl
  · rfl

/-! ### Values that come back -/

theorem ofList_eq_self {f : List Char → List Char} {text : String} :
    String.ofList (f text.toList) = text ↔ f text.toList = text.toList := by
  rw [← String.toList_inj, String.toList_ofList]

/-- A text comes back if it has no carriage return. -/
theorem lines_eq_self {text : String} : lines text = text ↔ '\r' ∉ text.toList :=
  ofList_eq_self.trans normalizeEnds_eq_self

/-- The value of an attribute comes back if all its spaces are blanks. -/
theorem blanks_lines_eq_self {value : String} :
    blanks (lines value) = value ↔ ∀ c ∈ value.toList, isWhiteSpace c = true → c = ' ' := by
  rw [blanks, lines, String.toList_ofList, ofList_eq_self (f := fun text => (normalizeEnds text).map State.blank)]
  constructor
  · intro h c hc hSpace
    rw [← h, List.mem_map] at hc
    obtain ⟨d, -, rfl⟩ := hc
    unfold State.blank at hSpace ⊢
    split
    · rfl
    · rename_i hNot
      rw [if_neg hNot] at hSpace
      exact absurd hSpace hNot
  · intro h
    have hReturn : '\r' ∉ value.toList := fun hMem => by cases h _ hMem rfl
    have hBlank : ∀ c ∈ value.toList, State.blank c = c := fun c hc => by
      unfold State.blank
      split
      · exact (h c hc ‹_›).symm
      · rfl
    rw [normalizeEnds_of_not_mem hReturn, List.map_congr_left hBlank, List.map_id']

/-- A character that is written as it is and that is no space. -/
def isPlainChar (c : Char) : Bool := escapeChar c = [c] ∧ isXmlChar c ∧ isWhiteSpace c = false

def isPlain (text : String) : Bool := text.toList.all isPlainChar

section

variable {text : String} (h : isPlain text = true)

include h

theorem isPlainChar_of_plain : ∀ c ∈ text.toList, escapeChar c = [c] ∧ isXmlChar c = true ∧ isWhiteSpace c = false := by
  simpa [isPlain, isPlainChar] using h

theorem escape_of_plain : escape text.toList = text.toList := by
  rw [escape, List.flatMap_congr fun c hc => (isPlainChar_of_plain h c hc).1, List.flatMap_singleton']

theorem isLegal_of_plain : isLegal text = true :=
  List.all_eq_true.mpr fun c hc => (isPlainChar_of_plain h c hc).2.1

theorem lines_of_plain : lines text = text :=
  lines_eq_self.mpr fun hReturn => by cases (isPlainChar_of_plain h _ hReturn).2.2

theorem blanks_lines_of_plain : blanks (lines text) = text :=
  blanks_lines_eq_self.mpr fun c hc hSpace => by rw [(isPlainChar_of_plain h c hc).2.2] at hSpace; cases hSpace

end

theorem isPlainChar_of_digit {c : Char} (h : c.isDigit = true) : isPlainChar c = true := by
  have hEscape : escapeChar c = [c] := by
    unfold escapeChar
    split
    case h_6 => rfl
    all_goals exact absurd h (by decide)
  have hName : isNameChar c = true := by
    rw [isNameChar, within, List.any_eq_true]
    refine ⟨(0x30, 0x39), by decide, ?_⟩
    simpa [Char.isDigit_iff_toNat] using h
  simp [isPlainChar, hEscape, isXmlChar_of_name hName, not_isWhiteSpace_of_name hName]

end CyberAccountant.Library.Xml
