import Mathlib.Data.List.Basic

/-! String literals in the text of a program, as Typst reads them: where they end, and what they denote.
What follows `/*` is not read any further. -/

namespace CyberAccountant.Library.Literals

/-- Where the reader is; in a literal, what is between its quotes so far, and whether a backslash is before
the next character. -/
inductive State where
  | code
  | slash
  | comment
  | block
  | literal (raw : List Char) (escaped : Bool)
  deriving DecidableEq

inductive Token where
  /-- A character outside of literals. -/
  | code (c : Char)
  /-- What is between the quotes of a literal. -/
  | literal (raw : List Char)
  deriving DecidableEq

/-- The next state, and what is read with the character. -/
def step : State → Char → State × List Token
  | .code, c =>
    if c = '"' then (.literal [] false, [])
    else if c = '/' then (.slash, [.code c])
    else (.code, [.code c])
  | .slash, c =>
    if c = '"' then (.literal [] false, [])
    else if c = '/' then (.comment, [.code c])
    else if c = '*' then (.block, [.code c])
    else (.code, [.code c])
  | .comment, c => if c = '\n' then (.code, [.code c]) else (.comment, [.code c])
  | .block, c => (.block, [.code c])
  | .literal raw escaped, c =>
    if c = '"' ∧ escaped = false then (.code, [.literal raw])
    else (.literal (raw ++ [c]) (decide (c = '\\' ∧ escaped = false)), [])

def after (s : State) (text : List Char) : State := text.foldl (fun s c => (step s c).1) s

def lexFrom : State → List Char → List Token
  | _, [] => []
  | s, c :: rest => (step s c).2 ++ lexFrom (step s c).1 rest

def lex (text : String) : List Token := lexFrom .code text.toList

/-- A token without what is between the quotes. -/
def Token.blank : Token → Token
  | .code c => .code c
  | .literal _ => .literal []

/-- What is between the quotes of the literals. -/
def literals (tokens : List Token) : List (List Char) :=
  tokens.filterMap fun token => match token with
    | .code _ => none
    | .literal raw => some raw

section

variable {s t : State} {text rest : List Char}

theorem after_append (s : State) (text rest : List Char) : after s (text ++ rest) = after (after s text) rest :=
  List.foldl_append

theorem lexFrom_append (s : State) (text rest : List Char) :
    lexFrom s (text ++ rest) = lexFrom s text ++ lexFrom (after s text) rest := by
  induction text generalizing s with
  | nil => rfl
  | cons c text ih =>
    rw [List.cons_append, lexFrom, lexFrom, ih, List.append_assoc]
    rfl

/-- A text of the program that is read by itself. -/
def Closed (text : List Char) : Prop := after .code text = .code

theorem Closed.append (h : Closed text) (hRest : Closed rest) : Closed (text ++ rest) := by
  rw [Closed, after_append, h, hRest]

theorem Closed.lexFrom_append (h : Closed text) (rest : List Char) :
    lexFrom .code (text ++ rest) = lexFrom .code text ++ lexFrom .code rest := by
  rw [Literals.lexFrom_append, h]

/-- A fixed text, by running the reader on its characters. -/
theorem closed_of_run {s : String} (h : s = String.ofList text) (hRun : after .code text = .code) :
    Closed s.toList := by
  rw [h, String.toList_ofList]
  exact hRun

/-- A text without quotes and slashes. -/
def Plain (text : List Char) : Prop := ∀ c ∈ text, c ≠ '"' ∧ c ≠ '/'

instance (text : List Char) : Decidable (Plain text) := List.decidableBAll _ text

theorem Plain.append (h : Plain text) (hRest : Plain rest) : Plain (text ++ rest) := by
  intro c hc
  rcases List.mem_append.mp hc with hText | hRest'
  · exact h c hText
  · exact hRest c hRest'

theorem step_plain {c : Char} (h : c ≠ '"' ∧ c ≠ '/') : step .code c = (.code, [.code c]) := by
  rw [step, if_neg h.1, if_neg h.2]

theorem Plain.closed (h : Plain text) : Closed text := by
  induction text with
  | nil => rfl
  | cons c text ih =>
    rw [Plain, List.forall_mem_cons] at h
    have hFirst : after .code (c :: text) = after (step .code c).1 text := rfl
    rw [Closed, hFirst, step_plain h.1]
    exact ih h.2

theorem Plain.lexFrom (h : Plain text) : lexFrom .code text = text.map .code := by
  induction text with
  | nil => rfl
  | cons c text ih =>
    rw [Plain, List.forall_mem_cons] at h
    rw [Literals.lexFrom, step_plain h.1, ih h.2]
    rfl

end

/-! ### What a literal denotes -/

def isHexDigit (c : Char) : Bool := ('0' ≤ c && c ≤ '9') || ('a' ≤ c && c ≤ 'f') || ('A' ≤ c && c ≤ 'F')

def hexValue (c : Char) : Nat :=
  if c ≤ '9' then c.toNat - '0'.toNat else if c ≤ 'F' then c.toNat - 'A'.toNat + 10 else c.toNat - 'a'.toNat + 10

/-- The character with a number in hexadecimal digits. -/
def charOf (digits : List Char) : Option Char :=
  let n := digits.foldl (fun n c => 16 * n + hexValue c) 0
  if digits ≠ [] ∧ n.isValidChar then some (Char.ofNat n) else none

/-- What follows an optional closing brace. -/
def dropBrace : List Char → List Char
  | '}' :: rest => rest
  | rest => rest

theorem length_dropBrace_le (text : List Char) : (dropBrace text).length ≤ text.length := by
  unfold dropBrace
  split <;> simp

/-- The value of a literal.  What is no escape sequence denotes itself. -/
def denote : List Char → List Char
  | [] => []
  | '\\' :: '\\' :: rest => '\\' :: denote rest
  | '\\' :: '"' :: rest => '"' :: denote rest
  | '\\' :: 'n' :: rest => '\n' :: denote rest
  | '\\' :: 'r' :: rest => '\r' :: denote rest
  | '\\' :: 't' :: rest => '\t' :: denote rest
  | '\\' :: 'u' :: '{' :: rest =>
    let tail := rest.dropWhile isHexDigit
    match charOf (rest.takeWhile isHexDigit) with
    | some c => c :: denote (dropBrace tail)
    | none =>
      ('\\' :: 'u' :: '{' :: rest.take (rest.length - (dropBrace tail).length)) ++ denote (dropBrace tail)
  | c :: rest => c :: denote rest
termination_by text => text.length
decreasing_by
  all_goals simp only [List.length_cons]
  all_goals first
    | omega
    | have hTail := length_dropBrace_le (rest.dropWhile isHexDigit)
      have hDrop := (List.dropWhile_suffix isHexDigit (l := rest)).length_le
      omega

theorem denote_cons {c : Char} (h : c ≠ '\\') (rest : List Char) : denote (c :: rest) = c :: denote rest := by
  rw [denote]
  all_goals
    rintro _ rfl
    exact fun _ => h rfl

end CyberAccountant.Library.Literals
