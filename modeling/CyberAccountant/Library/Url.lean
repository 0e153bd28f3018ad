import Mathlib.Data.List.DropRight
import Mathlib.Data.List.Infix
import Mathlib.Data.Nat.Digits.Defs

/-! The host of a URL: the generic syntax (scheme, authority, user, host, port), the numbers that stand for an
address of version 4, and a client that connects to what it reads. Texts are lists of characters. -/

namespace CyberAccountant.Library.Url

/-! ## Numbers and addresses -/

/-- The value of a digit, and 36 for a character that is none. -/
def digitValue (c : Char) : Nat :=
  if c.isDigit then c.toNat - 48 else if 'a' ≤ c ∧ c ≤ 'f' then c.toNat - 87 else 36

def readBase (base : Nat) (cs : List Char) : Option Nat :=
  if cs ≠ [] ∧ cs.all (fun c => digitValue c < base) then
    some (Nat.ofDigits base (cs.reverse.map digitValue))
  else none

/-- A number as C spells it: hexadecimal after `0x`, octal after `0`, otherwise decimal. -/
def numberOf : List Char → Option Nat
  | '0' :: 'x' :: digits => readBase 16 digits
  | '0' :: digits => readBase 8 ('0' :: digits)
  | digits => readBase 10 digits

/-- A number after `0x`. -/
def hexNumber : List Char → Bool
  | '0' :: 'x' :: digits => (readBase 16 digits).isSome
  | _ => false

/-- One to four numbers, the last of which fills the bytes that are left. -/
def addressOf : List Nat → Option Nat
  | [a] => if a < 2 ^ 32 then some a else none
  | [a, b] => if a < 2 ^ 8 ∧ b < 2 ^ 24 then some (a * 2 ^ 24 + b) else none
  | [a, b, c] => if a < 2 ^ 8 ∧ b < 2 ^ 8 ∧ c < 2 ^ 16 then some (a * 2 ^ 24 + b * 2 ^ 16 + c) else none
  | [a, b, c, d] =>
    if a < 2 ^ 8 ∧ b < 2 ^ 8 ∧ c < 2 ^ 8 ∧ d < 2 ^ 8 then some (a * 2 ^ 24 + b * 2 ^ 16 + c * 2 ^ 8 + d) else none
  | _ => none

/-- The address that a text stands for, each of its parts in any of the notations. -/
def ipv4Of (host : List Char) : Option Nat :=
  let parts := host.splitOn '.'
  if parts.all fun part => (numberOf part).isSome then addressOf (parts.filterMap numberOf) else none

theorem isDigit_of_digitValue {c : Char} (h : digitValue c < 10) : c.isDigit = true := by
  unfold digitValue at h
  split at h
  · assumption
  · split at h
    · rename_i hLetter
      have hLow : 'a'.toNat ≤ c.toNat := hLetter.1
      have hCode : 'a'.toNat = 97 := rfl
      omega
    · omega

theorem readBase_digits {base : Nat} {cs : List Char} (h : (readBase base cs).isSome) :
    ∀ c ∈ cs, digitValue c < base := by
  unfold readBase at h
  split at h
  · rename_i hDigits
    intro c hc
    simpa using List.all_eq_true.mp hDigits.2 c hc
  · simp at h

/-- A number that is not hexadecimal is made of digits. -/
theorem digits_of_numberOf {cs : List Char} (h : (numberOf cs).isSome) (hHex : hexNumber cs = false) :
    ∀ c ∈ cs, c.isDigit := by
  intro c hc
  unfold numberOf at h
  split at h
  · rename_i digits
    rw [hexNumber, h] at hHex
    simp at hHex
  · exact isDigit_of_digitValue (by have := readBase_digits h c hc; omega)
  · exact isDigit_of_digitValue (readBase_digits h c hc)

theorem number_of_hexNumber {cs : List Char} (h : hexNumber cs) : (numberOf cs).isSome ∧ 'x' ∈ cs := by
  unfold hexNumber at h
  split at h
  · exact ⟨h, by simp⟩
  · exact absurd h (by decide)

/-- The characters of numbers. -/
def isNumeral (c : Char) : Bool := decide (digitValue c < 16) || c == 'x'

theorem numerals_of_numberOf {cs : List Char} (h : (numberOf cs).isSome) : ∀ c ∈ cs, isNumeral c := by
  intro c hc
  have hBelow : ∀ {base : Nat}, base ≤ 16 → ∀ {ds : List Char}, (readBase base ds).isSome → c ∈ ds →
      isNumeral c := by
    intro base hBase ds hSome hMem
    have hDigit := readBase_digits hSome c hMem
    simp only [isNumeral, Bool.or_eq_true, decide_eq_true_eq]
    omega
  unfold numberOf at h
  split at h
  · rcases List.mem_cons.mp hc with rfl | hc
    · decide
    · rcases List.mem_cons.mp hc with rfl | hc
      · decide
      · exact hBelow (by omega) h hc
  · exact hBelow (by omega) h hc
  · exact hBelow (by omega) h hc

/-- What is joined has the separator and what its pieces have. -/
theorem mem_intercalate {sep c : Char} {pieces : List (List Char)} (h : c ∈ [sep].intercalate pieces) :
    c = sep ∨ ∃ piece ∈ pieces, c ∈ piece := by
  induction pieces with
  | nil => simp [List.intercalate] at h
  | cons piece rest ih =>
    cases rest with
    | nil => exact .inr ⟨piece, by simp, by simpa [List.intercalate] using h⟩
    | cons next rest =>
      rw [List.intercalate_cons_cons] at h
      rcases List.mem_append.mp h with hHere | hRest
      · rcases List.mem_append.mp hHere with hPiece | hSep
        · exact .inr ⟨piece, by simp, hPiece⟩
        · exact .inl (List.mem_singleton.mp hSep)
      · rcases ih hRest with hSep | ⟨other, hOther, hMem⟩
        · exact .inl hSep
        · exact .inr ⟨other, List.mem_cons_of_mem _ hOther, hMem⟩

/-- An address of version 4 has nothing but numbers and dots in it. -/
theorem numerals_of_ipv4Of {host : List Char} (h : (ipv4Of host).isSome) :
    ∀ c ∈ host, c = '.' ∨ isNumeral c := by
  intro c hc
  have hParts : (host.splitOn '.').all fun part => (numberOf part).isSome := by
    simp only [ipv4Of] at h
    split at h
    · assumption
    · simp at h
  have hJoin : ['.'].intercalate (host.splitOn '.') = host := List.intercalate_splitOn '.'
  rw [← hJoin] at hc
  rcases mem_intercalate hc with rfl | ⟨part, hPart, hMem⟩
  · exact .inl rfl
  · exact .inr (numerals_of_numberOf (List.all_eq_true.mp hParts part hPart) c hMem)

/-- Without a dot only one number can stand. -/
theorem ipv4Of_eq {host : List Char} (h : '.' ∉ host) :
    ipv4Of host = (numberOf host).bind fun n => addressOf [n] := by
  have hOne : host.splitOn '.' = [host] := by
    have hSplit : (['.'].intercalate [host]).splitOn '.' = [host] :=
      List.splitOn_intercalate '.' (by simpa using h) (by simp)
    simpa using hSplit
  rw [ipv4Of, hOne]
  cases hNumber : numberOf host with
  | none => simp [hNumber]
  | some n => simp [hNumber]

/-- The decimal spelling of an address of version 4. -/
def dotted (a b c d : Nat) : List Char := ['.'].intercalate ([a, b, c, d].map (Nat.toDigits 10))

theorem dotted_eq (a b c d : Nat) : dotted a b c d =
    Nat.toDigits 10 a ++ '.' :: (Nat.toDigits 10 b ++ '.' :: (Nat.toDigits 10 c ++ '.' :: Nat.toDigits 10 d)) := by
  simp [dotted, List.intercalate]

theorem mem_dotted {a b c d : Nat} {x : Char} (h : x ∈ dotted a b c d) : x = '.' ∨ x.isDigit := by
  rcases mem_intercalate h with hDot | ⟨piece, hPiece, hMem⟩
  · exact .inl hDot
  · obtain ⟨n, -, rfl⟩ := List.mem_map.mp hPiece
    exact .inr (Nat.isDigit_of_mem_toDigits (by decide) (by decide) hMem)

/-! ## The generic syntax -/

inductive Host where
  /-- An address in brackets. -/
  | literal (address : List Char)
  | name (text : List Char)
  deriving DecidableEq, Repr

def Host.text : Host → List Char
  | .literal address => '[' :: address ++ [']']
  | .name text => text

structure Reading where
  scheme : List Char
  host : Host
  deriving DecidableEq, Repr

/-- The scheme in front of the first colon, and what stands behind the two slashes. -/
def splitScheme (url : List Char) : Option (List Char × List Char) :=
  match url.dropWhile (· != ':') with
  | ':' :: '/' :: '/' :: rest => some (url.takeWhile (· != ':'), rest)
  | _ => none

/-- What stands in front of the path, the query and the fragment. -/
def authority (rest : List Char) : List Char := rest.takeWhile fun c => !(['/', '?', '#'].contains c)

/-- Nothing, or a colon and digits. -/
def isPort : List Char → Bool
  | [] => true
  | ':' :: digits => digits.all Char.isDigit
  | _ => false

/-- The characters that only stand between the parts. -/
def delimiters : List Char := [':', '/', '?', '#', '[', ']', '@']

def readHost (hostport : List Char) : Option Host :=
  match hostport with
  | '[' :: rest =>
    match rest.dropWhile (· != ']') with
    | ']' :: port => if isPort port then some (.literal (rest.takeWhile (· != ']'))) else none
    | _ => none
  | _ =>
    let name := hostport.takeWhile (· != ':')
    if name.any delimiters.contains then none
    else if isPort (hostport.dropWhile (· != ':')) then some (.name name) else none

/-- The scheme and the host of a URL, in small letters; the user's name ends at the last `@`. -/
def read (url : List Char) : Option Reading :=
  (splitScheme (url.map Char.toLower)).bind fun parts =>
    (readHost ((authority parts.2).rtakeWhile (· != '@'))).map fun host => ⟨parts.1, host⟩

/-- A path that is put behind it does not change what stands in front of a path. -/
theorem authority_append (rest path : List Char) : authority (rest ++ '/' :: path) = authority rest := by
  induction rest with
  | nil => simp [authority]
  | cons c rest ih =>
    simp only [authority, List.cons_append, List.takeWhile_cons] at ih ⊢
    split
    · rw [ih]
    · rfl

theorem splitScheme_eq {url scheme rest : List Char} (h : splitScheme url = some (scheme, rest)) :
    url = scheme ++ ':' :: '/' :: '/' :: rest := by
  unfold splitScheme at h
  split at h
  · rename_i after hAfter
    injection h with hParts
    injection hParts with hScheme hRest
    subst hScheme hRest
    rw [← hAfter, List.takeWhile_append_dropWhile]
  · simp at h

/-- A name is followed by nothing or by a port, and has no delimiter in it. -/
theorem readHost_name {hostport name : List Char} (h : readHost hostport = some (.name name)) :
    (∀ c ∈ name, c ∉ delimiters) ∧ ∃ port, hostport = name ++ port ∧ isPort port := by
  unfold readHost at h
  split at h
  · split at h
    · split at h <;> simp at h
    · simp at h
  · simp only at h
    split at h
    · simp at h
    · rename_i hClean
      split at h
      · rename_i hPort
        injection h with hHost
        injection hHost with hName
        subst hName
        refine ⟨fun c hc hDelimiter => hClean ?_, _, (List.takeWhile_append_dropWhile).symm, hPort⟩
        exact List.any_eq_true.mpr ⟨c, hc, by simpa using hDelimiter⟩
      · simp at h

theorem isPort_cases {port : List Char} (h : isPort port) :
    port = [] ∨ ∃ digits, port = ':' :: digits ∧ ∀ c ∈ digits, c.isDigit := by
  unfold isPort at h
  split at h
  · exact .inl rfl
  · rename_i digits
    exact .inr ⟨digits, rfl, List.all_eq_true.mp h⟩
  · exact absurd h (by decide)

theorem readHost_literal {hostport address : List Char} (h : readHost hostport = some (.literal address)) :
    ∃ port, hostport = '[' :: address ++ ']' :: port := by
  unfold readHost at h
  split at h
  · rename_i rest
    split at h
    · rename_i port hPort
      split at h
      · injection h with hHost
        injection hHost with hAddress
        subst hAddress
        exact ⟨port, by rw [List.cons_append, ← hPort, List.takeWhile_append_dropWhile]⟩
      · simp at h
    · simp at h
  · simp only at h
    split at h
    · simp at h
    · split at h <;> simp at h

theorem literal_of_bracket {hostport : List Char} {host : Host} (h : readHost ('[' :: hostport) = some host) :
    ∃ address, host = .literal address := by
  simp only [readHost] at h
  split at h
  · split at h
    · injection h with hHost
      exact ⟨_, hHost.symm⟩
    · simp at h
  · simp at h

/-- A URL that is read has the text of its scheme, and its host stands behind the last `@` of its authority. -/
theorem read_eq {url : List Char} {reading : Reading} (h : read url = some reading) :
    ∃ rest, url.map Char.toLower = reading.scheme ++ ':' :: '/' :: '/' :: rest ∧
      readHost ((authority rest).rtakeWhile (· != '@')) = some reading.host := by
  obtain ⟨⟨scheme, rest⟩, hParts, hRead⟩ := Option.bind_eq_some_iff.mp h
  obtain ⟨host, hHost, hReading⟩ := Option.map_eq_some_iff.mp hRead
  subst hReading
  exact ⟨rest, splitScheme_eq hParts, hHost⟩

theorem bne_of_not_mem {d : Char} {text : List Char} (h : d ∉ text) : ∀ c ∈ text, (c != d) = true := by
  intro c hc
  have hOther : c ≠ d := fun hSame => h (hSame ▸ hc)
  simpa using hOther

theorem splitScheme_append {scheme : List Char} (h : ':' ∉ scheme) (rest : List Char) :
    splitScheme (scheme ++ ':' :: '/' :: '/' :: rest) = some (scheme, rest) := by
  unfold splitScheme
  rw [List.dropWhile_append_of_pos (bne_of_not_mem h), List.takeWhile_append_of_pos (bne_of_not_mem h)]
  simp

/-! ## Small letters -/

theorem isAlpha_of_isUpper {c : Char} (h : c.isUpper = true) : c.isAlpha = true :=
  (congrArg (· || c.isLower) h).trans (Bool.true_or _)

theorem isAlpha_of_isLower {c : Char} (h : c.isLower = true) : c.isAlpha = true :=
  (congrArg (c.isUpper || ·) h).trans (Bool.or_true _)

/-- What is no letter in small letters was no letter. -/
theorem toLower_eq {c d : Char} (hd : d.isAlpha = false) (h : c.toLower = d) : c = d := by
  unfold Char.toLower at h
  split at h
  · rename_i hUpper
    subst h
    have hLow : 65 ≤ c.val.toNat := hUpper.1
    have hHigh : c.val.toNat ≤ 90 := hUpper.2
    have hCode : (c.val + ('a'.val - 'A'.val)).toNat = c.val.toNat + 32 := by
      rw [UInt32.toNat_add, show ('a'.val - 'A'.val).toNat = 32 from rfl]
      omega
    have hFrom : 'a'.val ≤ c.val + ('a'.val - 'A'.val) :=
      UInt32.le_iff_toNat_le.mpr (by rw [hCode]; exact Nat.add_le_add_right hLow 32)
    have hTo : c.val + ('a'.val - 'A'.val) ≤ 'z'.val :=
      UInt32.le_iff_toNat_le.mpr (by rw [hCode]; exact Nat.add_le_add_right hHigh 32)
    rw [isAlpha_of_isLower ((Bool.and_eq_true _ _).mpr ⟨decide_eq_true hFrom, decide_eq_true hTo⟩)] at hd
    exact absurd hd (by decide)
  · exact h

theorem toLower_self {d : Char} (hd : d.isAlpha = false) : d.toLower = d := by
  unfold Char.toLower
  split
  · rename_i hUpper
    exact absurd (isAlpha_of_isUpper (decide_eq_true hUpper)) (by simp [hd])
  · rfl

theorem mem_map_toLower {d : Char} (hd : d.isAlpha = false) {text : List Char} :
    d ∈ text.map Char.toLower ↔ d ∈ text := by
  constructor
  · intro h
    obtain ⟨c, hc, hSame⟩ := List.mem_map.mp h
    rwa [← toLower_eq hd hSame]
  · intro h
    exact List.mem_map.mpr ⟨d, h, toLower_self hd⟩

theorem takeWhile_map_toLower {p : Char → Bool} (hp : ∀ c, p c.toLower = p c) (text : List Char) :
    (text.map Char.toLower).takeWhile p = (text.takeWhile p).map Char.toLower := by
  have hSame : p ∘ Char.toLower = p := funext hp
  rw [List.takeWhile_map, hSame]

theorem bne_toLower {d : Char} (hd : d.isAlpha = false) (c : Char) : (c.toLower != d) = (c != d) := by
  rw [Bool.eq_iff_iff, bne_iff_ne, bne_iff_ne, not_iff_not]
  constructor
  · exact toLower_eq hd
  · rintro rfl
    exact toLower_self hd

theorem authority_map_toLower (rest : List Char) :
    authority (rest.map Char.toLower) = (authority rest).map Char.toLower := by
  refine takeWhile_map_toLower (fun c => ?_) rest
  have hStops : ∀ d ∈ ['/', '?', '#'], d.isAlpha = false := by simp
  rw [Bool.not_eq_eq_eq_not, Bool.not_not, Bool.eq_iff_iff, List.contains_iff_mem, List.contains_iff_mem]
  constructor
  · intro h
    rwa [toLower_eq (hStops _ h) rfl]
  · intro h
    rwa [toLower_self (hStops _ h)]

/-- A URL is read piece by piece. -/
theorem read_append {scheme : List Char} (h : ':' ∉ scheme) (rest : List Char) :
    read (scheme ++ ':' :: '/' :: '/' :: rest) =
      (readHost (((authority rest).map Char.toLower).rtakeWhile (· != '@'))).map fun host =>
        ⟨scheme.map Char.toLower, host⟩ := by
  have hColon : ':' ∉ scheme.map Char.toLower := fun hMem => h ((mem_map_toLower rfl).mp hMem)
  have hLower : (scheme ++ ':' :: '/' :: '/' :: rest).map Char.toLower =
      scheme.map Char.toLower ++ ':' :: '/' :: '/' :: rest.map Char.toLower := by
    rw [List.map_append, List.map_cons, List.map_cons, List.map_cons, toLower_self rfl, toLower_self rfl]
  rw [read, hLower, splitScheme_append hColon, Option.bind_some, authority_map_toLower]

/-! ## Clients -/

/-- The characters of a name as it is looked up. -/
def isPlain (c : Char) : Bool := c.isAlphanum || ['-', '.', '_', '~'].contains c

/-- A client that connects to the host of an `http` or `https` URL. It may refuse more texts than the syntax does,
and it turns the host into the name it looks up: escaped and international characters are undone, and an address
of version 4 may be spelled anew. -/
structure Client where
  takes : List Char → Bool
  nameOf : List Char → Option (List Char)
  plain_of_nameOf : ∀ host name, nameOf host = some name → ∀ c ∈ name, isPlain c
  nameOf_of_plain : ∀ host name, nameOf host = some name → (∀ c ∈ host, isPlain c) → ipv4Of host = none → name = host

/-- The host that was read and the name that was looked up for it. -/
structure Connection where
  host : Host
  name : List Char
  deriving DecidableEq, Repr

/-- What the client connects to; an address in brackets is taken as it is. -/
def Client.connect (client : Client) (url : List Char) : Option Connection :=
  if client.takes url then
    (read url).bind fun reading =>
      if reading.scheme = "http".toList ∨ reading.scheme = "https".toList then
        match reading.host with
        | .literal address => some ⟨.literal address, address⟩
        | .name text => (client.nameOf text).map fun name => ⟨.name text, name⟩
      else none
  else none

/-- A connection goes to the host of a URL with one of the two schemes, under the name the client makes of it. -/
theorem Client.connect_eq {client : Client} {url : List Char} {connection : Connection}
    (h : client.connect url = some connection) :
    ∃ reading, read url = some reading ∧ (reading.scheme = "http".toList ∨ reading.scheme = "https".toList) ∧
      reading.host = connection.host ∧
      ∀ text, connection.host = .name text → client.nameOf text = some connection.name := by
  unfold Client.connect at h
  split at h
  · obtain ⟨reading, hRead, hScheme⟩ := Option.bind_eq_some_iff.mp h
    refine ⟨reading, hRead, ?_⟩
    split at hScheme
    · rename_i hHttp
      refine ⟨hHttp, ?_⟩
      split at hScheme
      · rename_i address hHost
        injection hScheme with hConnection
        subst hConnection
        exact ⟨hHost, by simp⟩
      · rename_i text hHost
        obtain ⟨name, hName, hConnection⟩ := Option.map_eq_some_iff.mp hScheme
        subst hConnection
        refine ⟨hHost, fun other hOther => ?_⟩
        injection hOther with hText
        rw [← hText, hName]
    · simp at hScheme
  · simp at h

/-- What a function of C reads of a text: the characters in front of the first zero. -/
def cText (text : List Char) : List Char := text.takeWhile (· != Char.ofNat 0)

theorem cText_append_of_mem {text : List Char} (h : Char.ofNat 0 ∈ text) (more : List Char) :
    cText (text ++ more) = cText text := by
  induction text with
  | nil => simp at h
  | cons c text ih =>
    by_cases hZero : c = Char.ofNat 0
    · simp [cText, hZero]
    · have hRest : Char.ofNat 0 ∈ text := by
        rcases List.mem_cons.mp h with hHere | hRest
        · exact absurd hHere.symm hZero
        · exact hRest
      have hNext : (c != Char.ofNat 0) = true := by simpa using hZero
      simp only [cText, List.cons_append, List.takeWhile_cons, hNext, if_true] at ih ⊢
      rw [ih hRest]

theorem cText_append_of_not_mem {text : List Char} (h : Char.ofNat 0 ∉ text) (more : List Char) :
    cText (text ++ more) = text ++ cText more :=
  List.takeWhile_append_of_pos (bne_of_not_mem h)

/-- A zero behind the authority does not change it. -/
theorem authority_cText {rest : List Char} (h : Char.ofNat 0 ∉ authority rest) :
    authority (cText rest) = authority rest := by
  induction rest with
  | nil => rfl
  | cons c rest ih =>
    by_cases hZero : c = Char.ofNat 0
    · subst hZero
      exact absurd (by simp [authority]) h
    · have hHere : cText (c :: rest) = c :: cText rest := List.takeWhile_cons_of_pos (by simpa using hZero)
      rw [hHere]
      simp only [authority, List.takeWhile_cons] at ih h ⊢
      split
      · rename_i hGoes
        rw [if_pos hGoes, List.mem_cons, not_or] at h
        rw [ih h.2]
      · rfl

/-- A zero behind the authority of a URL does not change what is read. -/
theorem read_cText {scheme rest : List Char} (hColon : ':' ∉ scheme) (hScheme : Char.ofNat 0 ∉ scheme)
    (hRest : Char.ofNat 0 ∉ authority rest) :
    read (cText (scheme ++ ':' :: '/' :: '/' :: rest)) = read (scheme ++ ':' :: '/' :: '/' :: rest) := by
  have hText : cText (scheme ++ ':' :: '/' :: '/' :: rest) = scheme ++ ':' :: '/' :: '/' :: cText rest := by
    rw [cText_append_of_not_mem hScheme]
    have hSlashes : Char.ofNat 0 ∉ "://".toList := by decide
    exact congrArg (scheme ++ ·) (cText_append_of_not_mem hSlashes rest)
  rw [hText, read_append hColon, read_append hColon, authority_cText hRest]

theorem cText_of_not_mem {text : List Char} (h : Char.ofNat 0 ∉ text) : cText text = text :=
  List.takeWhile_eq_self_iff.mpr (bne_of_not_mem h)

end CyberAccountant.Library.Url
