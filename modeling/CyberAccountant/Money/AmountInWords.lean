import CyberAccountant.Money.MoneyFormat
import Mathlib.Tactic.Ring

/-! Amounts of money in words, and the readers that tell which amount a printed text says. -/

namespace CyberAccountant.Money


/-- The largest amount that is spelled out, in tiyn. -/
def maxTiyn : Int := 100000000000000

def triadCount : Nat := 5

def ruUnits : List String :=
  ["ноль", "один", "два", "три", "четыре", "пять", "шесть", "семь", "восемь", "девять", "десять",
    "одиннадцать", "двенадцать", "тринадцать", "четырнадцать", "пятнадцать", "шестнадцать",
    "семнадцать", "восемнадцать", "девятнадцать"]

def ruTens : List String :=
  ["", "", "двадцать", "тридцать", "сорок", "пятьдесят", "шестьдесят", "семьдесят", "восемьдесят",
    "девяносто"]

def ruHundreds : List String :=
  ["", "сто", "двести", "триста", "четыреста", "пятьсот", "шестьсот", "семьсот", "восемьсот",
    "девятьсот"]

/-- The three forms of the word of a scale, and its gender. -/
structure RuScale where
  forms : List String
  feminine : Bool

def ruScales : List RuScale :=
  [⟨["", "", ""], false⟩, ⟨["тысяча", "тысячи", "тысяч"], true⟩,
    ⟨["миллион", "миллиона", "миллионов"], false⟩, ⟨["миллиард", "миллиарда", "миллиардов"], false⟩,
    ⟨["триллион", "триллиона", "триллионов"], false⟩]

/-- The first triads of a number, the lowest first. -/
def splitTriads : Nat → Nat → List Nat
  | 0, _ => []
  | count + 1, rest => rest % 1000 :: splitTriads count (rest / 1000)

def pluralIndex (n : Nat) : Nat :=
  if 11 ≤ n % 100 ∧ n % 100 ≤ 14 then 2
  else if n % 10 = 1 then 0
  else if n % 10 = 2 ∨ n % 10 = 3 ∨ n % 10 = 4 then 1
  else 2

/-- The word of a number below twenty. -/
def ruUnit (n : Nat) (feminine : Bool) : String :=
  if feminine ∧ n = 1 then "одна" else if feminine ∧ n = 2 then "две" else ruUnits.getD n ""

/-- The words of a triad. -/
def triadRu (triad : Nat) (feminine : Bool) : List String :=
  if triad = 0 then []
  else
    let h := triad / 100
    let t := triad / 10 % 10
    let u := triad % 10
    (if 0 < h then [ruHundreds.getD h ""] else []) ++
      if 2 ≤ t then ruTens.getD t "" :: if 0 < u then [ruUnit u feminine] else []
      else if 0 < t * 10 + u then [ruUnit (t * 10 + u) feminine] else []

/-- The words of the triad at place `i`, with the word of its scale. -/
def scaledRu (triad i : Nat) : List String :=
  if triad = 0 then []
  else
    let scale := ruScales.getD i ⟨[], false⟩
    triadRu triad scale.feminine ++
      if 0 < i then [scale.forms.getD (pluralIndex triad) ""] else []

/-- The words of all triads from place `i` on, the highest first. -/
def triadsRu : List Nat → Nat → List String
  | [], _ => []
  | triad :: higher, i => triadsRu higher (i + 1) ++ scaledRu triad i

/-- Small letters outside the Russian alphabet with their capitals. -/
def extraCyrillicCasePairs : List (Char × Char) :=
  [('ә', 'Ә'), ('ғ', 'Ғ'), ('қ', 'Қ'), ('ң', 'Ң'), ('ө', 'Ө'), ('ұ', 'Ұ'), ('ү', 'Ү'), ('һ', 'Һ'), ('і', 'І')]

def capitalLetter (c : Char) : Char :=
  if 'а' ≤ c ∧ c ≤ 'я' then Char.ofNat (c.toNat - 32)
  else ((extraCyrillicCasePairs.find? fun pair => pair.1 = c).map Prod.snd).getD c

/-- Makes the first letter a capital where it is a small Cyrillic one. -/
def capitalizeCyrillic : List Char → List Char
  | c :: rest => capitalLetter c :: rest
  | [] => []

def joinWords (words : List String) : List Char := [' '].intercalate (words.map String.toList)

/-- The end of the text: the tiyn as two digits. -/
def tiynTail (tiynPart : Nat) (unitWord : String) : List Char :=
  ' ' :: twoDigits tiynPart ++ ' ' :: unitWord.toList

inductive WordsFault where
  | invalidArgument
  | outOfRange
  deriving DecidableEq

def toWordsRu (tiyn : Int) : Except WordsFault String :=
  if tiyn < 0 then .error .invalidArgument
  else if maxTiyn < tiyn then .error .outOfRange
  else
    let words := triadsRu (splitTriads triadCount (tiyn.toNat / 100)) 0
    let words := (if words = [] then ["ноль"] else words) ++ ["тенге"]
    .ok (String.ofList (capitalizeCyrillic (joinWords words) ++ tiynTail (tiyn.toNat % 100) "тиын"))

example : toWordsRu 25057500 = .ok "Двести пятьдесят тысяч пятьсот семьдесят пять тенге 00 тиын" := by
  decide +kernel

/-! ### Reading the words -/

/-- What a word of a numeral means. -/
inductive Numeral where
  | number (n : Nat)
  /-- Multiplies what has been said of the triad by a power of a thousand. -/
  | scale (i : Nat)
  deriving DecidableEq

/-- The Russian numerals, in the forms that count nouns ask for. -/
def vocabularyRu : List (String × Numeral) :=
  [("один", .number 1), ("одна", .number 1), ("два", .number 2), ("две", .number 2),
    ("три", .number 3), ("четыре", .number 4), ("пять", .number 5), ("шесть", .number 6),
    ("семь", .number 7), ("восемь", .number 8), ("девять", .number 9), ("десять", .number 10),
    ("одиннадцать", .number 11), ("двенадцать", .number 12), ("тринадцать", .number 13),
    ("четырнадцать", .number 14), ("пятнадцать", .number 15), ("шестнадцать", .number 16),
    ("семнадцать", .number 17), ("восемнадцать", .number 18), ("девятнадцать", .number 19),
    ("двадцать", .number 20), ("тридцать", .number 30), ("сорок", .number 40),
    ("пятьдесят", .number 50), ("шестьдесят", .number 60), ("семьдесят", .number 70),
    ("восемьдесят", .number 80), ("девяносто", .number 90), ("сто", .number 100),
    ("двести", .number 200), ("триста", .number 300), ("четыреста", .number 400),
    ("пятьсот", .number 500), ("шестьсот", .number 600), ("семьсот", .number 700),
    ("восемьсот", .number 800), ("девятьсот", .number 900), ("тысяча", .scale 1),
    ("тысячи", .scale 1), ("тысяч", .scale 1), ("миллион", .scale 2), ("миллиона", .scale 2),
    ("миллионов", .scale 2), ("миллиард", .scale 3), ("миллиарда", .scale 3),
    ("миллиардов", .scale 3), ("триллион", .scale 4), ("триллиона", .scale 4),
    ("триллионов", .scale 4), ("ноль", .number 0)]

def numeralRu (word : String) : Option Numeral :=
  (vocabularyRu.find? fun entry => entry.1 = word).map Prod.snd

/-- What has been said: the complete triads, and the words of the triad that is not complete. -/
structure Said where
  total : Nat
  current : Nat

def Said.hear (said : Said) : Numeral → Said
  | .number n => ⟨said.total, said.current + n⟩
  | .scale i => ⟨said.total + said.current * 1000 ^ i, 0⟩

/-- Reads the words one after another. -/
def hearRu : List String → Said → Option Said
  | [], said => some said
  | word :: rest, said => (numeralRu word).bind fun numeral => hearRu rest (said.hear numeral)

/-- The small letter of a Russian capital. -/
def smallLetter (c : Char) : Char := if 'А' ≤ c ∧ c ≤ 'Я' then Char.ofNat (c.toNat + 32) else c

def uncapitalize : List Char → List Char
  | c :: rest => smallLetter c :: rest
  | [] => []

/-- The amount in tiyn that a text in words says: numerals, `тенге`, two digits, `тиын`. -/
def readWordsRu (text : String) : Option Nat :=
  match ((uncapitalize text.toList).splitOn ' ').reverse with
  | unit :: frac :: currency :: words => do
    let said ← hearRu (words.reverse.map String.ofList) ⟨0, 0⟩
    let tiyn ← readDigits frac
    if unit = "тиын".toList ∧ currency = "тенге".toList ∧ frac.length = 2 then
      some ((said.total + said.current) * 100 + tiyn)
    else none
  | _ => none

@[simp] theorem Said.hear_number (said : Said) (n : Nat) :
    said.hear (.number n) = ⟨said.total, said.current + n⟩ := rfl

@[simp] theorem Said.hear_scale (said : Said) (i : Nat) :
    said.hear (.scale i) = ⟨said.total + said.current * 1000 ^ i, 0⟩ := rfl

theorem hearRu_append (xs ys : List String) (said : Said) :
    hearRu (xs ++ ys) said = (hearRu xs said).bind (hearRu ys) := by
  induction xs generalizing said with
  | nil => rfl
  | cons word rest ih =>
    simp only [List.cons_append, hearRu]
    cases numeralRu word with
    | none => rfl
    | some numeral => exact ih _

@[simp] theorem hearRu_single (word : String) (said : Said) :
    hearRu [word] said = (numeralRu word).map said.hear := by
  simp only [hearRu]
  cases numeralRu word <;> rfl

theorem numeralRu_hundreds : ∀ h < 10, 0 < h → numeralRu (ruHundreds.getD h "") = some (.number (h * 100)) := by
  decide +kernel

theorem numeralRu_tens : ∀ t < 10, 2 ≤ t → numeralRu (ruTens.getD t "") = some (.number (t * 10)) := by
  decide +kernel

theorem numeralRu_unit : ∀ feminine, ∀ n < 20, numeralRu (ruUnit n feminine) = some (.number n) := by
  decide +kernel

theorem numeralRu_scale : ∀ i < 5, 0 < i → ∀ form < 3,
    numeralRu (((ruScales.getD i ⟨[], false⟩).forms).getD form "") = some (.scale i) := by
  decide +kernel

/-- The words of a triad say the triad. -/
theorem hearRu_triadRu {triad : Nat} (h : triad < 1000) (feminine : Bool) (said : Said) :
    hearRu (triadRu triad feminine) said = some ⟨said.total, said.current + triad⟩ := by
  have hHundred : triad / 100 < 10 := by omega
  have hTen : triad / 10 % 10 < 10 := by omega
  have hUnit : triad % 10 < 20 := by omega
  have hSum : triad = triad / 100 * 100 + (triad / 10 % 10 * 10 + triad % 10) := by omega
  unfold triadRu
  split_ifs with hZero
  · rw [hZero]
    rfl
  · have hHigh : hearRu (if 0 < triad / 100 then [ruHundreds.getD (triad / 100) ""] else []) said =
        some ⟨said.total, said.current + triad / 100 * 100⟩ := by
      split_ifs with hSome
      · rw [hearRu_single, numeralRu_hundreds _ hHundred hSome]
        rfl
      · rw [show triad / 100 = 0 by omega]
        rfl
    rw [hearRu_append, hHigh, Option.bind_some]
    split_ifs with hTens hUnits hLow
    · rw [hearRu, numeralRu_tens _ hTen hTens, Option.bind_some, hearRu_single, numeralRu_unit _ _ hUnit]
      simp only [Option.map_some, Said.hear_number, Option.some.injEq, Said.mk.injEq, true_and]
      omega
    · rw [hearRu_single, numeralRu_tens _ hTen hTens]
      simp only [Option.map_some, Said.hear_number, Option.some.injEq, Said.mk.injEq, true_and]
      omega
    · rw [hearRu_single, numeralRu_unit _ _ (show triad / 10 % 10 * 10 + triad % 10 < 20 by omega)]
      simp only [Option.map_some, Said.hear_number, Option.some.injEq, Said.mk.injEq, true_and]
      omega
    · simp only [hearRu, Option.some.injEq, Said.mk.injEq, true_and]
      omega

/-- The words of the lowest triad say it. -/
theorem hearRu_units {triad : Nat} (h : triad < 1000) (total : Nat) :
    hearRu (scaledRu triad 0) ⟨total, 0⟩ = some ⟨total, triad⟩ := by
  unfold scaledRu
  split_ifs with hZero
  · rw [hZero]
    rfl
  · omega
  · have hWords := hearRu_triadRu h false ⟨total, 0⟩
    simpa [ruScales] using hWords

/-- The words of a higher triad with its scale say the triad in its place. -/
theorem hearRu_scaled {triad i : Nat} (h : triad < 1000) (hAbove : 0 < i) (hPlace : i < triadCount)
    (total : Nat) : hearRu (scaledRu triad i) ⟨total, 0⟩ = some ⟨total + triad * 1000 ^ i, 0⟩ := by
  unfold scaledRu
  split_ifs with hZero
  · simp [hZero, hearRu]
  · have hForm : pluralIndex triad < 3 := by
      unfold pluralIndex
      split_ifs <;> decide
    dsimp only
    rw [hearRu_append, hearRu_triadRu h, Option.bind_some, hearRu_single,
      numeralRu_scale i hPlace hAbove _ hForm]
    simp

/-- The number whose triads these are. -/
def ofTriads : List Nat → Nat
  | [] => 0
  | triad :: higher => triad + 1000 * ofTriads higher

theorem ofTriads_splitTriads (count n : Nat) (h : n < 1000 ^ count) : ofTriads (splitTriads count n) = n := by
  induction count generalizing n with
  | zero => simp_all [splitTriads, ofTriads]
  | succ count ih =>
    have hHigher : n / 1000 < 1000 ^ count := by
      rw [Nat.pow_succ] at h
      omega
    simp only [splitTriads, ofTriads, ih _ hHigher]
    omega

theorem splitTriads_lt (count n : Nat) : ∀ triad ∈ splitTriads count n, triad < 1000 := by
  induction count generalizing n with
  | zero => simp [splitTriads]
  | succ count ih => exact List.forall_mem_cons.mpr ⟨Nat.mod_lt n (by decide), ih _⟩

@[simp] theorem splitTriads_length (count n : Nat) : (splitTriads count n).length = count := by
  induction count generalizing n with
  | zero => rfl
  | succ count ih => simp [splitTriads, ih]

/-- The words of all triads from place `i` on, the highest first, where the words of one are given. -/
def spellTriads (scaled : Nat → Nat → List String) : List Nat → Nat → List String
  | [], _ => []
  | triad :: higher, i => spellTriads scaled higher (i + 1) ++ scaled triad i

/-- A reader that hears the words of one triad in its place. -/
structure HearsTriads (hear : List String → Said → Option Said) (scaled : Nat → Nat → List String) : Prop where
  nil : ∀ said, hear [] said = some said
  append : ∀ xs ys said, hear (xs ++ ys) said = (hear xs said).bind (hear ys)
  units : ∀ triad < 1000, ∀ total, hear (scaled triad 0) ⟨total, 0⟩ = some ⟨total, triad⟩
  above : ∀ triad < 1000, ∀ i, 0 < i → i < triadCount → ∀ total,
    hear (scaled triad i) ⟨total, 0⟩ = some ⟨total + triad * 1000 ^ i, 0⟩

section Triads

variable {hear : List String → Said → Option Said} {scaled : Nat → Nat → List String}

/-- The words of the triads above the units say their number in their place. -/
theorem HearsTriads.higher (h : HearsTriads hear scaled) {triads : List Nat} (hTriads : ∀ triad ∈ triads, triad < 1000)
    {i : Nat} (hPlace : 0 < i) (hCount : i + triads.length ≤ triadCount) (total : Nat) :
    hear (spellTriads scaled triads i) ⟨total, 0⟩ = some ⟨total + ofTriads triads * 1000 ^ i, 0⟩ := by
  induction triads generalizing i total with
  | nil => simp [spellTriads, h.nil, ofTriads]
  | cons triad higher ih =>
    rw [List.forall_mem_cons] at hTriads
    rw [List.length_cons] at hCount
    have hPlaces : ofTriads (triad :: higher) * 1000 ^ i =
        ofTriads higher * 1000 ^ (i + 1) + triad * 1000 ^ i := by
      rw [ofTriads, Nat.pow_succ]
      ring
    rw [spellTriads, h.append, ih hTriads.2 (Nat.succ_pos i) (by omega), Option.bind_some,
      h.above triad hTriads.1 i hPlace (by omega), hPlaces, Nat.add_assoc]

/-- The words of a number say the number. -/
theorem HearsTriads.number (h : HearsTriads hear scaled) {n : Nat} (hn : n < 1000 ^ triadCount) :
    ∃ said, hear (spellTriads scaled (splitTriads triadCount n) 0) ⟨0, 0⟩ = some said ∧
      said.total + said.current = n := by
  have hSum := ofTriads_splitTriads triadCount n hn
  have hAll := splitTriads_lt triadCount n
  have hLength := splitTriads_length triadCount n
  cases hTriads : splitTriads triadCount n with
  | nil => rw [hTriads] at hLength; cases hLength
  | cons triad higher =>
    rw [hTriads] at hSum hAll hLength
    rw [List.forall_mem_cons] at hAll
    rw [List.length_cons] at hLength
    refine ⟨⟨ofTriads higher * 1000, triad⟩, ?_, ?_⟩
    · rw [spellTriads, h.append, h.higher hAll.2 Nat.one_pos (by omega), Option.bind_some, h.units triad hAll.1]
      simp
    · rw [← hSum, ofTriads]
      dsimp only
      omega

end Triads

theorem triadsRu_eq (triads : List Nat) (i : Nat) : triadsRu triads i = spellTriads scaledRu triads i := by
  induction triads generalizing i with
  | nil => rfl
  | cons triad higher ih => rw [triadsRu, spellTriads, ih]

theorem hearsTriadsRu : HearsTriads hearRu scaledRu where
  nil _ := rfl
  append := hearRu_append
  units _ h total := hearRu_units h total
  above _ h _ hAbove hPlace total := hearRu_scaled h hAbove hPlace total

/-- The words of a number say the number. -/
theorem hearRu_triadsRu {n : Nat} (h : n < 1000 ^ triadCount) :
    ∃ said, hearRu (triadsRu (splitTriads triadCount n) 0) ⟨0, 0⟩ = some said ∧ said.total + said.current = n := by
  rw [triadsRu_eq]
  exact hearsTriadsRu.number h

/-- A word that means something is in the vocabulary. -/
theorem numeralRu_mem {word : String} {numeral : Numeral} (h : numeralRu word = some numeral) :
    ∃ entry ∈ vocabularyRu, entry.1 = word := by
  obtain ⟨entry, hFind, -⟩ := Option.map_eq_some_iff.mp h
  exact ⟨entry, List.mem_of_find?_eq_some hFind, by simpa using List.find?_some hFind⟩

theorem vocabularyRu_spelling : ∀ entry ∈ vocabularyRu,
    ' ' ∉ entry.1.toList ∧ ∃ c ∈ entry.1.toList.head?, 'а' ≤ c ∧ c ≤ 'я' := by
  have hAll : ∀ entry ∈ vocabularyRu,
      ' ' ∉ entry.1.toList ∧ entry.1.toList.head?.any (fun c => 'а' ≤ c ∧ c ≤ 'я') = true := by
    decide +kernel
  intro entry hEntry
  obtain ⟨hBlank, hFirst⟩ := hAll entry hEntry
  obtain ⟨c, hSome, hLetter⟩ := (Option.any_eq_true _ _).mp hFirst
  exact ⟨hBlank, c, hSome, of_decide_eq_true hLetter⟩

/-- Each word that is read is in the vocabulary. -/
theorem hearRu_mem {words : List String} {said result : Said} (h : hearRu words said = some result) :
    ∀ word ∈ words, ∃ entry ∈ vocabularyRu, entry.1 = word := by
  induction words generalizing said with
  | nil => exact fun _ hMem => absurd hMem List.not_mem_nil
  | cons word rest ih =>
    obtain ⟨numeral, hWord, hRest⟩ := Option.bind_eq_some_iff.mp h
    exact List.forall_mem_cons.mpr ⟨numeralRu_mem hWord, ih hRest⟩

theorem smallLetter_capitalLetter {c : Char} (hLow : 'а' ≤ c) (hHigh : c ≤ 'я') :
    smallLetter (capitalLetter c) = c := by
  have hCheck : ∀ n < 32, smallLetter (capitalLetter (Char.ofNat (1072 + n))) = Char.ofNat (1072 + n) := by
    decide +kernel
  have hLowNat : 1072 ≤ c.toNat := hLow
  have hHighNat : c.toNat ≤ 1103 := hHigh
  have hAt := hCheck (c.toNat - 1072) (by omega)
  rwa [Nat.add_sub_cancel' hLowNat, Char.ofNat_toNat] at hAt

theorem intercalate_concat {α : Type} (sep : α) {parts : List (List α)} (last : List α) (h : parts ≠ []) :
    [sep].intercalate (parts ++ [last]) = [sep].intercalate parts ++ sep :: last := by
  induction parts with
  | nil => exact absurd rfl h
  | cons first rest ih =>
    cases rest with
    | nil => simp [List.intercalate_cons_cons]
    | cons second rest =>
      simp only [List.cons_append, List.intercalate_cons_cons] at ih ⊢
      rw [ih (List.cons_ne_nil _ _)]
      simp

/-- The printed text is the words, the currency, the digits and the unit with blanks between them. -/
theorem spelled_eq {words : List String} (h : words ≠ []) (frac : Nat) (unit : String) :
    joinWords words ++ tiynTail frac unit =
      [' '].intercalate (words.map String.toList ++ [twoDigits frac, unit.toList]) := by
  have hSome : words.map String.toList ≠ [] := by simpa using h
  rw [List.append_cons _ (twoDigits frac), intercalate_concat ' ' _ (by simp),
    intercalate_concat ' ' _ hSome]
  simp [joinWords, tiynTail]

/-- Replaces the first letter. -/
def mapHead (small : Char → Char) : List Char → List Char
  | c :: rest => small c :: rest
  | [] => []

/-- The amount in tiyn that a text says: words for the tenge, the currency, two digits, `тиын`. -/
def readSpelled (small : Char → Char) (sayTenge : List String → Option Nat) (currency text : String) : Option Nat :=
  match ((mapHead small text.toList).splitOn ' ').reverse with
  | unit :: frac :: last :: words => do
    let tenge ← sayTenge (words.reverse.map String.ofList)
    let tiyn ← readDigits frac
    if unit = "тиын".toList ∧ last = currency.toList ∧ frac.length = 2 then some (tenge * 100 + tiyn) else none
  | _ => none

/-- A word that can be printed: without blanks, and its first letter comes back from its capital. -/
structure Printable (small : Char → Char) (word : String) : Prop where
  noBlank : ' ' ∉ word.toList
  start : ∃ c rest, word.toList = c :: rest ∧ small (capitalLetter c) = c

/-- The words of a printed text are the words that were printed, the digits and the unit. -/
theorem splitOn_spelled {small : Char → Char} {words : List String} {frac : Nat} {unit : String} (h : words ≠ [])
    (hWords : ∀ word ∈ words, Printable small word) (hFrac : frac < 100) (hUnit : ' ' ∉ unit.toList) :
    (mapHead small (capitalizeCyrillic (joinWords words) ++ tiynTail frac unit)).splitOn ' ' =
      words.map String.toList ++ [twoDigits frac, unit.toList] := by
  obtain ⟨first, rest, rfl⟩ := List.exists_cons_of_ne_nil h
  obtain ⟨c, letters, hLetters, hSmall⟩ := (hWords first List.mem_cons_self).start
  have hStart : ∃ more, joinWords (first :: rest) = c :: more := by
    cases rest with
    | nil => exact ⟨letters, by simp [joinWords, List.intercalate, hLetters]⟩
    | cons second rest => exact ⟨_, by simp [joinWords, List.intercalate_cons_cons, hLetters]; rfl⟩
  obtain ⟨more, hMore⟩ := hStart
  have hText : mapHead small (capitalizeCyrillic (joinWords (first :: rest)) ++ tiynTail frac unit) =
      [' '].intercalate ((first :: rest).map String.toList ++ [twoDigits frac, unit.toList]) := by
    rw [← spelled_eq h, hMore]
    simp only [capitalizeCyrillic, List.cons_append, mapHead, hSmall]
  rw [hText]
  refine List.splitOn_intercalate ' ' (fun part hPart => ?_) (by simp)
  rcases List.mem_append.mp hPart with hLetters | hTail
  · obtain ⟨word, hWord, rfl⟩ := List.mem_map.mp hLetters
    exact (hWords word hWord).noBlank
  · simp only [List.mem_cons, List.not_mem_nil, or_false] at hTail
    rcases hTail with rfl | rfl
    · exact fun hBlank => isDigit_ne ' ' (List.all_eq_true.mp (twoDigits_isDigit hFrac) _ hBlank) rfl rfl
    · exact hUnit

/-- What the words say is what the printed text says. -/
theorem readSpelled_spelled {small : Char → Char} {sayTenge : List String → Option Nat} {currency : String}
    {words : List String} {tenge frac : Nat} (hWords : ∀ word ∈ words ++ [currency], Printable small word)
    (hSaid : sayTenge words = some tenge) (hFrac : frac < 100) :
    readSpelled small sayTenge currency (String.ofList (capitalizeCyrillic (joinWords (words ++ [currency])) ++
      tiynTail frac "тиын")) = some (tenge * 100 + frac) := by
  have hReversed : ((words ++ [currency]).map String.toList ++ [twoDigits frac, "тиын".toList]).reverse =
      "тиын".toList :: twoDigits frac :: currency.toList :: (words.map String.toList).reverse := by simp
  have hBack : (words.map String.toList).reverse.reverse.map String.ofList = words := by simp
  unfold readSpelled
  rw [String.toList_ofList, splitOn_spelled (by simp) hWords hFrac (by decide +kernel), hReversed]
  simp only [hBack, hSaid, readDigits_twoDigits hFrac, Option.bind_eq_bind, Option.bind_some]
  exact if_pos (by simp [twoDigits])

theorem readWordsRu_eq (text : String) : readWordsRu text =
    readSpelled smallLetter (fun words => (hearRu words ⟨0, 0⟩).map fun said => said.total + said.current) "тенге"
      text := by
  have hHead : uncapitalize text.toList = mapHead smallLetter text.toList := by cases text.toList <;> rfl
  unfold readWordsRu readSpelled
  rw [hHead]
  split
  · rename_i words _
    simp only [Option.bind_eq_bind]
    cases hearRu (words.reverse.map String.ofList) ⟨0, 0⟩ <;> rfl
  · rfl

theorem vocabularyRu_printable : ∀ entry ∈ vocabularyRu, Printable smallLetter entry.1 := by
  intro entry hEntry
  obtain ⟨hBlank, c, hHead, hLow, hHigh⟩ := vocabularyRu_spelling entry hEntry
  obtain ⟨rest, hLetters⟩ := List.head?_eq_some_iff.mp hHead
  exact ⟨hBlank, c, rest, hLetters, smallLetter_capitalLetter hLow hHigh⟩

theorem tenge_printable : Printable smallLetter "тенге" :=
  ⟨by decide +kernel, 'т', "енге".toList, rfl, smallLetter_capitalLetter (by decide) (by decide)⟩

/-- Words that are heard can be printed, with the currency after them. -/
theorem hearRu_printable {words : List String} {said result : Said} (h : hearRu words said = some result) :
    ∀ word ∈ words ++ ["тенге"], Printable smallLetter word := by
  intro word hWord
  rcases List.mem_append.mp hWord with hSpoken | hCurrency
  · obtain ⟨entry, hEntry, rfl⟩ := hearRu_mem h word hSpoken
    exact vocabularyRu_printable entry hEntry
  · rw [List.mem_singleton.mp hCurrency]
    exact tenge_printable

/-- What the words of the vocabulary say is what the printed text says. -/
theorem readWordsRu_spelled {words : List String} {said : Said} {frac : Nat}
    (hSaid : hearRu words ⟨0, 0⟩ = some said) (hFrac : frac < 100) :
    readWordsRu (String.ofList (capitalizeCyrillic (joinWords (words ++ ["тенге"])) ++
      tiynTail frac "тиын")) = some ((said.total + said.current) * 100 + frac) := by
  rw [readWordsRu_eq]
  exact readSpelled_spelled (hearRu_printable hSaid) (by rw [hSaid]; rfl) hFrac

theorem hearRu_zero : hearRu ["ноль"] ⟨0, 0⟩ = some ⟨0, 0⟩ := by
  rw [hearRu_single, show numeralRu "ноль" = some (.number 0) by decide +kernel]
  rfl

/-- What is spelled out has at most five triads of tenge. -/
theorem tenge_fits {n : Nat} (h : ¬maxTiyn < (n : Int)) : n / 100 < 1000 ^ triadCount := by
  have hLe : (n : Int) ≤ 100000000000000 := by simpa [maxTiyn] using h
  have hPow : 1000 ^ triadCount = 1000000000000000 := rfl
  omega

/-- The words that are printed say the amount. -/
theorem readWordsRu_toWordsRu {tiyn : Int} {text : String} (h : toWordsRu tiyn = .ok text) :
    0 ≤ tiyn ∧ readWordsRu text = some tiyn.toNat := by
  unfold toWordsRu at h
  split_ifs at h with hSign hMax
  obtain ⟨n, rfl⟩ := Int.eq_ofNat_of_zero_le (show 0 ≤ tiyn by omega)
  rw [Int.toNat_natCast] at h ⊢
  have hFits := tenge_fits hMax
  have hFrac : n % 100 < 100 := Nat.mod_lt n (by decide)
  obtain ⟨said, hSaid, hSum⟩ := hearRu_triadsRu hFits
  refine ⟨by omega, ?_⟩
  rw [← Except.ok.inj h]
  by_cases hNone : triadsRu (splitTriads triadCount (n / 100)) 0 = []
  · rw [hNone] at hSaid
    obtain rfl : ⟨0, 0⟩ = said := Option.some.inj hSaid
    rw [if_pos hNone, readWordsRu_spelled hearRu_zero hFrac]
    exact congrArg some (by dsimp only at hSum ⊢; omega)
  · rw [if_neg hNone, readWordsRu_spelled hSaid hFrac]
    exact congrArg some (by omega)

end CyberAccountant.Money
