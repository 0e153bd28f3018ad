import CyberAccountant.Money.AmountInWords

/-! Amounts of money in Kazakh words.  A scale word never changes; "one" is left out before `жүз` and `мың`. -/

namespace CyberAccountant.Money

def kkUnits : List String := ["", "бір", "екі", "үш", "төрт", "бес", "алты", "жеті", "сегіз", "тоғыз"]

def kkTens : List String :=
  ["", "он", "жиырма", "отыз", "қырық", "елу", "алпыс", "жетпіс", "сексен", "тоқсан"]

/-- The word of a scale, and whether "one" is left out before it. -/
structure KkScale where
  word : String
  dropOne : Bool

def kkScales : List KkScale :=
  [⟨"", false⟩, ⟨"мың", true⟩, ⟨"миллион", false⟩, ⟨"миллиард", false⟩, ⟨"триллион", false⟩]

/-- The words of a triad. -/
def triadKk (triad : Nat) (dropLeadingOne : Bool) : List String :=
  if triad = 0 then []
  else
    let h := triad / 100
    let t := triad / 10 % 10
    let u := triad % 10
    (if 0 < h then (if 1 < h then [kkUnits.getD h ""] else []) ++ ["жүз"] else []) ++
      (if 0 < t then [kkTens.getD t ""] else []) ++
      if 0 < u then
        if (h = 0 ∧ t = 0) ∧ u = 1 ∧ dropLeadingOne then [] else [kkUnits.getD u ""]
      else []

/-- The words of the triad at place `i`, with the word of its scale. -/
def scaledKk (triad i : Nat) : List String :=
  if triad = 0 then []
  else
    let scale := kkScales.getD i ⟨"", false⟩
    triadKk triad scale.dropOne ++ if 0 < i then [scale.word] else []

def triadsKk : List Nat → Nat → List String := spellTriads scaledKk

def toWordsKk (tiyn : Int) : Except WordsFault String :=
  if tiyn < 0 then .error .invalidArgument
  else if maxTiyn < tiyn then .error .outOfRange
  else
    let words := triadsKk (splitTriads triadCount (tiyn.toNat / 100)) 0
    let words := (if words = [] then ["нөл"] else words) ++ ["теңге"]
    .ok (String.ofList (capitalizeCyrillic (joinWords words) ++ tiynTail (tiyn.toNat % 100) "тиын"))

example : toWordsKk 25057500 = .ok "Екі жүз елу мың бес жүз жетпіс бес теңге 00 тиын" := by decide +kernel

/-! ### Reading the words -/

/-- What a Kazakh word of a numeral means. -/
inductive KkNumeral where
  | number (n : Nat)
  /-- `жүз` multiplies the unit before it, or stands alone for a hundred. -/
  | hundred
  /-- Multiplies what has been said of the triad, or stands alone for one of its kind. -/
  | scale (i : Nat)
  deriving DecidableEq

def vocabularyKk : List (String × KkNumeral) :=
  [("бір", .number 1), ("екі", .number 2), ("үш", .number 3), ("төрт", .number 4), ("бес", .number 5),
    ("алты", .number 6), ("жеті", .number 7), ("сегіз", .number 8), ("тоғыз", .number 9), ("он", .number 10),
    ("жиырма", .number 20), ("отыз", .number 30), ("қырық", .number 40), ("елу", .number 50),
    ("алпыс", .number 60), ("жетпіс", .number 70), ("сексен", .number 80), ("тоқсан", .number 90),
    ("жүз", .hundred), ("мың", .scale 1), ("миллион", .scale 2), ("миллиард", .scale 3), ("триллион", .scale 4),
    ("нөл", .number 0)]

def numeralKk (word : String) : Option KkNumeral :=
  (vocabularyKk.find? fun entry => entry.1 = word).map Prod.snd

/-- What multiplies a word that may stand alone. -/
def orOne (n : Nat) : Nat := if n = 0 then 1 else n

def Said.hearKk (said : Said) : KkNumeral → Said
  | .number n => ⟨said.total, said.current + n⟩
  | .hundred => ⟨said.total, orOne said.current * 100⟩
  | .scale i => ⟨said.total + orOne said.current * 1000 ^ i, 0⟩

/-- Reads the words one after another. -/
def hearKk : List String → Said → Option Said
  | [], said => some said
  | word :: rest, said => (numeralKk word).bind fun numeral => hearKk rest (said.hearKk numeral)

/-- The small letter of a Russian or Kazakh capital. -/
def smallLetterKk (c : Char) : Char :=
  if 'А' ≤ c ∧ c ≤ 'Я' then Char.ofNat (c.toNat + 32)
  else ((extraCyrillicCasePairs.find? fun pair => pair.2 = c).map Prod.fst).getD c

/-- The amount in tiyn that a Kazakh text says. -/
def readWordsKk (text : String) : Option Nat :=
  readSpelled smallLetterKk (fun words => (hearKk words ⟨0, 0⟩).map fun said => said.total + said.current) "теңге" text

theorem hearKk_append (xs ys : List String) (said : Said) :
    hearKk (xs ++ ys) said = (hearKk xs said).bind (hearKk ys) := by
  induction xs generalizing said with
  | nil => rfl
  | cons word rest ih =>
    simp only [List.cons_append, hearKk]
    cases numeralKk word with
    | none => rfl
    | some numeral => exact ih _

@[simp] theorem hearKk_nil (said : Said) : hearKk [] said = some said := rfl

theorem hearKk_cons {word : String} {numeral : KkNumeral} (h : numeralKk word = some numeral) (rest : List String)
    (said : Said) : hearKk (word :: rest) said = hearKk rest (said.hearKk numeral) := by
  rw [hearKk, h, Option.bind_some]

theorem numeralKk_unit : ∀ u < 10, 0 < u → numeralKk (kkUnits.getD u "") = some (.number u) := by
  decide +kernel

theorem numeralKk_tens : ∀ t < 10, 0 < t → numeralKk (kkTens.getD t "") = some (.number (t * 10)) := by
  decide +kernel

theorem numeralKk_hundred : numeralKk "жүз" = some .hundred := by decide +kernel

theorem numeralKk_scale : ∀ i < 5, 0 < i → numeralKk (kkScales.getD i ⟨"", false⟩).word = some (.scale i) := by
  decide +kernel

/-- The hundreds of a triad, said first. -/
theorem hearKk_hundreds {h : Nat} (hDigit : h < 10) (total : Nat) :
    hearKk (if 0 < h then (if 1 < h then [kkUnits.getD h ""] else []) ++ ["жүз"] else []) ⟨total, 0⟩ =
      some ⟨total, h * 100⟩ := by
  split_ifs with hSome hMany
  · rw [List.singleton_append, hearKk_cons (numeralKk_unit h hDigit hSome), hearKk_cons numeralKk_hundred]
    simp [Said.hearKk, orOne, hSome.ne']
  · rw [List.nil_append, hearKk_cons numeralKk_hundred]
    simp [Said.hearKk, orOne, show h = 1 by omega]
  · rw [show h = 0 by omega]
    rfl

theorem hearKk_tens {t : Nat} (hDigit : t < 10) (said : Said) :
    hearKk (if 0 < t then [kkTens.getD t ""] else []) said = some ⟨said.total, said.current + t * 10⟩ := by
  split_ifs with hSome
  · rw [hearKk_cons (numeralKk_tens t hDigit hSome)]
    rfl
  · rw [show t = 0 by omega]
    rfl

/-- The words of a triad say the triad, or nothing where they are one "one" that is left out. -/
theorem hearKk_triadKk {triad : Nat} (h : triad < 1000) (drop : Bool) (total : Nat) :
    hearKk (triadKk triad drop) ⟨total, 0⟩ = some ⟨total, if triad = 1 ∧ drop = true then 0 else triad⟩ := by
  have hHundred : triad / 100 < 10 := by omega
  have hTen : triad / 10 % 10 < 10 := by omega
  have hUnit : triad % 10 < 10 := by omega
  have hSum : triad = triad / 100 * 100 + triad / 10 % 10 * 10 + triad % 10 := by omega
  unfold triadKk
  by_cases hZero : triad = 0
  · simp [hZero]
  · rw [if_neg hZero]
    dsimp only
    rw [hearKk_append, hearKk_append, hearKk_hundreds hHundred, Option.bind_some, hearKk_tens hTen, Option.bind_some]
    by_cases hDropped : triad = 1 ∧ drop = true
    · obtain ⟨rfl, rfl⟩ := hDropped
      rfl
    · have hKept : ¬((triad / 100 = 0 ∧ triad / 10 % 10 = 0) ∧ triad % 10 = 1 ∧ drop = true) := by
        rintro ⟨⟨hNoHundred, hNoTen⟩, hOne, hDrop⟩
        exact hDropped ⟨by omega, hDrop⟩
      rw [if_neg hDropped, if_neg hKept]
      split_ifs with hSome
      · rw [hearKk_cons (numeralKk_unit _ hUnit hSome)]
        simp only [Said.hearKk, hearKk_nil, Option.some.injEq, Said.mk.injEq, true_and]
        omega
      · simp only [hearKk_nil, Option.some.injEq, Said.mk.injEq, true_and]
        omega

/-- A triad above the units says itself in its place, also where its "one" is left out. -/
theorem hearKk_scaled {triad i : Nat} (h : triad < 1000) (hAbove : 0 < i) (hPlace : i < triadCount) (total : Nat) :
    hearKk (scaledKk triad i) ⟨total, 0⟩ = some ⟨total + triad * 1000 ^ i, 0⟩ := by
  unfold scaledKk
  by_cases hZero : triad = 0
  · simp [hZero]
  · rw [if_neg hZero]
    dsimp only
    rw [if_pos hAbove, hearKk_append, hearKk_triadKk h, Option.bind_some, hearKk_cons (numeralKk_scale i hPlace hAbove)]
    simp only [Said.hearKk, hearKk_nil, Option.some.injEq, Said.mk.injEq, and_true]
    split_ifs with hOne
    · rw [hOne.1]
      rfl
    · simp [orOne, hZero]

theorem hearKk_units {triad : Nat} (h : triad < 1000) (total : Nat) :
    hearKk (scaledKk triad 0) ⟨total, 0⟩ = some ⟨total, triad⟩ := by
  unfold scaledKk
  by_cases hZero : triad = 0
  · simp [hZero]
  · have hWords := hearKk_triadKk h false total
    rw [if_neg hZero]
    simpa [kkScales] using hWords

theorem hearsTriadsKk : HearsTriads hearKk scaledKk where
  nil _ := rfl
  append := hearKk_append
  units _ h total := hearKk_units h total
  above _ h _ hAbove hPlace total := hearKk_scaled h hAbove hPlace total

/-- A word that means something is in the vocabulary. -/
theorem hearKk_mem {words : List String} {said result : Said} (h : hearKk words said = some result) :
    ∀ word ∈ words, ∃ entry ∈ vocabularyKk, entry.1 = word := by
  induction words generalizing said with
  | nil => exact fun _ hMem => absurd hMem List.not_mem_nil
  | cons word rest ih =>
    obtain ⟨numeral, hWord, hRest⟩ := Option.bind_eq_some_iff.mp h
    obtain ⟨entry, hFind, -⟩ := Option.map_eq_some_iff.mp hWord
    refine List.forall_mem_cons.mpr ⟨⟨entry, List.mem_of_find?_eq_some hFind, ?_⟩, ih hRest⟩
    simpa using List.find?_some hFind

theorem kk_printable : ∀ word ∈ "теңге" :: vocabularyKk.map Prod.fst, Printable smallLetterKk word := by
  have hAll : ∀ word ∈ "теңге" :: vocabularyKk.map Prod.fst,
      ' ' ∉ word.toList ∧ word.toList.head?.any (fun c => smallLetterKk (capitalLetter c) = c) = true := by
    decide +kernel
  intro word hWord
  obtain ⟨hBlank, hStart⟩ := hAll word hWord
  obtain ⟨c, hHead, hSmall⟩ := (Option.any_eq_true _ _).mp hStart
  obtain ⟨rest, hLetters⟩ := List.head?_eq_some_iff.mp hHead
  exact ⟨hBlank, c, rest, hLetters, of_decide_eq_true hSmall⟩

/-- What the words of the vocabulary say is what the printed text says. -/
theorem readWordsKk_spelled {words : List String} {said : Said} {frac : Nat} (hSaid : hearKk words ⟨0, 0⟩ = some said)
    (hFrac : frac < 100) : readWordsKk (String.ofList (capitalizeCyrillic (joinWords (words ++ ["теңге"])) ++
      tiynTail frac "тиын")) = some ((said.total + said.current) * 100 + frac) := by
  have hWords : ∀ word ∈ words ++ ["теңге"], Printable smallLetterKk word := by
    intro word hWord
    refine kk_printable word ?_
    rcases List.mem_append.mp hWord with hSpoken | hCurrency
    · obtain ⟨entry, hEntry, rfl⟩ := hearKk_mem hSaid word hSpoken
      exact List.mem_cons_of_mem _ (List.mem_map_of_mem hEntry)
    · rw [List.mem_singleton.mp hCurrency]
      exact List.mem_cons_self
  exact readSpelled_spelled hWords (by rw [hSaid]; rfl) hFrac

/-- The words that are printed say the amount. -/
theorem readWordsKk_toWordsKk {tiyn : Int} {text : String} (h : toWordsKk tiyn = .ok text) :
    0 ≤ tiyn ∧ readWordsKk text = some tiyn.toNat := by
  unfold toWordsKk at h
  split_ifs at h with hSign hMax
  obtain ⟨n, rfl⟩ := Int.eq_ofNat_of_zero_le (show 0 ≤ tiyn by omega)
  rw [Int.toNat_natCast] at h ⊢
  have hFits := tenge_fits hMax
  have hFrac : n % 100 < 100 := Nat.mod_lt n (by decide)
  have hHeard : ∃ said, hearKk (triadsKk (splitTriads triadCount (n / 100)) 0) ⟨0, 0⟩ = some said ∧
      said.total + said.current = n / 100 := hearsTriadsKk.number hFits
  obtain ⟨said, hSaid, hSum⟩ := hHeard
  refine ⟨by omega, ?_⟩
  rw [← Except.ok.inj h]
  by_cases hNone : triadsKk (splitTriads triadCount (n / 100)) 0 = []
  · have hZero : hearKk ["нөл"] ⟨0, 0⟩ = some ⟨0, 0⟩ := by
      rw [hearKk_cons (show numeralKk "нөл" = some (.number 0) by decide +kernel)]
      rfl
    rw [hNone] at hSaid
    obtain rfl : ⟨0, 0⟩ = said := Option.some.inj hSaid
    rw [if_pos hNone, readWordsKk_spelled hZero hFrac]
    exact congrArg some (by dsimp only at hSum ⊢; omega)
  · rw [if_neg hNone, readWordsKk_spelled hSaid hFrac]
    exact congrArg some (by omega)

end CyberAccountant.Money
