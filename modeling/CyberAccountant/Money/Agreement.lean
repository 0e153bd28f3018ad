import CyberAccountant.Money.AmountInWordsKk

/-! What the words of an amount determine, and how the Russian words agree with their numbers. -/

namespace CyberAccountant.Money

/-! ### Numbers and nouns -/

/-- The form in which a noun stands after a number. -/
inductive PluralForm where
  | one
  | few
  | many
  deriving DecidableEq

/-- After 1, after 2 to 4, and after 5 to 20, with 11 to 14 among them; above twenty the last digit decides. -/
def requiredForm (n : Nat) : PluralForm :=
  if 5 ≤ n % 100 ∧ n % 100 ≤ 20 then .many
  else if n % 10 = 1 then .one
  else if 2 ≤ n % 10 ∧ n % 10 ≤ 4 then .few
  else .many

/-- The form after the last word of a numeral. -/
def formAfter (word : String) : PluralForm :=
  if word = "один" ∨ word = "одна" then .one
  else if word = "два" ∨ word = "две" ∨ word = "три" ∨ word = "четыре" then .few
  else .many

inductive Gender where
  | masculine
  | feminine
  deriving DecidableEq

/-- The gender that a word of a numeral shows, if it shows one. -/
def genderOf (word : String) : Option Gender :=
  if word = "один" ∨ word = "два" then some .masculine
  else if word = "одна" ∨ word = "две" then some .feminine
  else none

/-- A noun that is counted. -/
structure Noun where
  gender : Gender
  form : PluralForm → String

/-- What the triad at a place counts.  The tenge are not declined. -/
def nounAt : Nat → Noun
  | 0 => ⟨.masculine, fun _ => "тенге"⟩
  | 1 => ⟨.feminine, fun | .one => "тысяча" | .few => "тысячи" | .many => "тысяч"⟩
  | 2 => ⟨.masculine, fun | .one => "миллион" | .few => "миллиона" | .many => "миллионов"⟩
  | 3 => ⟨.masculine, fun | .one => "миллиард" | .few => "миллиарда" | .many => "миллиардов"⟩
  | _ => ⟨.masculine, fun | .one => "триллион" | .few => "триллиона" | .many => "триллионов"⟩

/-- A triad that is not zero, as it is spoken. -/
structure SpokenTriad where
  place : Nat
  triad : Nat
  numerals : List String

/-- The numeral, and above the units the noun that it counts. -/
def SpokenTriad.words (g : SpokenTriad) : List String :=
  g.numerals ++ if 0 < g.place then [(nounAt g.place).form (requiredForm g.triad)] else []

/-- The numeral says its triad in the gender of the noun, and its last word asks for the form that the number
asks for. -/
structure SpokenTriad.Agrees (g : SpokenTriad) : Prop where
  range : (0 < g.triad ∧ g.triad < 1000) ∧ g.place < triadCount
  spoken : hearRu g.numerals ⟨0, 0⟩ = some ⟨0, g.triad⟩
  gender : ∀ word ∈ g.numerals, ∀ gender, genderOf word = some gender → gender = (nounAt g.place).gender
  form : ∃ last, g.numerals.getLast? = some last ∧ formAfter last = requiredForm g.triad

/-! ### The words of a triad agree -/

def PluralForm.index : PluralForm → Nat
  | one => 0
  | few => 1
  | many => 2

theorem pluralIndex_eq (n : Nat) : pluralIndex n = (requiredForm n).index := by
  unfold pluralIndex requiredForm
  split_ifs <;> first | rfl | omega

theorem scale_form : ∀ i < 5, 0 < i → ∀ form : PluralForm,
    (ruScales.getD i ⟨[], false⟩).forms.getD form.index "" = (nounAt i).form form := by
  intro i hPlace hAbove form
  obtain rfl | rfl | rfl | rfl : i = 1 ∨ i = 2 ∨ i = 3 ∨ i = 4 := by omega
  · cases form <;> rfl
  · cases form <;> rfl
  · cases form <;> rfl
  · cases form <;> rfl

theorem scale_gender : ∀ i < 5,
    (nounAt i).gender = if (ruScales.getD i ⟨[], false⟩).feminine then .feminine else .masculine := by
  decide

theorem ruUnit_gender : ∀ feminine, ∀ n < 20, ∀ gender, genderOf (ruUnit n feminine) = some gender →
    gender = if feminine then .feminine else .masculine := by
  have hAll : ∀ feminine, ∀ n < 20, (genderOf (ruUnit n feminine)).all
      (fun gender => gender = if feminine then .feminine else .masculine) = true := by decide +kernel
  intro feminine n hn gender hGender
  have hUnit := hAll feminine n hn
  rw [hGender] at hUnit
  exact of_decide_eq_true hUnit

theorem ruHundreds_plain : ∀ h < 10,
    genderOf (ruHundreds.getD h "") = none ∧ formAfter (ruHundreds.getD h "") = .many := by
  decide +kernel

theorem ruTens_plain : ∀ t < 10, genderOf (ruTens.getD t "") = none ∧ formAfter (ruTens.getD t "") = .many := by
  decide +kernel

theorem ruUnit_form : ∀ feminine, ∀ n < 20, 0 < n → formAfter (ruUnit n feminine) = requiredForm n := by
  decide +kernel

/-- The words of a triad: hundreds, tens and a number below twenty. -/
theorem mem_triadRu {triad : Nat} {feminine : Bool} {word : String} (h : word ∈ triadRu triad feminine) :
    word = ruHundreds.getD (triad / 100) "" ∨ word = ruTens.getD (triad / 10 % 10) "" ∨
      ∃ n < 20, word = ruUnit n feminine := by
  unfold triadRu at h
  split at h
  · cases h
  · dsimp only at h
    rcases List.mem_append.mp h with hHigh | hLow
    · split at hHigh
      · exact .inl (List.mem_singleton.mp hHigh)
      · cases hHigh
    · split at hLow
      · rcases List.mem_cons.mp hLow with hTens | hUnit
        · exact .inr (.inl hTens)
        · split at hUnit
          · exact .inr (.inr ⟨triad % 10, by omega, List.mem_singleton.mp hUnit⟩)
          · cases hUnit
      · rename_i hTeen
        split at hLow
        · exact .inr (.inr ⟨triad / 10 % 10 * 10 + triad % 10, by omega, List.mem_singleton.mp hLow⟩)
        · cases hLow

/-- Of the words of a triad only those below twenty show a gender, and it is the one that is asked for. -/
theorem triadRu_gender {triad : Nat} (h : triad < 1000) (feminine : Bool) : ∀ word ∈ triadRu triad feminine,
    ∀ gender, genderOf word = some gender → gender = if feminine then .feminine else .masculine := by
  intro word hWord gender hGender
  rcases mem_triadRu hWord with rfl | rfl | ⟨n, hn, rfl⟩
  · rw [(ruHundreds_plain (triad / 100) (by omega)).1] at hGender
    cases hGender
  · rw [(ruTens_plain (triad / 10 % 10) (by omega)).1] at hGender
    cases hGender
  · exact ruUnit_gender feminine n hn gender hGender

/-- Hundreds and whole tens ask for the last form. -/
theorem requiredForm_tens {n : Nat} (h : n % 10 = 0) : requiredForm n = .many := by
  unfold requiredForm
  split_ifs <;> first | rfl | omega

/-- From twenty on the last digit decides, below it the number itself. -/
theorem requiredForm_congr {n m : Nat} (hm : m < 20) (h : n % 100 = m ∨ 20 ≤ n % 100 ∧ n % 10 = m) :
    requiredForm n = requiredForm m := by
  unfold requiredForm
  split_ifs <;> first | rfl | omega

/-- The last word of a triad asks for the form that the triad asks for. -/
theorem triadRu_last {triad : Nat} (h : triad < 1000) (hPos : 0 < triad) (feminine : Bool) :
    ∃ last, (triadRu triad feminine).getLast? = some last ∧ formAfter last = requiredForm triad := by
  have hHundred := (ruHundreds_plain (triad / 100) (by omega)).2
  have hTen := (ruTens_plain (triad / 10 % 10) (by omega)).2
  unfold triadRu
  rw [if_neg hPos.ne']
  dsimp only
  by_cases hTens : 2 ≤ triad / 10 % 10
  · rw [if_pos hTens]
    by_cases hUnit : 0 < triad % 10
    · have hSame : requiredForm triad = requiredForm (triad % 10) :=
        requiredForm_congr (by omega) (.inr ⟨by omega, rfl⟩)
      rw [if_pos hUnit]
      exact ⟨ruUnit (triad % 10) feminine, by simp, by rw [ruUnit_form feminine _ (by omega) hUnit, hSame]⟩
    · rw [if_neg hUnit]
      exact ⟨_, List.getLast?_concat, by rw [hTen, requiredForm_tens (by omega)]⟩
  · rw [if_neg hTens]
    by_cases hUnit : 0 < triad / 10 % 10 * 10 + triad % 10
    · have hSame : requiredForm triad = requiredForm (triad / 10 % 10 * 10 + triad % 10) :=
        requiredForm_congr (by omega) (.inl (by omega))
      rw [if_pos hUnit]
      exact ⟨ruUnit (triad / 10 % 10 * 10 + triad % 10) feminine, List.getLast?_concat,
        by rw [ruUnit_form feminine _ (by omega) hUnit, hSame]⟩
    · rw [if_neg hUnit, if_pos (show 0 < triad / 100 by omega), List.append_nil]
      exact ⟨ruHundreds.getD (triad / 100) "", rfl, by rw [hHundred, requiredForm_tens (by omega)]⟩

/-! ### The words of an amount -/

/-- The triads that are spoken, the highest first. -/
def spokenTriads : List Nat → Nat → List SpokenTriad
  | [], _ => []
  | triad :: higher, i => spokenTriads higher (i + 1) ++
      if triad = 0 then [] else [⟨i, triad, triadRu triad (ruScales.getD i ⟨[], false⟩).feminine⟩]

theorem spokenTriads_words {triads : List Nat} {i : Nat} (h : i + triads.length ≤ triadCount) :
    (spokenTriads triads i).flatMap SpokenTriad.words = triadsRu triads i := by
  induction triads generalizing i with
  | nil => rfl
  | cons triad higher ih =>
    rw [List.length_cons] at h
    rw [spokenTriads, triadsRu, List.flatMap_append, ih (by omega)]
    congr 1
    unfold scaledRu
    split_ifs with hZero hPlace
    · rfl
    · have hForm := scale_form i (show i < 5 from by unfold triadCount at h; omega) hPlace (requiredForm triad)
      rw [List.flatMap_singleton, SpokenTriad.words, if_pos hPlace, pluralIndex_eq]
      dsimp only
      rw [hForm]
    · rw [List.flatMap_singleton, SpokenTriad.words, if_neg hPlace]

theorem spokenTriads_agree {triads : List Nat} (hTriads : ∀ triad ∈ triads, triad < 1000) {i : Nat}
    (h : i + triads.length ≤ triadCount) : ∀ g ∈ spokenTriads triads i, g.Agrees ∧ i ≤ g.place := by
  induction triads generalizing i with
  | nil => exact fun g hg => absurd hg List.not_mem_nil
  | cons triad higher ih =>
    rw [List.forall_mem_cons] at hTriads
    rw [List.length_cons] at h
    intro g hg
    rcases List.mem_append.mp hg with hHigher | hHere
    · obtain ⟨hAgrees, hPlace⟩ := ih hTriads.2 (by omega) g hHigher
      exact ⟨hAgrees, by omega⟩
    · split_ifs at hHere with hZero
      · cases hHere
      · rw [List.mem_singleton] at hHere
        subst hHere
        have hGender := scale_gender i (show i < 5 from by unfold triadCount at h; omega)
        refine ⟨⟨⟨⟨Nat.pos_of_ne_zero hZero, hTriads.1⟩, by dsimp only; omega⟩, ?_, ?_, ?_⟩, Nat.le_refl _⟩
        · dsimp only
          rw [hearRu_triadRu hTriads.1, Nat.zero_add]
        · dsimp only
          rw [hGender]
          exact triadRu_gender hTriads.1 _
        · exact triadRu_last hTriads.1 (Nat.pos_of_ne_zero hZero) _

/-- Places fall from triad to triad, and the triads in their places make the number. -/
theorem spokenTriads_places (triads : List Nat) (i : Nat) :
    (∀ g ∈ spokenTriads triads i, i ≤ g.place) ∧ (spokenTriads triads i).Pairwise (fun a b => b.place < a.place) ∧
      ((spokenTriads triads i).map fun g => g.triad * 1000 ^ g.place).sum = ofTriads triads * 1000 ^ i := by
  induction triads generalizing i with
  | nil => simp [spokenTriads, ofTriads]
  | cons triad higher ih =>
    obtain ⟨hAbove, hPairs, hSum⟩ := ih (i + 1)
    have hHere : ∀ g ∈ (if triad = 0 then [] else
        [(⟨i, triad, triadRu triad (ruScales.getD i ⟨[], false⟩).feminine⟩ : SpokenTriad)]),
        g.place = i ∧ g.triad = triad := by
      intro g hg
      split_ifs at hg
      · cases hg
      · rw [List.mem_singleton.mp hg]
        exact ⟨rfl, rfl⟩
    refine ⟨?_, ?_, ?_⟩
    · intro g hg
      rcases List.mem_append.mp hg with hHigher | hLast
      · have := hAbove g hHigher
        omega
      · exact (hHere g hLast).1.ge
    · refine List.pairwise_append.mpr ⟨hPairs, by split_ifs <;> simp, fun a ha b hb => ?_⟩
      have := hAbove a ha
      rw [(hHere b hb).1]
      omega
    · rw [spokenTriads, List.map_append, List.sum_append, hSum, ofTriads, Nat.pow_succ]
      split_ifs with hZero
      · rw [hZero]
        simp
        ring
      · simp
        ring

theorem SpokenTriad.Agrees.words_ne_nil {g : SpokenTriad} (h : g.Agrees) : g.words ≠ [] := by
  intro hEmpty
  obtain ⟨last, hLast, -⟩ := h.form
  rw [SpokenTriad.words, List.append_eq_nil_iff] at hEmpty
  rw [hEmpty.1] at hLast
  cases hLast

theorem flatMap_words_eq_nil {spoken : List SpokenTriad} (h : ∀ g ∈ spoken, g.Agrees) :
    spoken.flatMap SpokenTriad.words = [] ↔ spoken = [] := by
  constructor
  · intro hEmpty
    exact List.eq_nil_iff_forall_not_mem.mpr fun g hg =>
      (h g hg).words_ne_nil (List.flatMap_eq_nil_iff.mp hEmpty g hg)
  · rintro rfl
    rfl

/-- The printed text is the spoken triads, the currency, two digits and the unit; every numeral and every
noun after it agree with their triad. -/
theorem toWordsRu_agrees {tiyn : Int} {text : String} (h : toWordsRu tiyn = .ok text) :
    ∃ spoken : List SpokenTriad, (∀ g ∈ spoken, g.Agrees) ∧ spoken.Pairwise (fun a b => b.place < a.place) ∧
      (spoken.map fun g => g.triad * 1000 ^ g.place).sum = tiyn.toNat / 100 ∧
      ((mapHead smallLetter text.toList).splitOn ' ').map String.ofList =
        (if spoken = [] then ["ноль"] else spoken.flatMap SpokenTriad.words) ++
          ["тенге", String.ofList (twoDigits (tiyn.toNat % 100)), "тиын"] := by
  unfold toWordsRu at h
  split_ifs at h with hSign hMax
  obtain ⟨n, rfl⟩ := Int.eq_ofNat_of_zero_le (show 0 ≤ tiyn by omega)
  rw [Int.toNat_natCast] at h ⊢
  have hFits := tenge_fits hMax
  have hFrac : n % 100 < 100 := Nat.mod_lt n (by decide)
  have hLength : 0 + (splitTriads triadCount (n / 100)).length ≤ triadCount := by simp
  have hAgree := fun g hg => (spokenTriads_agree (splitTriads_lt triadCount (n / 100)) hLength g hg).1
  have hWords := spokenTriads_words hLength
  obtain ⟨-, hPairs, hSum⟩ := spokenTriads_places (splitTriads triadCount (n / 100)) 0
  rw [ofTriads_splitTriads _ _ hFits, Nat.pow_zero, Nat.mul_one] at hSum
  obtain ⟨said, hSaid, -⟩ := hearRu_triadsRu hFits
  generalize spokenTriads (splitTriads triadCount (n / 100)) 0 = spoken at hAgree hWords hPairs hSum
  refine ⟨spoken, hAgree, hPairs, hSum, ?_⟩
  have hNone := flatMap_words_eq_nil hAgree
  rw [hWords] at hNone
  have hUnit : ' ' ∉ "тиын".toList := by decide +kernel
  have hSplit : ∀ words said, hearRu words ⟨0, 0⟩ = some said →
      ((mapHead smallLetter (String.ofList (capitalizeCyrillic (joinWords (words ++ ["тенге"])) ++
        tiynTail (n % 100) "тиын")).toList).splitOn ' ').map String.ofList =
          words ++ ["тенге", String.ofList (twoDigits (n % 100)), "тиын"] := by
    intro words said hHeard
    rw [String.toList_ofList, splitOn_spelled (by simp) (hearRu_printable hHeard) hFrac hUnit]
    simp
  rw [← Except.ok.inj h]
  by_cases hEmpty : spoken = []
  · rw [if_pos (hNone.mpr hEmpty), if_pos hEmpty]
    exact hSplit _ _ hearRu_zero
  · rw [if_neg (mt hNone.mp hEmpty), if_neg hEmpty, hWords]
    exact hSplit _ _ hSaid

/-! ### The amounts that have words -/

section accepts

variable {tiyn : Int}

theorem toWordsRu_accepts (h : 0 ≤ tiyn ∧ tiyn ≤ maxTiyn) : ∃ text, toWordsRu tiyn = .ok text := by
  obtain ⟨hSign, hMax⟩ := h
  unfold toWordsRu
  rw [if_neg (by omega), if_neg (by omega)]
  exact ⟨_, rfl⟩

theorem toWordsKk_accepts (h : 0 ≤ tiyn ∧ tiyn ≤ maxTiyn) : ∃ text, toWordsKk tiyn = .ok text := by
  obtain ⟨hSign, hMax⟩ := h
  unfold toWordsKk
  rw [if_neg (by omega), if_neg (by omega)]
  exact ⟨_, rfl⟩

theorem formatTiynRu_prints (h : 0 ≤ tiyn) : ∃ text, formatTiynRu tiyn = some text := by
  unfold formatTiynRu
  rw [if_neg (by omega)]
  exact ⟨_, rfl⟩

theorem toWords_refuse (h : ¬(0 ≤ tiyn ∧ tiyn ≤ maxTiyn)) :
    (∃ fault, toWordsRu tiyn = .error fault) ∧ ∃ fault, toWordsKk tiyn = .error fault := by
  unfold toWordsRu toWordsKk
  by_cases hSign : tiyn < 0
  · rw [if_pos hSign, if_pos hSign]
    exact ⟨⟨_, rfl⟩, _, rfl⟩
  · rw [if_neg hSign, if_neg hSign, if_pos (show maxTiyn < tiyn by omega), if_pos (show maxTiyn < tiyn by omega)]
    exact ⟨⟨_, rfl⟩, _, rfl⟩

/-- What can be read from the words of an amount belongs to no other amount. -/
theorem toWordsRu_inj {t₁ t₂ : Int} {text : String} (h₁ : toWordsRu t₁ = .ok text) (h₂ : toWordsRu t₂ = .ok text) :
    t₁ = t₂ := by
  obtain ⟨hSign₁, hRead₁⟩ := readWordsRu_toWordsRu h₁
  obtain ⟨hSign₂, hRead₂⟩ := readWordsRu_toWordsRu h₂
  have hSame := Option.some.inj (hRead₁.symm.trans hRead₂)
  omega

theorem toWordsKk_inj {t₁ t₂ : Int} {text : String} (h₁ : toWordsKk t₁ = .ok text) (h₂ : toWordsKk t₂ = .ok text) :
    t₁ = t₂ := by
  obtain ⟨hSign₁, hRead₁⟩ := readWordsKk_toWordsKk h₁
  obtain ⟨hSign₂, hRead₂⟩ := readWordsKk_toWordsKk h₂
  have hSame := Option.some.inj (hRead₁.symm.trans hRead₂)
  omega

end accepts

/-- The words of an amount determine it.  Both functions accept the amounts up to the maximum and no other;
in each language a reader recovers from the words the figure that is printed for the same amount, so that
different amounts have different words; and in Russian every noun has the form and every numeral the gender that
its own triad asks for. -/
theorem words_determine_amount :
    (∀ tiyn, (0 ≤ tiyn ∧ tiyn ≤ maxTiyn →
        ∃ ru kk printed, toWordsRu tiyn = .ok ru ∧ toWordsKk tiyn = .ok kk ∧ formatTiynRu tiyn = some printed ∧
          readTiynRu printed = some tiyn.toNat ∧ readWordsRu ru = some tiyn.toNat ∧
          readWordsKk kk = some tiyn.toNat) ∧
      (¬(0 ≤ tiyn ∧ tiyn ≤ maxTiyn) →
        (∃ fault, toWordsRu tiyn = .error fault) ∧ ∃ fault, toWordsKk tiyn = .error fault)) ∧
    (∀ t₁ t₂ text, toWordsRu t₁ = .ok text → toWordsRu t₂ = .ok text → t₁ = t₂) ∧
    (∀ t₁ t₂ text, toWordsKk t₁ = .ok text → toWordsKk t₂ = .ok text → t₁ = t₂) ∧
    (∀ form, (nounAt 0).form form = "тенге") ∧
    ∀ tiyn text, toWordsRu tiyn = .ok text → ∃ spoken : List SpokenTriad,
      (∀ g ∈ spoken, g.Agrees) ∧ spoken.Pairwise (fun a b => b.place < a.place) ∧
      (spoken.map fun g => g.triad * 1000 ^ g.place).sum = tiyn.toNat / 100 ∧
      ((mapHead smallLetter text.toList).splitOn ' ').map String.ofList =
        (if spoken = [] then ["ноль"] else spoken.flatMap SpokenTriad.words) ++
          ["тенге", String.ofList (twoDigits (tiyn.toNat % 100)), "тиын"] := by
  refine ⟨fun tiyn => ⟨fun hRange => ?_, toWords_refuse⟩, fun _ _ _ => toWordsRu_inj, fun _ _ _ => toWordsKk_inj,
    fun form => rfl, fun tiyn text => toWordsRu_agrees⟩
  obtain ⟨ru, hRu⟩ := toWordsRu_accepts hRange
  obtain ⟨kk, hKk⟩ := toWordsKk_accepts hRange
  obtain ⟨printed, hPrinted⟩ := formatTiynRu_prints hRange.1
  exact ⟨ru, kk, printed, hRu, hKk, hPrinted, (readTiynRu_formatTiynRu hPrinted).2, (readWordsRu_toWordsRu hRu).2,
    (readWordsKk_toWordsKk hKk).2⟩

end CyberAccountant.Money
