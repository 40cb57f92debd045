/-
  ProbablePrime.Proofs.Vectors.ListForm — which texts are lists of numbers, and of which numbers.

  A list of numbers is read in two steps.  First the text has to be one JSON list of whole numbers of
  64 bits and quoted texts, which is a matter of the grammar alone; then each quoted text has to denote
  a number.  So a text that is no such list is refused for that reason, even if one of its quoted texts
  denotes nothing, and no number is ever rounded.

  Main results:
    * `readAll_eq_ok_iff` — the first step: the lists that are read;
    * `Numeral.value_eq_ok_iff` — the second step: the numbers that elements denote;
    * `parseList_exact` — both.
-/
import ProbablePrime.Proofs.Json.Container
import ProbablePrime.Proofs.Json.Written
import ProbablePrime.Vectors.NumberList

namespace ProbablePrime.Vectors

open Json (Fault ListOf QuotedText Reader Space Stops Understands WordText Writes beginsNumber
  readNumber skipSpace)

/-! ## §1. The grammar of lists. -/

/-- An element of a list: a whole number of 64 bits, or a quoted text. -/
inductive NumeralText : Numeral → List Char → List Char → Prop
  /-- A whole number. -/
  | integer {n : Nat} {text rest : List Char} : WordText n text rest →
      NumeralText (.integer n) text rest
  /-- A quoted text. -/
  | text {value text rest : List Char} : QuotedText value text rest →
      NumeralText (.text value) text rest

/-- A text that is a list of elements, with nothing but white space around it. -/
def NumeralList (numerals : List Numeral) (text : List Char) : Prop :=
  ∃ start rest, Space text start ∧ ListOf NumeralText numerals start rest ∧ Space rest []

namespace Numeral

/-- Every element of the grammar is read. -/
theorem understands_reader : Understands reader NumeralText Eq where
  opens := by
    intro numeral text rest h
    cases h with
    | integer hword => exact hword.opens
    | text hquoted => exact hquoted.opens
  ok := by
    rintro numeral _ text' text rest hspace h hstops rfl
    show take text' = _
    cases h with
    | integer hword =>
      rw [take, hspace.skipSpace_of_opens hword.opens]
      split
      · -- A number does not begin with a quote.
        obtain ⟨c, tail, heq, hc⟩ := hword.exists_cons
        obtain ⟨rfl, -⟩ := List.cons.inj heq
        exact absurd hc (by decide)
      · rw [if_pos hword.begins, Json.readNumber_of_wordText hword hstops]
    | text hquoted =>
      rw [take, hspace.skipSpace_of_opens hquoted.opens]
      obtain ⟨body, rfl, hbody⟩ := hquoted
      simp only [Json.readText_eq_ok_iff.2 hbody]
  error := by
    intro numeral text' text rest _ _ _ hnothing
    exact absurd rfl (hnothing numeral)

/-- Nothing else is read as an element. -/
theorem sound_reader : reader.Sound NumeralText := by
  intro text rest numeral h
  have hspace := Json.space_skipSpace text
  have htake : take text = .ok (numeral, rest) := h
  unfold take at htake
  split at htake
  · next inner hskip =>
    rw [hskip] at hspace
    split at htake
    · cases htake
    · next value rest' hread =>
      obtain ⟨rfl, rfl⟩ := Prod.mk.inj (Except.ok.inj htake)
      exact ⟨_, hspace, .text ⟨inner, rfl, Json.readText_eq_ok_iff.1 hread⟩⟩
  · split at htake
    · split at htake
      · cases htake
      · next n rest' hread =>
        obtain ⟨rfl, rfl⟩ := Prod.mk.inj (Except.ok.inj htake)
        exact ⟨_, hspace, .integer (Json.wordText_of_readNumber hread)⟩
      · cases htake
    · cases htake

end Numeral

/-- **The lists that are read are those of the grammar.** -/
theorem readAll_eq_ok_iff {text : List Char} {numerals : List Numeral} :
    Numeral.reader.list.readAll text = .ok numerals ↔ NumeralList numerals text := by
  constructor
  · intro h
    unfold Reader.readAll at h
    split at h
    · cases h
    · next rest hread =>
      have hspace := Json.space_skipSpace rest
      split at h
      · next hend =>
        obtain rfl := Except.ok.inj h
        obtain ⟨start, hstart, hlist⟩ := Numeral.sound_reader.list hread
        rw [hend] at hspace
        exact ⟨start, rest, hstart, hlist, hspace⟩
      · cases h
  · rintro ⟨start, rest, hstart, hlist, hend⟩
    have hread := Numeral.understands_reader.list.ok hstart hlist (hend.stops (by simp [Stops]))
      (List.forall₂_same.2 fun _ _ => rfl)
    rw [Reader.readAll, hread]
    simp only [hend.skipSpace_eq]
    rfl

/-! ## §2. What elements denote. -/

/-- What is left of a text without the white space at its beginning and at its end. -/
def Trimmed (text core : List Char) : Prop :=
  ∃ before after, text = before ++ (core ++ after) ∧ (∀ c ∈ before, Text.isBlank c = true)
    ∧ (∀ c ∈ after, Text.isBlank c = true) ∧ (∀ c ∈ core.head?, Text.isBlank c = false)
    ∧ ∀ c ∈ core.getLast?, Text.isBlank c = false

/-- What is left behind blank characters does not begin with one. -/
theorem isBlank_of_mem_head?_dropWhile {text : List Char} {c : Char}
    (hc : c ∈ (text.dropWhile Text.isBlank).head?) : Text.isBlank c = false := by
  rw [← List.find?_not_eq_head?_dropWhile] at hc
  simpa using List.find?_some hc

theorem trimmed_trim (text : List Char) : Trimmed text (Text.trim text) := by
  have hback : Text.trim text = (text.dropWhile Text.isBlank).rdropWhile Text.isBlank := rfl
  refine ⟨text.takeWhile Text.isBlank, (text.dropWhile Text.isBlank).rtakeWhile Text.isBlank, ?_,
    fun c hc => List.mem_takeWhile_imp hc, fun c hc => List.mem_rtakeWhile_imp hc, ?_, ?_⟩
  · rw [hback, List.rdropWhile_append_rtakeWhile, List.takeWhile_append_dropWhile]
  · intro c hc
    -- The front of what is left behind the first blanks begins as that does.
    have hfront : c ∈ (text.dropWhile Text.isBlank).head? := by
      obtain ⟨tail, htail⟩ := List.rdropWhile_prefix Text.isBlank (l := text.dropWhile Text.isBlank)
      rw [← hback] at htail
      rw [← htail, List.head?_append]
      simp_all
    exact isBlank_of_mem_head?_dropWhile hfront
  · intro c hc
    rw [Text.trim, List.getLast?_reverse] at hc
    exact isBlank_of_mem_head?_dropWhile hc

/-- There is only one way to trim a text. -/
theorem Trimmed.trim_eq {text core : List Char} (h : Trimmed text core) : Text.trim text = core := by
  obtain ⟨before, after, rfl, hbefore, hafter, hhead, hlast⟩ := h
  have hafter' : ∀ c ∈ after.reverse, Text.isBlank c = true := by simpa using hafter
  rw [Text.trim, List.dropWhile_append_of_pos hbefore]
  cases core with
  | nil => rw [List.nil_append, List.dropWhile_eq_nil_iff.2 hafter]; rfl
  | cons c core =>
    have hc : ¬ Text.isBlank c = true := by simpa using hhead c
    rw [List.cons_append, List.dropWhile_cons_of_neg hc, ← List.cons_append, List.reverse_append,
      List.dropWhile_append_of_pos hafter']
    have hkeep : (c :: core).reverse.dropWhile Text.isBlank = (c :: core).reverse := by
      rcases hrev : (c :: core).reverse with _ | ⟨d, rest⟩
      · simp at hrev
      · have hd : ¬ Text.isBlank d = true := by
          have := hlast d (by rw [← List.head?_reverse, hrev]; rfl)
          simpa using this
        rw [List.dropWhile_cons_of_neg hd]
    rw [hkeep, List.reverse_reverse]

/-- The number that an element denotes: its own, or that of its trimmed text. -/
inductive Numeral.Denotes : Numeral → Nat → Prop
  /-- A whole number denotes itself. -/
  | integer (n : Nat) : Denotes (.integer n) n
  /-- A text denotes the decimal number that it is without the white space around it. -/
  | text {value core : List Char} {n : Nat} : Trimmed value core → Number.IsDecimal core n →
      Denotes (.text value) n

namespace Numeral

/-- **The numbers that are made of elements are those that they denote.** -/
theorem value_eq_ok_iff {numeral : Numeral} {n : Nat} : numeral.value = .ok n ↔ numeral.Denotes n := by
  cases numeral with
  | integer m =>
    rw [value, Except.ok.injEq]
    constructor
    · rintro rfl
      exact .integer m
    · rintro ⟨⟩
      rfl
  | text text =>
    constructor
    · intro h
      refine .text (trimmed_trim text) (Number.ofText?_eq_some_iff.1 ?_)
      cases hnumber : Number.ofText? (Text.trim text) with
      | none => simp [value, hnumber] at h
      | some m =>
        simp only [value, hnumber, Except.ok.injEq] at h
        rw [h]
    · intro h
      cases h with
      | text htrim hdecimal =>
        rw [← htrim.trim_eq, ← Number.ofText?_eq_some_iff] at hdecimal
        simp only [value, hdecimal]

/-- Only a text can fail to denote a number, and it is reported as it stands. -/
theorem value_eq_error_iff {numeral : Numeral} {error : VectorError} :
    numeral.value = .error error
      ↔ ∃ text, numeral = .text text ∧ (∀ n, ¬ numeral.Denotes n)
        ∧ error = .invalidNumber (String.ofList text) := by
  simp only [← value_eq_ok_iff]
  cases numeral with
  | integer m => simp [value]
  | text text =>
    cases hnumber : Number.ofText? (Text.trim text) with
    | none => simp [value, hnumber, eq_comm]
    | some m => simp [value, hnumber]

end Numeral

/-! ## §3. Whole lists. -/

section

variable {numeral : Numeral} {numerals : List Numeral}

theorem mapM_value_cons_of_ok {n : Nat} (h : numeral.value = .ok n) :
    (numeral :: numerals).mapM Numeral.value = (numerals.mapM Numeral.value).map (n :: ·) := by
  rw [List.mapM_cons, h]
  cases numerals.mapM Numeral.value with
  | ok numbers => rfl
  | error error => rfl

theorem mapM_value_cons_of_error {error : VectorError} (h : numeral.value = .error error) :
    (numeral :: numerals).mapM Numeral.value = .error error := by
  rw [List.mapM_cons, h]
  rfl

/-- The numbers of a list are those that its elements denote, one by one. -/
theorem mapM_value_eq_ok_iff {numbers : List Nat} :
    numerals.mapM Numeral.value = .ok numbers ↔ List.Forall₂ Numeral.Denotes numerals numbers := by
  induction numerals generalizing numbers with
  | nil =>
    rw [List.forall₂_nil_left_iff, List.mapM_nil]
    exact ⟨fun h => (Except.ok.inj h).symm, fun h => congrArg Except.ok h.symm⟩
  | cons numeral numerals ih =>
    rw [List.forall₂_cons_left_iff]
    simp only [← ih, ← Numeral.value_eq_ok_iff]
    cases hvalue : numeral.value with
    | error error =>
      rw [mapM_value_cons_of_error hvalue]
      simp
    | ok n =>
      rw [mapM_value_cons_of_ok hvalue]
      cases numerals.mapM Numeral.value with
      | error error => simp [Except.map]
      | ok rest => simp [Except.map, eq_comm]

/-- The error of a list is that of its first element that denotes no number. -/
theorem mapM_value_eq_error_iff {error : VectorError} :
    numerals.mapM Numeral.value = .error error
      ↔ ∃ front text back, numerals = front ++ .text text :: back
        ∧ (∀ numeral ∈ front, ∃ n, numeral.Denotes n) ∧ (∀ n, ¬ (Numeral.text text).Denotes n)
        ∧ error = .invalidNumber (String.ofList text) := by
  constructor
  · intro h
    induction numerals with
    | nil => cases h
    | cons numeral numerals ih =>
      cases hvalue : numeral.value with
      | error error' =>
        rw [mapM_value_cons_of_error hvalue] at h
        obtain rfl := Except.error.inj h
        obtain ⟨text, rfl, hnothing, herror⟩ := Numeral.value_eq_error_iff.1 hvalue
        exact ⟨[], text, numerals, rfl, by simp, hnothing, herror⟩
      | ok n =>
        rw [mapM_value_cons_of_ok hvalue] at h
        cases hrest : numerals.mapM Numeral.value with
        | ok numbers =>
          rw [hrest] at h
          cases h
        | error error' =>
          rw [hrest] at h
          obtain rfl := Except.error.inj h
          obtain ⟨front, text, back, rfl, hfront, hnothing⟩ := ih hrest
          refine ⟨numeral :: front, text, back, rfl, ?_, hnothing⟩
          rintro other (_ | ⟨_, hother⟩)
          · exact ⟨n, Numeral.value_eq_ok_iff.1 hvalue⟩
          · exact hfront other hother
  · rintro ⟨front, text, back, rfl, hfront, hnothing, rfl⟩
    induction front with
    | nil => exact mapM_value_cons_of_error (Numeral.value_eq_error_iff.2 ⟨text, rfl, hnothing, rfl⟩)
    | cons numeral front ih =>
      obtain ⟨n, hn⟩ := hfront numeral List.mem_cons_self
      have hrest := ih fun other hother => hfront other (List.mem_cons_of_mem _ hother)
      rw [List.cons_append, mapM_value_cons_of_ok (Numeral.value_eq_ok_iff.2 hn), hrest]
      rfl

end

/-- A text that is a list of the grammar is read, and its elements are made numbers. -/
theorem parseList_of_numeralList {json : String} {numerals : List Numeral}
    (h : NumeralList numerals json.toList) : parseList json = numerals.mapM Numeral.value := by
  rw [parseList, readAll_eq_ok_iff.2 h]

/-- **The numbers that a text is read as** are those that the elements of its list denote. -/
theorem parseList_eq_ok_iff {json : String} {numbers : List Nat} :
    parseList json = .ok numbers
      ↔ ∃ numerals, NumeralList numerals json.toList
        ∧ List.Forall₂ Numeral.Denotes numerals numbers := by
  constructor
  · intro h
    rw [parseList] at h
    cases hread : Numeral.reader.list.readAll json.toList with
    | error refusal =>
      rw [hread] at h
      cases h
    | ok numerals =>
      rw [hread] at h
      exact ⟨numerals, readAll_eq_ok_iff.1 hread, mapM_value_eq_ok_iff.1 h⟩
  · rintro ⟨numerals, hlist, hdenotes⟩
    rw [parseList_of_numeralList hlist]
    exact mapM_value_eq_ok_iff.2 hdenotes

/-- A text that is not read as numbers is refused for its form, or for one of its elements. -/
theorem cause_of_parseList {json : String} {cause : VectorError} (h : parseList json = .error cause) :
    (∃ refusal, cause = .json refusal) ∨ ∃ value, cause = .invalidNumber value := by
  rw [parseList] at h
  cases hread : Numeral.reader.list.readAll json.toList with
  | error refusal =>
    rw [hread] at h
    exact Or.inl ⟨refusal, (Except.error.inj h).symm⟩
  | ok numerals =>
    rw [hread] at h
    obtain ⟨-, text, -, -, -, -, hcause⟩ := mapM_value_eq_error_iff.1 h
    exact Or.inr ⟨_, hcause⟩

/-- **What `parseList` makes of a text.**  The text is refused as JSON exactly if it is not one list of
whole numbers of 64 bits and quoted texts, with nothing but white space around it.  A list is refused
for its first quoted text that denotes no number, which is reported as it is decoded; if there is none,
there is one number for each element, in order, and it is the one that the element denotes. -/
theorem parseList_exact (json : String) :
    ((∃ refusal, parseList json = .error (.json refusal))
        ↔ ¬ ∃ numerals, NumeralList numerals json.toList)
    ∧ ∀ numerals, NumeralList numerals json.toList →
      (∀ value, parseList json = .error (.invalidNumber value)
        ↔ ∃ front text back, numerals = front ++ .text text :: back
          ∧ (∀ numeral ∈ front, ∃ n, numeral.Denotes n) ∧ (∀ n, ¬ (Numeral.text text).Denotes n)
          ∧ value = String.ofList text)
      ∧ (∀ numbers, parseList json = .ok numbers ↔ List.Forall₂ Numeral.Denotes numerals numbers)
      ∧ ((∃ value, parseList json = .error (.invalidNumber value))
          ∨ ∃ numbers, parseList json = .ok numbers) := by
  refine ⟨⟨?_, ?_⟩, ?_⟩
  · rintro ⟨refusal, hrefused⟩ ⟨numerals, hlist⟩
    rw [parseList_of_numeralList hlist, mapM_value_eq_error_iff] at hrefused
    obtain ⟨front, text, back, -, -, -, herror⟩ := hrefused
    cases herror
  · intro hnone
    rw [parseList]
    cases hread : Numeral.reader.list.readAll json.toList with
    | error refusal => exact ⟨refusal, rfl⟩
    | ok numerals => exact absurd ⟨numerals, readAll_eq_ok_iff.1 hread⟩ hnone
  · intro numerals hlist
    rw [parseList_of_numeralList hlist]
    refine ⟨fun value => ?_, fun numbers => mapM_value_eq_ok_iff, ?_⟩
    · rw [mapM_value_eq_error_iff]
      simp only [VectorError.invalidNumber.injEq]
    · cases hvalues : numerals.mapM Numeral.value with
      | ok numbers => exact Or.inr ⟨numbers, rfl⟩
      | error error =>
        obtain ⟨front, text, back, -, -, -, rfl⟩ := mapM_value_eq_error_iff.1 hvalues
        exact Or.inl ⟨_, rfl⟩

/-- Of one list every element denotes a number; of another the first has an inner blank and denotes
none; and the same text in front of a number with a point is no such list at all. -/
theorem parseList_exact_inner_blank :
    (NumeralList [.integer 12, .text " +3_4 ".toList] "[12, \" +3_4 \"]".toList
        ∧ parseList "[12, \" +3_4 \"]" = .ok [12, 34])
      ∧ (NumeralList [.text "5 6".toList, .integer 7] "[\"5 6\", 7]".toList
        ∧ parseList "[\"5 6\", 7]" = .error (.invalidNumber "5 6"))
      ∧ (¬ ∃ numerals, NumeralList numerals "[\"5 6\", 7.0]".toList)
      ∧ ∃ refusal, parseList "[\"5 6\", 7.0]" = .error (.json refusal) := by
  have htwelve : Writes WordText 12 ['1', '2'] := Json.wordText_toDigits (by decide)
  have hseven : Writes WordText 7 ['7'] := Json.wordText_toDigits (by decide)
  have hquoted {value : List Char} (hplain : value.all Json.isPlain = true) :
      Writes QuotedText value ('"' :: (value ++ ['"'])) :=
    Json.quotedText_of_plain (List.all_eq_true.1 hplain)
  have hblank (rest : List Char) : Space (' ' :: rest) rest :=
    ⟨[' '], by simp [Json.IsBlank], rfl⟩
  have hlist : NumeralList [.integer 12, .text " +3_4 ".toList] "[12, \" +3_4 \"]".toList :=
    ⟨_, [], Space.refl _, ⟨_, rfl, .first (Space.refl _) (.integer (htwelve _))
      (.later (Space.refl _) (hblank _) (.text (hquoted (by decide) _)) (.closed (Space.refl _)))⟩,
      Space.refl _⟩
  have hlist' : NumeralList [.text "5 6".toList, .integer 7] "[\"5 6\", 7]".toList :=
    ⟨_, [], Space.refl _, ⟨_, rfl, .first (Space.refl _) (.text (hquoted (by decide) _))
      (.later (Space.refl _) (hblank _) (.integer (hseven _)) (.closed (Space.refl _)))⟩,
      Space.refl _⟩
  have hother : (Numeral.text " +3_4 ".toList).Denotes 34 :=
    Numeral.value_eq_ok_iff.1 (by decide +kernel)
  have hnothing (n : Nat) : ¬ (Numeral.text "5 6".toList).Denotes n := by
    have hvalue : (Numeral.text "5 6".toList).value = .error (.invalidNumber "5 6") := by
      decide +kernel
    rw [← Numeral.value_eq_ok_iff, hvalue]
    intro h
    cases h
  have hnone : ¬ ∃ numerals, NumeralList numerals "[\"5 6\", 7.0]".toList := by
    rintro ⟨numerals, h⟩
    have hread : (Numeral.reader.list.readAll "[\"5 6\", 7.0]".toList).isOk = false := by
      decide +kernel
    rw [readAll_eq_ok_iff.2 h] at hread
    cases hread
  refine ⟨⟨hlist, ?_⟩, ⟨hlist', ?_⟩, hnone, (parseList_exact _).1.2 hnone⟩
  · exact (((parseList_exact _).2 _ hlist).2.1 [12, 34]).2 (.cons (.integer 12) (.cons hother .nil))
  · exact (((parseList_exact _).2 _ hlist').1 "5 6").2
      ⟨[], _, _, rfl, by simp, hnothing, by decide +kernel⟩

end ProbablePrime.Vectors
