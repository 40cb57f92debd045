/-
  ProbablePrime.Proofs.Json.Grammar — how JSON texts are written.

  A construct of the grammar is a relation between a text that begins with it and the `rest` behind
  it, so a sequence of constructs is a chain of texts.  A construct that stands for something takes it
  as its first argument: a quoted text its characters, a list its elements, an object its members.

  Values come in two kinds.  A value that is kept has a construct of its own, and lists and objects are
  put together from the constructs of what is in them.  A value that is passed over is any JSON value:
  only its form matters, so numbers have any size and half a surrogate pair may stand alone.

  What follows a value in a list or an object stops it: space, a comma or a closing bracket never
  belongs to the value in front of it.

  Main definitions:
    * `QuotedText` and `WordText` — the scalars that are kept;
    * `ValueText` — any value;
    * `ListOf` and `ObjectOf` — lists and objects of given constructs.
-/
import Mathlib
import ProbablePrime.Json.Reader

namespace ProbablePrime.Json

/-! ## §1. Space. -/

/-- Whether a character is white space of the grammar. -/
def IsBlank (c : Char) : Prop := c = ' ' ∨ c = '\t' ∨ c = '\n' ∨ c = '\r'

/-- Any amount of white space. -/
def Space (text rest : List Char) : Prop :=
  ∃ blanks, (∀ c ∈ blanks, IsBlank c) ∧ text = blanks ++ rest

/-! ## §2. Quoted texts. -/

/-- The letters that may follow a backslash, with the characters that they stand for. -/
def escapeLetters : List (Char × Char) :=
  [('"', '"'), ('\\', '\\'), ('/', '/'), ('b', '\x08'), ('f', '\x0c'), ('n', '\n'), ('r', '\r'),
    ('t', '\t')]

/-- An escape from behind its backslash, with the character that it stands for. -/
inductive EscapeText : Char → List Char → List Char → Prop
  /-- A letter. -/
  | letter {l c : Char} {rest : List Char} : (l, c) ∈ escapeLetters → EscapeText c (l :: rest) rest
  /-- A code unit that is no half of a surrogate pair. -/
  | unit {a b c d : Char} {unit : Nat} {rest : List Char} : hexQuad? a b c d = some unit →
      unit < 0xD800 ∨ 0xDFFF < unit →
        EscapeText (Char.ofNat unit) ('u' :: a :: b :: c :: d :: rest) rest
  /-- Two code units that are a surrogate pair. -/
  | pair {a b c d a' b' c' d' : Char} {high low : Nat} {rest : List Char} :
      hexQuad? a b c d = some high → 0xD800 ≤ high ∧ high ≤ 0xDBFF →
        hexQuad? a' b' c' d' = some low → 0xDC00 ≤ low ∧ low ≤ 0xDFFF →
          EscapeText (Char.ofNat (0x10000 + (high - 0xD800) * 0x400 + (low - 0xDC00)))
            ('u' :: a :: b :: c :: d :: '\\' :: 'u' :: a' :: b' :: c' :: d' :: rest) rest

/-- A quoted text from behind its opening quote. -/
inductive TextBody : List Char → List Char → List Char → Prop
  /-- The closing quote. -/
  | close {rest : List Char} : TextBody [] ('"' :: rest) rest
  /-- A character that stands for itself. -/
  | plain {c : Char} {value text rest : List Char} : c ≠ '"' → c ≠ '\\' → 0x20 ≤ c.toNat →
      TextBody value text rest → TextBody (c :: value) (c :: text) rest
  /-- An escape. -/
  | escape {c : Char} {value text mid rest : List Char} : EscapeText c text mid →
      TextBody value mid rest → TextBody (c :: value) ('\\' :: text) rest

/-- A quoted text, with the characters that are meant. -/
def QuotedText (value text rest : List Char) : Prop :=
  ∃ body, text = '"' :: body ∧ TextBody value body rest

/-- An escape whose code unit may be any, from behind its backslash. -/
inductive LooseEscape : List Char → List Char → Prop
  /-- A letter. -/
  | letter {l c : Char} {rest : List Char} : (l, c) ∈ escapeLetters → LooseEscape (l :: rest) rest
  /-- A code unit. -/
  | unit {a b c d : Char} {unit : Nat} {rest : List Char} : hexQuad? a b c d = some unit →
      LooseEscape ('u' :: a :: b :: c :: d :: rest) rest

/-- A quoted text whose code units may be any, from behind its opening quote. -/
inductive LooseBody : List Char → List Char → Prop
  /-- The closing quote. -/
  | close {rest : List Char} : LooseBody ('"' :: rest) rest
  /-- A character that stands for itself. -/
  | plain {c : Char} {text rest : List Char} : c ≠ '"' → c ≠ '\\' → 0x20 ≤ c.toNat →
      LooseBody text rest → LooseBody (c :: text) rest
  /-- An escape. -/
  | escape {text mid rest : List Char} : LooseEscape text mid → LooseBody mid rest →
      LooseBody ('\\' :: text) rest

/-! ## §3. Numbers. -/

/-- One digit or more. -/
def Digits (digits : List Char) : Prop := digits ≠ [] ∧ ∀ c ∈ digits, c.isDigit = true

/-- The digits in front of a point: a zero alone, or digits that do not begin with one. -/
def WholePart (digits : List Char) : Prop := digits = ['0'] ∨ Digits digits ∧ digits.head? ≠ some '0'

/-- Nothing, or a point and digits. -/
def FractionPart (text : List Char) : Prop := text = [] ∨ ∃ digits, text = '.' :: digits ∧ Digits digits

/-- Nothing, or a power of ten with or without a sign. -/
def ExponentPart (text : List Char) : Prop :=
  text = [] ∨ ∃ mark sign digits, text = mark :: (sign ++ digits) ∧ (mark = 'e' ∨ mark = 'E')
    ∧ (sign = [] ∨ sign = ['+'] ∨ sign = ['-']) ∧ Digits digits

/-- A number of any kind and size. -/
def NumberText (text rest : List Char) : Prop :=
  ∃ sign whole fraction exponent, (sign = [] ∨ sign = ['-']) ∧ WholePart whole
    ∧ FractionPart fraction ∧ ExponentPart exponent
    ∧ text = sign ++ (whole ++ (fraction ++ (exponent ++ rest)))

/-- A whole number of 64 bits without a sign, a point or a power of ten. -/
def WordText (n : Nat) (text rest : List Char) : Prop :=
  ∃ digits, WholePart digits ∧ Nat.ofDigitChars 10 digits 0 = n ∧ n < 2 ^ 64
    ∧ text = digits ++ rest

/-! ## §4. Any value. -/

/-- The part of a value that a text begins with. -/
inductive Part where
  /-- The value itself. -/
  | value
  /-- What stands in a list or an object from its beginning, or from behind one of its items. -/
  | items (bracket : Bracket) (first : Bool)

/-- What stands in front of the value in an item: nothing in a list, and a name in an object. -/
inductive ItemHead : Bracket → List Char → List Char → Prop
  /-- Nothing. -/
  | list {text : List Char} : ItemHead .list text text
  /-- A name and a colon. -/
  | object {text mid rest : List Char} : LooseBody text mid → Space mid (':' :: rest) →
      ItemHead .object ('"' :: text) rest

/-- A value of any kind, or a part of one. -/
inductive ValueText : Part → List Char → List Char → Prop
  /-- The word for no value. -/
  | nullWord {rest : List Char} : ValueText .value ('n' :: 'u' :: 'l' :: 'l' :: rest) rest
  /-- The truth value true. -/
  | trueWord {rest : List Char} : ValueText .value ('t' :: 'r' :: 'u' :: 'e' :: rest) rest
  /-- The truth value false. -/
  | falseWord {rest : List Char} : ValueText .value ('f' :: 'a' :: 'l' :: 's' :: 'e' :: rest) rest
  /-- A text. -/
  | text {text rest : List Char} : LooseBody text rest → ValueText .value ('"' :: text) rest
  /-- A number. -/
  | number {text rest : List Char} : NumberText text rest → ValueText .value text rest
  /-- A list. -/
  | list {text rest : List Char} : ValueText (.items .list true) text rest →
      ValueText .value ('[' :: text) rest
  /-- An object. -/
  | object {text rest : List Char} : ValueText (.items .object true) text rest →
      ValueText .value ('\x7b' :: text) rest
  /-- The end of a list or an object, which no comma stands in front of. -/
  | closed {bracket : Bracket} {first : Bool} {text rest : List Char} :
      Space text (bracket.closer :: rest) → ValueText (.items bracket first) text rest
  /-- The first item. -/
  | first {bracket : Bracket} {text head tail value mid rest : List Char} :
      Space text head → ItemHead bracket head tail → Space tail value → ValueText .value value mid →
        ValueText (.items bracket false) mid rest →
          ValueText (.items bracket true) text rest
  /-- An item behind another one. -/
  | later {bracket : Bracket} {text more head tail value mid rest : List Char} :
      Space text (',' :: more) → Space more head → ItemHead bracket head tail → Space tail value →
        ValueText .value value mid → ValueText (.items bracket false) mid rest →
          ValueText (.items bracket false) text rest

/-! ## §5. Lists and objects of given constructs. -/

variable {γ : Type}

/-- Items from the beginning of a bracket, or from behind one of its items, to behind its end. -/
inductive Items (item : γ → List Char → List Char → Prop) (bracket : Bracket) :
    Bool → List γ → List Char → List Char → Prop
  /-- The end of the bracket, which no comma stands in front of. -/
  | closed {first : Bool} {text rest : List Char} :
      Space text (bracket.closer :: rest) → Items item bracket first [] text rest
  /-- The first item. -/
  | first {g : γ} {gs : List γ} {text inner mid rest : List Char} :
      Space text inner → item g inner mid → Items item bracket false gs mid rest →
        Items item bracket true (g :: gs) text rest
  /-- An item behind another one. -/
  | later {g : γ} {gs : List γ} {text more inner mid rest : List Char} :
      Space text (',' :: more) → Space more inner → item g inner mid →
        Items item bracket false gs mid rest → Items item bracket false (g :: gs) text rest

/-- A list of elements. -/
def ListOf (element : γ → List Char → List Char → Prop) (gs : List γ) (text rest : List Char) :
    Prop :=
  ∃ inner, text = '[' :: inner ∧ Items element .list true gs inner rest

/-- A member of an object: a name, a colon and a value.  A member that is asked for has one of `names`
and stands for that name and what its value stands for; any other one has another name and any value. -/
inductive Member (names : List String) (value : String → γ → List Char → List Char → Prop) :
    Option (String × γ) → List Char → List Char → Prop
  /-- A member that is asked for. -/
  | asked {name : String} {g : γ} {text mid tail inner rest : List Char} :
      name ∈ names → QuotedText name.toList text mid → Space mid (':' :: tail) → Space tail inner →
        value name g inner rest → Member names value (some (name, g)) text rest
  /-- Another member. -/
  | other {name text mid tail inner rest : List Char} :
      name ∉ names.map String.toList → QuotedText name text mid → Space mid (':' :: tail) →
        Space tail inner → ValueText .value inner rest → Member names value none text rest

/-- An object, with its members in the order in which they stand. -/
def ObjectOf (names : List String) (value : String → γ → List Char → List Char → Prop)
    (members : List (Option (String × γ))) (text rest : List Char) : Prop :=
  ∃ inner, text = '\x7b' :: inner ∧ Items (Member names value) .object true members inner rest

/-! ## §6. Where values begin and end. -/

variable {text text' mid rest : List Char} {c : Char} {bracket : Bracket} {first : Bool}

theorem isSpace_iff : isSpace c = true ↔ IsBlank c := by
  simp only [isSpace, IsBlank, Bool.or_eq_true, beq_iff_eq]
  tauto

theorem skipSpace_cons (hc : isSpace c = false) (text : List Char) :
    skipSpace (c :: text) = c :: text := by
  rw [skipSpace, List.dropWhile_cons, hc, if_neg Bool.false_ne_true]

/-- What is skipped in front of a token is white space. -/
theorem space_skipSpace (text : List Char) : Space text (skipSpace text) := by
  refine ⟨text.takeWhile isSpace, ?_, (List.takeWhile_append_dropWhile).symm⟩
  intro c hc
  exact isSpace_iff.1 (List.mem_takeWhile_imp hc)

/-- White space in front is skipped. -/
theorem Space.skipSpace_eq (h : Space text rest) : skipSpace text = skipSpace rest := by
  obtain ⟨blanks, hblanks, rfl⟩ := h
  exact List.dropWhile_append_of_pos fun c hc => isSpace_iff.2 (hblanks c hc)

theorem skipSpace_eq_nil_iff : skipSpace text = [] ↔ ∀ c ∈ text, IsBlank c := by
  rw [skipSpace, List.dropWhile_eq_nil_iff]
  simp only [isSpace_iff]

theorem Space.refl (text : List Char) : Space text text := ⟨[], by simp, rfl⟩

theorem Space.trans (h : Space text mid) (h' : Space mid rest) : Space text rest := by
  obtain ⟨blanks, hblanks, rfl⟩ := h
  obtain ⟨blanks', hblanks', rfl⟩ := h'
  refine ⟨blanks ++ blanks', ?_, (List.append_assoc ..).symm⟩
  intro c hc
  rcases List.mem_append.1 hc with hc | hc
  · exact hblanks c hc
  · exact hblanks' c hc

/-- What a value begins with: a character that is neither space nor a closing bracket. -/
def Opens (text : List Char) : Prop :=
  ∃ c tail, text = c :: tail ∧ isSpace c = false ∧ c ≠ ']' ∧ c ≠ '\x7d'

theorem ObjectOf.opens {names : List String} {value : String → γ → List Char → List Char → Prop}
    {members : List (Option (String × γ))} (h : ObjectOf names value members text rest) :
    Opens text := by
  obtain ⟨inner, rfl, -⟩ := h
  exact ⟨'\x7b', inner, rfl, by decide, by decide, by decide⟩

theorem ListOf.opens {element : γ → List Char → List Char → Prop} {gs : List γ}
    (h : ListOf element gs text rest) : Opens text := by
  obtain ⟨inner, rfl, -⟩ := h
  exact ⟨'[', inner, rfl, by decide, by decide, by decide⟩

/-- What may stand behind a value: nothing, space, a comma or a closing bracket. -/
def Stops (rest : List Char) : Prop :=
  ∀ c ∈ rest.head?, IsBlank c ∨ c = ',' ∨ c = ']' ∨ c = '\x7d'

theorem Opens.skipSpace_eq (h : Opens text) : skipSpace text = text := by
  obtain ⟨c, tail, rfl, hc, -⟩ := h
  exact skipSpace_cons hc tail

/-- From any space in front of it, the text is reached. -/
theorem Space.skipSpace_of_opens (h : Space text' text) (htext : Opens text) :
    skipSpace text' = text := by
  rw [h.skipSpace_eq, htext.skipSpace_eq]

/-- White space in front of what stops a value stops it too. -/
theorem Space.stops (h : Space text rest) (hrest : Stops rest) : Stops text := by
  obtain ⟨blanks, hblanks, rfl⟩ := h
  cases blanks with
  | nil => exact hrest
  | cons blank blanks =>
    intro c hc
    obtain rfl : blank = c := by simpa using hc
    exact Or.inl (hblanks blank List.mem_cons_self)

theorem Bracket.closer_eq_or (bracket : Bracket) : bracket.closer = ']' ∨ bracket.closer = '\x7d' := by
  cases bracket with
  | list => exact Or.inl rfl
  | object => exact Or.inr rfl

theorem stops_closer (bracket : Bracket) (rest : List Char) : Stops (bracket.closer :: rest) := by
  intro c hc
  obtain rfl : bracket.closer = c := by simpa using hc
  exact Or.inr (Or.inr bracket.closer_eq_or)

theorem stops_comma (rest : List Char) : Stops (',' :: rest) := by
  intro c hc
  obtain rfl : ',' = c := by simpa using hc
  exact Or.inr (Or.inl rfl)

theorem Items.stops {item : γ → List Char → List Char → Prop} {gs : List γ}
    (h : Items item bracket false gs text rest) : Stops text := by
  cases h with
  | closed hspace => exact hspace.stops (stops_closer bracket _)
  | later hspace _ _ _ => exact hspace.stops (stops_comma _)

theorem ValueText.stops (h : ValueText (.items bracket false) text rest) : Stops text := by
  cases h with
  | closed hspace => exact hspace.stops (stops_closer bracket _)
  | later hspace _ _ _ _ _ => exact hspace.stops (stops_comma _)

/-- What stops a value does not go on with a number. -/
theorem Stops.not_number (h : Stops rest) (hc : c ∈ rest.head?) :
    c.isDigit = false ∧ c ≠ '.' ∧ c ≠ 'e' ∧ c ≠ 'E' := by
  rcases h c hc with hspace | rfl | rfl | rfl
  · rcases hspace with rfl | rfl | rfl | rfl <;> decide
  all_goals decide

theorem opens_of_isDigit (hc : c.isDigit = true) (tail : List Char) : Opens (c :: tail) := by
  -- What may stand behind a value is no digit.
  have hgoes : ¬ Stops [c] := fun hstops => by
    rw [(hstops.not_number (by simp)).1] at hc
    cases hc
  refine ⟨c, tail, rfl, ?_, ?_, ?_⟩
  · rw [Bool.eq_false_iff]
    intro hspace
    exact hgoes fun c' hc' => by
      obtain rfl : c = c' := by simpa using hc'
      exact Or.inl (isSpace_iff.1 hspace)
  all_goals
    rintro rfl
    exact absurd hc (by decide)

end ProbablePrime.Json
