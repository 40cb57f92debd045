/-
  ProbablePrime.Number.Decimal — numbers read from decimal text.

  A number may have a plus sign in front, and underscores between and after its digits.
  `ofText?_eq_some_iff` says which texts these are, and `isDecimal_toDigits` that the plain digits of a
  number are one of them.
-/
namespace ProbablePrime.Number

/-- Whether a character may follow the first digit of a number. -/
def isDigitOrUnderscore (c : Char) : Bool := c.isDigit || c == '_'

/-- The text without one plus sign at its beginning. -/
def dropPlus : List Char → List Char
  | '+' :: text => text
  | text => text

/-- The number that a text denotes: an optional plus sign, a digit, then digits and underscores. -/
def ofText? (text : List Char) : Option Nat :=
  match dropPlus text with
  | [] => none
  | c :: rest =>
    if c.isDigit && rest.all isDigitOrUnderscore then
      some (Nat.ofDigitChars 10 (c :: rest.filter (· != '_')) 0)
    else
      none

/-- A text that denotes `n`: an optional plus sign, a digit, then digits and underscores, which do not
count. -/
def IsDecimal (text : List Char) (n : Nat) : Prop :=
  ∃ sign c rest, (sign = [] ∨ sign = ['+']) ∧ text = sign ++ c :: rest ∧ c.isDigit = true
    ∧ (∀ x ∈ rest, x.isDigit = true ∨ x = '_')
    ∧ n = Nat.ofDigitChars 10 ((c :: rest).filter (· != '_')) 0

/-- Only one plus sign is taken off, and no digit. -/
theorem dropPlus_of_isDigit {c : Char} (hc : c.isDigit = true) (rest : List Char) :
    dropPlus (c :: rest) = c :: rest := by
  unfold dropPlus
  split
  · next h =>
    obtain ⟨rfl, -⟩ := List.cons.inj h
    exact absurd hc (by decide)
  · rfl

/-- **The texts that denote numbers**, and the numbers. -/
theorem ofText?_eq_some_iff {text : List Char} {n : Nat} : ofText? text = some n ↔ IsDecimal text n := by
  have hfilter {c : Char} (hc : c.isDigit = true) (rest : List Char) :
      (c :: rest).filter (· != '_') = c :: rest.filter (· != '_') := by
    refine List.filter_cons_of_pos (bne_iff_ne.2 ?_)
    rintro rfl
    exact absurd hc (by decide)
  have hrest {rest : List Char} :
      rest.all isDigitOrUnderscore = true ↔ ∀ x ∈ rest, x.isDigit = true ∨ x = '_' := by
    simp [isDigitOrUnderscore]
  constructor
  · intro h
    unfold ofText? at h
    split at h
    · cases h
    · next c rest hdrop =>
      split at h
      · next hdigits =>
        rw [Bool.and_eq_true, hrest] at hdigits
        obtain ⟨hc, hall⟩ := hdigits
        rw [← hfilter hc] at h
        obtain rfl := Option.some.inj h
        unfold dropPlus at hdrop
        split at hdrop
        · exact ⟨['+'], c, rest, Or.inr rfl, by rw [hdrop]; rfl, hc, hall, rfl⟩
        · exact ⟨[], c, rest, Or.inl rfl, hdrop, hc, hall, rfl⟩
      · cases h
  · rintro ⟨sign, c, rest, hsign, rfl, hc, hall, rfl⟩
    have hdrop : dropPlus (sign ++ c :: rest) = c :: rest := by
      rcases hsign with rfl | rfl
      · exact dropPlus_of_isDigit hc rest
      · rfl
    have hdigits : (c.isDigit && rest.all isDigitOrUnderscore) = true := by
      rw [Bool.and_eq_true, hrest]
      exact ⟨hc, hall⟩
    rw [hfilter hc]
    simp only [ofText?, hdrop, hdigits, if_true]

/-- The plain digits of a number denote it. -/
theorem isDecimal_toDigits (n : Nat) : IsDecimal (Nat.toDigits 10 n) n := by
  have hdigit {c : Char} (h : c ∈ Nat.toDigits 10 n) : c.isDigit = true :=
    Nat.isDigit_of_mem_toDigits (by decide) (by decide) h
  have hvalue := Nat.ofDigitChars_toDigits (b := 10) (n := n) (by decide) (by decide)
  have hplain : (Nat.toDigits 10 n).filter (· != '_') = Nat.toDigits 10 n := by
    refine List.filter_eq_self.2 fun x hx => bne_iff_ne.2 ?_
    rintro rfl
    exact absurd (hdigit hx) (by decide)
  cases hn : Nat.toDigits 10 n with
  | nil => simp at hn
  | cons c rest =>
    rw [hn] at hdigit hvalue hplain
    refine ⟨[], c, rest, Or.inl rfl, rfl, hdigit (List.mem_cons_self ..), ?_, ?_⟩
    · intro x hx
      exact Or.inl (hdigit (List.mem_cons_of_mem _ hx))
    · rw [hplain, hvalue]

end ProbablePrime.Number
