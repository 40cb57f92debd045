/-
  ProbablePrime.Proofs.Json.Written — what is written is JSON of the grammar.

  Texts are written without escapes and everything without space, so what is written is one of the ways
  in which the grammar allows to write it, whatever stands behind it.

  Main results:
    * `decimalText_toDigits` and `wordText_toDigits` — numbers;
    * `listOf_writtenList` — lists of what is written;
    * `objectOf_writtenObject` — objects of what is written.
-/
import ProbablePrime.Json.Written
import ProbablePrime.Proofs.Json.Scalar

namespace ProbablePrime.Json

variable {γ : Type} {item : γ → List Char → List Char → Prop} {bracket : Bracket}
  {text : List Char} {texts : List (List Char)} {gs : List γ}

/-! ## §1. Scalars. -/

/-- The text is an item of the grammar, whatever stands behind it. -/
def Writes (item : γ → List Char → List Char → Prop) (g : γ) (text : List Char) : Prop :=
  ∀ rest, item g (text ++ rest) rest

/-- Whether a character stands for itself between quotes. -/
def isPlain (c : Char) : Bool := c != '"' && c != '\\' && decide (0x20 ≤ c.toNat)

/-- A text whose characters stand for themselves. -/
theorem quotedText_of_plain (h : ∀ c ∈ text, isPlain c = true) :
    Writes QuotedText text ('"' :: (text ++ ['"'])) := by
  intro rest
  refine ⟨text ++ '"' :: rest, by simp, ?_⟩
  induction text with
  | nil => exact .close
  | cons c text ih =>
    obtain ⟨⟨hquote, hslash⟩, hcontrol⟩ : (c ≠ '"' ∧ c ≠ '\\') ∧ 0x20 ≤ c.toNat := by
      simpa [isPlain] using h c List.mem_cons_self
    exact .plain hquote hslash hcontrol (ih fun c hc => h c (List.mem_cons_of_mem _ hc))

theorem isDigit_of_mem_toDigits {n : Nat} {c : Char} (hc : c ∈ Nat.toDigits 10 n) :
    c.isDigit = true :=
  Nat.isDigit_of_mem_toDigits (by decide) (by decide) hc

theorem isPlain_of_isDigit {c : Char} (h : c.isDigit = true) : isPlain c = true := by
  have hbounds : 48 ≤ c.toNat ∧ c.toNat ≤ 57 := Char.isDigit_iff_toNat.1 h
  have hquote : c ≠ '"' := by
    rintro rfl
    exact absurd h (by decide)
  have hslash : c ≠ '\\' := by
    rintro rfl
    exact absurd h (by decide)
  have hcontrol : 0x20 ≤ c.toNat := by omega
  simp [isPlain, hquote, hslash, hcontrol]

/-- The digits of a number, as a text. -/
theorem decimalText_toDigits (n : Nat) :
    Writes DecimalText n ('"' :: (Nat.toDigits 10 n ++ ['"'])) := by
  intro rest
  refine ⟨Nat.toDigits 10 n, quotedText_of_plain ?_ rest, Number.isDecimal_toDigits n⟩
  intro c hc
  exact isPlain_of_isDigit (isDigit_of_mem_toDigits hc)

/-- The digits of a number that is not zero do not begin with one. -/
theorem head?_toDigits_ne_zero {n : Nat} (hn : n ≠ 0) : (Nat.toDigits 10 n).head? ≠ some '0' := by
  induction n using Nat.strong_induction_on with
  | _ n ih =>
    by_cases hlt : n < 10
    · rw [Nat.toDigits_of_lt_base hlt]
      interval_cases n <;> first | contradiction | decide
    · have hfront := ih (n / 10) (by omega) (by omega)
      obtain ⟨c, tail, hcons⟩ :=
        List.exists_cons_of_ne_nil (show Nat.toDigits 10 (n / 10) ≠ [] by simp)
      rw [Nat.toDigits_of_base_le (by decide) (by omega), hcons]
      rw [hcons] at hfront
      exact hfront

theorem wholePart_toDigits (n : Nat) : WholePart (Nat.toDigits 10 n) := by
  by_cases hn : n = 0
  · exact Or.inl (by rw [hn, Nat.toDigits_zero])
  · refine Or.inr ⟨⟨by simp, fun c hc => isDigit_of_mem_toDigits hc⟩, head?_toDigits_ne_zero hn⟩

/-- The digits of a number of 64 bits. -/
theorem wordText_toDigits {n : Nat} (hn : n < 2 ^ 64) : Writes WordText n (Nat.toDigits 10 n) := by
  intro rest
  exact ⟨Nat.toDigits 10 n, wholePart_toDigits n, Nat.ofDigitChars_toDigits (by decide) (by decide),
    hn, rfl⟩

/-! ## §2. Lists and objects. -/

/-- Texts with commas in between are the first text and, for each of the others, a comma and it. -/
theorem intercalate_comma (text : List Char) (texts : List (List Char)) :
    [','].intercalate (text :: texts) = text ++ texts.flatMap (',' :: ·) := by
  induction texts generalizing text with
  | nil => simp [List.intercalate]
  | cons next texts ih =>
    rw [List.intercalate_cons_cons, ih, List.flatMap_cons, List.append_assoc]
    rfl

/-- Items that are written one behind the other, with a comma in front of each. -/
theorem items_later (h : List.Forall₂ (Writes item) gs texts) (rest : List Char) :
    Items item bracket false gs (texts.flatMap (',' :: ·) ++ bracket.closer :: rest) rest := by
  induction h with
  | nil => exact .closed (Space.refl _)
  | @cons g text gs texts hitem _ ih =>
    rw [List.flatMap_cons, List.append_assoc]
    exact .later (Space.refl _) (Space.refl _) (hitem _) ih

/-- Items that are written with commas in between. -/
theorem items_intercalate (h : List.Forall₂ (Writes item) gs texts) (rest : List Char) :
    Items item bracket true gs ([','].intercalate texts ++ bracket.closer :: rest) rest := by
  cases h with
  | nil => exact .closed (Space.refl _)
  | @cons g text gs texts hitem hothers =>
    rw [intercalate_comma, List.append_assoc]
    exact .first (Space.refl _) (hitem _) (items_later hothers rest)

theorem toList_writtenText (text : String) :
    (writtenText text).toList = '"' :: (text.toList ++ ['"']) := by
  simp [writtenText]

/-- **A written list is a list of the grammar.** -/
theorem listOf_writtenList {values : List String}
    (h : List.Forall₂ (fun g value => Writes item g value.toList) gs values) :
    Writes (ListOf item) gs (writtenList values).toList := by
  intro rest
  refine ⟨[','].intercalate (values.map String.toList) ++ ']' :: rest, ?_, ?_⟩
  · simp [writtenList, String.toList_intercalate]
  · exact items_intercalate (List.forall₂_map_right_iff.2 h) rest

/-- A written member is a member of the grammar. -/
theorem member_writtenMember {names : List String} {value : String → γ → List Char → List Char → Prop}
    {name written : String} {g : γ} (hname : name ∈ names)
    (hplain : name.toList.all isPlain = true)
    (hvalue : Writes (value name) g written.toList) :
    Writes (Member names value) (some (name, g)) (writtenMember name written).toList := by
  intro rest
  have htext : (writtenMember name written).toList ++ rest
      = '"' :: (name.toList ++ ['"']) ++ ':' :: (written.toList ++ rest) := by
    simp [writtenMember, toList_writtenText]
  rw [htext]
  exact .asked hname (quotedText_of_plain (List.all_eq_true.1 hplain) _) (Space.refl _) (Space.refl _) (hvalue rest)

/-- **A written object is an object of the grammar.** -/
theorem objectOf_writtenObject {names : List String}
    {value : String → γ → List Char → List Char → Prop} {members : List (Option (String × γ))}
    {written : List String}
    (h : List.Forall₂ (fun member value' => Writes (Member names value) member value'.toList) members
      written) :
    Writes (ObjectOf names value) members (writtenObject written).toList := by
  intro rest
  refine ⟨[','].intercalate (written.map String.toList) ++ '\x7d' :: rest, ?_, ?_⟩
  · simp [writtenObject, String.toList_intercalate]
  · exact items_intercalate (List.forall₂_map_right_iff.2 h) rest

end ProbablePrime.Json
