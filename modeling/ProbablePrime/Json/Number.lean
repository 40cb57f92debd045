/-
  ProbablePrime.Json.Number — numbers.

  A number is first read as a `Numeral`, the digits of its parts, and then valued.  Whole numbers
  that fit 64 bits are kept exactly.  All others become doubles: as many leading digits as fit
  64 bits are kept, the others only count for the power of ten, and the power is applied by one
  multiplication or division after another, so the last digit of the result may be off.

  Reading leaves less than it was given (`readNumeral_shorter`).
-/
import ProbablePrime.Decimal.FloatText
import ProbablePrime.Json.Fault
import ProbablePrime.Number.Size

namespace ProbablePrime.Json

open ProbablePrime.Number (wordLimit)
open ProbablePrime.Text (byteSize)

/-! ## §1. Numerals. -/

/-- The digits of an exponent and whether a minus sign is in front of them. -/
structure Exponent where
  /-- Whether a minus sign is in front. -/
  negative : Bool
  /-- The digits, at least one. -/
  digits : List Char
  deriving DecidableEq, Repr

/-- The parts of a number as it is written. -/
structure Numeral where
  /-- Whether a minus sign is in front. -/
  negative : Bool
  /-- The digits in front of the point. -/
  whole : List Char
  /-- The digits behind the point; none if there is no point. -/
  fraction : List Char
  /-- The exponent, if there is one. -/
  exponent : Option Exponent
  deriving DecidableEq, Repr

/-- The digits at the beginning of a text. -/
def leadingDigits (text : List Char) : List Char := text.takeWhile Char.isDigit

/-- The text behind the digits at its beginning. -/
def afterDigits (text : List Char) : List Char := text.dropWhile Char.isDigit

/-- Reads the digits of an exponent; `cut` is the problem if the text ends in front of them. -/
def readExponentDigits (cut : Problem) (negative : Bool) (text : List Char) :
    Except Fault (Exponent × List Char) :=
  match text with
  | [] => .error (.before [] cut)
  | c :: _ =>
    if c.isDigit then .ok (⟨negative, leadingDigits text⟩, afterDigits text)
    else .error (.behind text .badNumber)

/-- Reads an exponent if there is one. -/
def readExponent (cut : Problem) (text : List Char) : Except Fault (Option Exponent × List Char) :=
  let digits (negative : Bool) (rest : List Char) :=
    match readExponentDigits cut negative rest with
    | .error fault => .error fault
    | .ok (exponent, rest) => .ok (some exponent, rest)
  let signed (rest : List Char) :=
    match rest with
    | '+' :: rest => digits false rest
    | '-' :: rest => digits true rest
    | rest => digits false rest
  match text with
  | 'e' :: rest => signed rest
  | 'E' :: rest => signed rest
  | text => .ok (none, text)

/-- Reads a point and the digits behind it if there is a point. -/
def readFraction (cut : Problem) (text : List Char) : Except Fault (List Char × List Char) :=
  match text with
  | ['.'] => .error (.before [] cut)
  | '.' :: c :: rest =>
    if c.isDigit then .ok (leadingDigits (c :: rest), afterDigits (c :: rest))
    else .error (.behind (c :: rest) .badNumber)
  | text => .ok ([], text)

/-- Reads the digits in front of the point: a zero alone, or digits that do not begin with one. -/
def readWhole (cut : Problem) (text : List Char) : Except Fault (List Char × List Char) :=
  match text with
  | [] => .error (.before [] cut)
  | '0' :: rest =>
    if rest.head?.any Char.isDigit then .error (.behind rest .badNumber) else .ok (['0'], rest)
  | c :: _ =>
    if c.isDigit then .ok (leadingDigits text, afterDigits text)
    else .error (.behind text .badNumber)

/-- Reads a number without its sign. -/
def readUnsigned (cut : Problem) (negative : Bool) (text : List Char) :
    Except Fault (Numeral × List Char) :=
  match readWhole cut text with
  | .error fault => .error fault
  | .ok (whole, text) =>
    match readFraction cut text with
    | .error fault => .error fault
    | .ok (fraction, text) =>
      match readExponent cut text with
      | .error fault => .error fault
      | .ok (exponent, text) => .ok (⟨negative, whole, fraction, exponent⟩, text)

/-- Reads a number; `cut` is the problem if the text ends where a digit has to follow. -/
def readNumeral (cut : Problem) (text : List Char) : Except Fault (Numeral × List Char) :=
  match text with
  | '-' :: rest => readUnsigned cut true rest
  | text => readUnsigned cut false text

theorem length_afterDigits_le (text : List Char) : (afterDigits text).length ≤ text.length :=
  (List.dropWhile_sublist _).length_le

theorem length_afterDigits_lt {c : Char} (h : c.isDigit = true) (text : List Char) :
    (afterDigits (c :: text)).length < (c :: text).length := by
  have := length_afterDigits_le text
  simp only [afterDigits, List.dropWhile_cons, h, if_true, List.length_cons] at *
  omega

theorem readWhole_shorter {cut : Problem} {text digits rest : List Char}
    (h : readWhole cut text = .ok (digits, rest)) : rest.length < text.length := by
  unfold readWhole at h
  split at h
  · cases h
  · split at h
    · cases h
    · simp only [Except.ok.injEq, Prod.mk.injEq] at h
      obtain ⟨-, rfl⟩ := h
      exact Nat.lt_succ_self _
  · split at h
    · next hd =>
      simp only [Except.ok.injEq, Prod.mk.injEq] at h
      obtain ⟨-, rfl⟩ := h
      exact length_afterDigits_lt hd _
    · cases h

theorem readFraction_le {cut : Problem} {text digits rest : List Char}
    (h : readFraction cut text = .ok (digits, rest)) : rest.length ≤ text.length := by
  unfold readFraction at h
  split at h
  · cases h
  · split at h
    · next hd =>
      simp only [Except.ok.injEq, Prod.mk.injEq] at h
      obtain ⟨-, rfl⟩ := h
      exact Nat.le_succ_of_le (Nat.le_of_lt (length_afterDigits_lt hd _))
    · cases h
  · simp only [Except.ok.injEq, Prod.mk.injEq] at h
    obtain ⟨-, rfl⟩ := h
    exact Nat.le_refl _

theorem readExponentDigits_le {cut : Problem} {negative : Bool} {text rest : List Char}
    {exponent : Exponent} (h : readExponentDigits cut negative text = .ok (exponent, rest)) :
    rest.length ≤ text.length := by
  unfold readExponentDigits at h
  split at h
  · cases h
  · split at h
    · simp only [Except.ok.injEq, Prod.mk.injEq] at h
      obtain ⟨-, rfl⟩ := h
      exact length_afterDigits_le _
    · cases h

theorem readExponent_le {cut : Problem} {text rest : List Char} {exponent : Option Exponent}
    (h : readExponent cut text = .ok (exponent, rest)) : rest.length ≤ text.length := by
  have hdigits {negative : Bool} {inner : List Char}
      (h : (match readExponentDigits cut negative inner with
        | .error fault => .error fault
        | .ok (exponent, rest) => .ok (some exponent, rest)) = Except.ok (exponent, rest)) :
      rest.length ≤ inner.length := by
    split at h
    · cases h
    · next hd =>
      simp only [Except.ok.injEq, Prod.mk.injEq] at h
      obtain ⟨-, rfl⟩ := h
      exact readExponentDigits_le hd
  have hsigned {inner : List Char}
      (h : (match inner with
        | '+' :: rest => (match readExponentDigits cut false rest with
          | .error fault => .error fault
          | .ok (exponent, rest) => .ok (some exponent, rest))
        | '-' :: rest => (match readExponentDigits cut true rest with
          | .error fault => .error fault
          | .ok (exponent, rest) => .ok (some exponent, rest))
        | rest => (match readExponentDigits cut false rest with
          | .error fault => .error fault
          | .ok (exponent, rest) => .ok (some exponent, rest))) = Except.ok (exponent, rest)) :
      rest.length ≤ inner.length := by
    split at h
    · exact Nat.le_succ_of_le (hdigits h)
    · exact Nat.le_succ_of_le (hdigits h)
    · exact hdigits h
  unfold readExponent at h
  split at h
  · exact Nat.le_succ_of_le (hsigned h)
  · exact Nat.le_succ_of_le (hsigned h)
  · simp only [Except.ok.injEq, Prod.mk.injEq] at h
    obtain ⟨-, rfl⟩ := h
    exact Nat.le_refl _

theorem readUnsigned_shorter {cut : Problem} {negative : Bool} {text rest : List Char}
    {numeral : Numeral} (h : readUnsigned cut negative text = .ok (numeral, rest)) :
    rest.length < text.length := by
  unfold readUnsigned at h
  split at h
  · cases h
  · next hw =>
    have := readWhole_shorter hw
    split at h
    · cases h
    · next hf =>
      have := readFraction_le hf
      split at h
      · cases h
      · next he =>
        have := readExponent_le he
        simp only [Except.ok.injEq, Prod.mk.injEq] at h
        obtain ⟨-, rfl⟩ := h
        omega

theorem readNumeral_shorter {cut : Problem} {text rest : List Char} {numeral : Numeral}
    (h : readNumeral cut text = .ok (numeral, rest)) : rest.length < text.length := by
  unfold readNumeral at h
  split at h
  · exact Nat.lt_succ_of_lt (readUnsigned_shorter h)
  · exact readUnsigned_shorter h

/-! ## §2. Values. -/

/-- The value of a number. -/
inductive Number where
  /-- A whole number from zero up to what 64 bits hold. -/
  | natural (value : Nat)
  /-- A number below zero down to what 64 bits with a sign hold. -/
  | negative (value : Int)
  /-- Any other number. -/
  | floating (value : Float)
  deriving Repr

/-- How a double is printed where it is not wanted. -/
def floatLayout : Decimal.Layout := ⟨-5, 15⟩

/-- A number as what was found. -/
def Number.found : Number → Found
  | .natural value => .integer value
  | .negative value => .integer value
  | .floating value => .floating (Decimal.floatText floatLayout value)

/-- Appends digits to `n` as long as the result fits 64 bits; gives the result and the digits that
were not taken. -/
def appendDigits (n : Nat) : List Char → Nat × List Char
  | [] => (n, [])
  | c :: digits =>
    let next := n * 10 + (c.toNat - '0'.toNat)
    if next < wordLimit then appendDigits next digits else (n, c :: digits)

/-- The value of exponent digits in 32 bits with a sign, or the number of digits behind the one
that is too many. -/
def exponentValue (n : Nat) : List Char → Except Nat Nat
  | [] => .ok n
  | c :: digits =>
    let next := n * 10 + (c.toNat - '0'.toNat)
    if next < 0x80000000 then exponentValue next digits else .error digits.length

/-- The product of `x` and a power of ten, which a double holds up to `10 ^ 308` and which is
applied piece by piece below that; `none` beyond all doubles. -/
def scale (x : Float) (power : Int) : Option Float :=
  if power.natAbs ≤ 308 then
    if 0 ≤ power then
      let scaled := x * Float.ofScientific 1 false power.toNat
      if scaled.isInf then none else some scaled
    else
      some (x / Float.ofScientific 1 false power.natAbs)
  else if x == 0 then
    some x
  else if 0 ≤ power then
    none
  else
    scale (x / Float.ofScientific 1 false 308) (power + 308)
termination_by power.natAbs

/-- The double `x` with the sign of a numeral. -/
def Numeral.signed (numeral : Numeral) (x : Float) : Number :=
  .floating (if numeral.negative then -x else x)

/-- The value of a numeral without point and exponent whose digits fit 64 bits. -/
def Numeral.wholeValue (numeral : Numeral) (n : Nat) : Number :=
  if !numeral.negative then .natural n
  -- Zero keeps its sign only as a double, and so does what is below the words with a sign.
  else if 0 < n ∧ n ≤ 0x8000000000000000 then .negative (-n)
  else numeral.signed n.toUInt64.toFloat

/-- The value of a numeral.  One that is too large gives the number of exponent digits that were not
looked at when this was found. -/
def Numeral.value (numeral : Numeral) : Except Nat Number :=
  let (wholes, dropped) := appendDigits 0 numeral.whole
  if numeral.fraction.isEmpty && numeral.exponent.isNone && dropped.isEmpty then
    .ok (numeral.wholeValue wholes)
  else
    let (significand, lost) := appendDigits wholes numeral.fraction
    -- Digits lost in front of the point raise the power; those kept behind it lower it.
    let power : Int := dropped.length - (numeral.fraction.length - lost.length : Nat)
    let scaled (power : Int) : Except Nat Number :=
      match scale significand.toUInt64.toFloat power with
      | some x => .ok (numeral.signed x)
      | none => .error 0
    match numeral.exponent with
    | none => scaled power
    | some exponent =>
      match exponentValue 0 exponent.digits with
      | .ok e => scaled (if exponent.negative then power - e else power + e)
      | .error unseen =>
        -- An exponent of this size makes everything infinite or zero.
        if significand ≠ 0 ∧ !exponent.negative then .error unseen else .ok (numeral.signed 0)

/-- Reads a number with its value. -/
def readNumber (text : List Char) : Except Fault (Number × List Char) :=
  match readNumeral .endInValue text with
  | .error fault => .error fault
  | .ok (numeral, rest) =>
    match numeral.value with
    | .ok number => .ok (number, rest)
    | .error unseen => .error (.placed .numberOutOfRange (byteSize rest + unseen))

/-- Passes over a number of any size. -/
def passNumber (text : List Char) : Except Fault (List Char) :=
  match readNumeral .badNumber text with
  | .error fault => .error fault
  | .ok (_, rest) => .ok rest

theorem readNumber_shorter {text rest : List Char} {number : Number}
    (h : readNumber text = .ok (number, rest)) : rest.length < text.length := by
  unfold readNumber at h
  split at h
  · cases h
  · next hn =>
    split at h
    · simp only [Except.ok.injEq, Prod.mk.injEq] at h
      obtain ⟨-, rfl⟩ := h
      exact readNumeral_shorter hn
    · cases h

theorem passNumber_shorter {text rest : List Char}
    (h : passNumber text = .ok rest) : rest.length < text.length := by
  unfold passNumber at h
  split at h
  · cases h
  · next hn =>
    obtain rfl := Except.ok.inj h
    exact readNumeral_shorter hn

end ProbablePrime.Json
