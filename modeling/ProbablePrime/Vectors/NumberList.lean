/-
  ProbablePrime.Vectors.NumberList — lists of numbers in JSON.

  An element is a whole number of 64 bits without a sign, or a text that holds a number of any size
  with white space around it.  The whole list is read before any text is made a number.
-/
import ProbablePrime.Json.Reader
import ProbablePrime.Text.Blank
import ProbablePrime.Vectors.Error

namespace ProbablePrime.Vectors

open Json (Care Fault Found Reader beginsNumber readNumber readText skipSpace)

/-! ## §1. Elements. -/

/-- An element of a list of numbers. -/
inductive Numeral where
  /-- A number. -/
  | integer (n : Nat)
  /-- A text, not yet known to hold a number. -/
  | text (value : List Char)
  deriving DecidableEq, Repr

namespace Numeral

/-- Passes over a value that is no element; the list around it is open. -/
def refuse (text : List Char) : Fault :=
  match (Care.close 1).pass text with
  | .error fault => fault
  | .ok rest => .pending .notNumeral rest

/-- Reads an element, behind space. -/
def take (text : List Char) : Except Fault (Numeral × List Char) :=
  match skipSpace text with
  | '"' :: rest =>
    match readText rest with
    | .error fault => .error fault
    | .ok (value, rest) => .ok (.text value, rest)
  | rest =>
    if rest.head?.any beginsNumber then
      match readNumber rest with
      | .error fault => .error fault
      | .ok (.natural n, rest) => .ok (.integer n, rest)
      | .ok (_, rest) => .error (.pending .notNumeral rest)
    else
      .error (refuse rest)

theorem take_shorter {text rest : List Char} {numeral : Numeral}
    (h : take text = .ok (numeral, rest)) : rest.length < text.length := by
  unfold take at h
  have := Json.length_skipSpace_le text
  split at h
  · next hs =>
    rw [hs, List.length_cons] at this
    split at h
    · cases h
    · next hr =>
      have := Json.readText_shorter hr
      simp only [Except.ok.injEq, Prod.mk.injEq] at h
      obtain ⟨-, rfl⟩ := h
      omega
  · split at h
    · split at h
      · cases h
      · next hr =>
        have := Json.readNumber_shorter hr
        simp only [Except.ok.injEq, Prod.mk.injEq] at h
        obtain ⟨-, rfl⟩ := h
        omega
      · cases h
    · cases h

/-- Reads elements. -/
def reader : Reader Numeral := ⟨take, take_shorter⟩

/-- The number that an element denotes. -/
def value : Numeral → Except VectorError Nat
  | integer n => .ok n
  | text value =>
    match Number.ofText? (Text.trim value) with
    | some n => .ok n
    | none => .error (.invalidNumber (String.ofList value))

end Numeral

/-! ## §2. Lists. -/

/-- The numbers of a list. -/
def parseList (json : String) : Except VectorError (List Nat) :=
  match Numeral.reader.list.readAll json.toList with
  | .error refusal => .error (.json refusal)
  | .ok numerals => numerals.mapM Numeral.value

end ProbablePrime.Vectors
