/-
  ProbablePrime.Json.Bracket — what stands between the brackets of lists and objects.

  Inside a bracket a reader is either in front of the closing bracket or in front of the next item,
  and between two items there is exactly one comma.  `nextItem` finds out which, for lists and
  objects alike; it leaves no more than it was given, and less when the bracket is closed.
-/
import ProbablePrime.Json.Fault
import ProbablePrime.Json.Space

namespace ProbablePrime.Json

/-! ## §1. Brackets. -/

/-- What is open around a place. -/
inductive Bracket where
  /-- A list. -/
  | list
  /-- An object. -/
  | object
  deriving DecidableEq, Repr

namespace Bracket

/-- The character that closes a bracket. -/
def closer : Bracket → Char
  | list => ']'
  | object => '\x7d'

/-- The problem with a text that ends inside a bracket. -/
def endProblem : Bracket → Problem
  | list => .endInList
  | object => .endInObject

/-- The problem with an item that is followed by neither a comma nor the closing bracket. -/
def separatorProblem : Bracket → Problem
  | list => .noListSeparator
  | object => .noObjectSeparator

end Bracket

/-! ## §2. Items. -/

/-- How closely a value is checked. -/
inductive Care where
  /-- As a value that is kept, or might have been; it stands inside `outer` lists and objects. -/
  | close (outer : Nat)
  /-- As a value that nobody asked for: the depth, the size of numbers and the pairing of surrogates
  do not matter, and what follows a comma is taken for an item whatever it is. -/
  | loose
  deriving DecidableEq, Repr

/-- What comes next inside a bracket. -/
inductive Next where
  /-- The bracket is closed; `rest` follows the closing bracket. -/
  | closed (rest : List Char)
  /-- An item begins with `text`. -/
  | item (text : List Char)
  deriving DecidableEq, Repr

/-- Finds the item behind a comma. -/
def Care.itemAfterComma (care : Care) (bracket : Bracket) (text : List Char) : Except Fault Next :=
  match care, skipSpace text with
  | .loose, rest => .ok (.item rest)
  | .close _, [] => .error (.before [] .endInValue)
  | .close _, c :: rest =>
    if c = bracket.closer then .error (.behind (c :: rest) .trailingComma)
    else .ok (.item (c :: rest))

/-- Finds the next item inside a bracket; `first` says that none has been read yet. -/
def Care.nextItem (care : Care) (bracket : Bracket) (first : Bool) (text : List Char) :
    Except Fault Next :=
  match skipSpace text with
  | [] => .error (.before [] bracket.endProblem)
  | c :: rest =>
    if c = bracket.closer then .ok (.closed rest)
    else if first then .ok (.item (c :: rest))
    else if c = ',' then care.itemAfterComma bracket rest
    else .error (.behind (c :: rest) bracket.separatorProblem)

/-- Reads the colon behind a key. -/
def readColon (text : List Char) : Except Fault (List Char) :=
  match skipSpace text with
  | [] => .error (.before [] .endInObject)
  | ':' :: rest => .ok rest
  | rest => .error (.behind rest .noColon)

theorem Care.itemAfterComma_le {care : Care} {bracket : Bracket} {text item : List Char}
    (h : care.itemAfterComma bracket text = .ok (.item item)) : item.length ≤ text.length := by
  unfold Care.itemAfterComma at h
  have := length_skipSpace_le text
  split at h
  · obtain rfl := Next.item.inj (Except.ok.inj h)
    exact this
  · cases h
  · next hs =>
    split at h
    · cases h
    · obtain rfl := Next.item.inj (Except.ok.inj h)
      rwa [hs] at this

theorem Care.itemAfterComma_ne_closed {care : Care} {bracket : Bracket} {text rest : List Char} :
    care.itemAfterComma bracket text ≠ .ok (.closed rest) := by
  unfold Care.itemAfterComma
  split
  · simp
  · simp
  · split <;> simp

theorem Care.nextItem_closed_shorter {care : Care} {bracket : Bracket} {first : Bool}
    {text rest : List Char} (h : care.nextItem bracket first text = .ok (.closed rest)) :
    rest.length < text.length := by
  unfold Care.nextItem at h
  have := length_skipSpace_le text
  split at h
  · cases h
  · next hs =>
    rw [hs, List.length_cons] at this
    split at h
    · obtain rfl := Next.closed.inj (Except.ok.inj h)
      omega
    · split at h
      · cases h
      · split at h
        · exact absurd h Care.itemAfterComma_ne_closed
        · cases h

theorem Care.nextItem_item_le {care : Care} {bracket : Bracket} {first : Bool}
    {text item : List Char} (h : care.nextItem bracket first text = .ok (.item item)) :
    item.length ≤ text.length := by
  unfold Care.nextItem at h
  have := length_skipSpace_le text
  split at h
  · cases h
  · next hs =>
    rw [hs] at this
    split at h
    · cases h
    · split at h
      · obtain rfl := Next.item.inj (Except.ok.inj h)
        exact this
      · split at h
        · exact Nat.le_trans (Care.itemAfterComma_le h) (Nat.le_of_succ_le this)
        · cases h

/-- Behind an item that is not the first there is a comma in front of the next one. -/
theorem Care.nextItem_later_shorter {care : Care} {bracket : Bracket} {text item : List Char}
    (h : care.nextItem bracket false text = .ok (.item item)) : item.length < text.length := by
  unfold Care.nextItem at h
  have := length_skipSpace_le text
  split at h
  · cases h
  · next hs =>
    rw [hs, List.length_cons] at this
    split at h
    · cases h
    · split at h
      · contradiction
      · split at h
        · have := Care.itemAfterComma_le h
          omega
        · cases h

theorem readColon_shorter {text rest : List Char} (h : readColon text = .ok rest) :
    rest.length < text.length := by
  unfold readColon at h
  have := length_skipSpace_le text
  split at h
  · cases h
  · next hs =>
    obtain rfl := Except.ok.inj h
    rw [hs, List.length_cons] at this
    omega
  · cases h

end ProbablePrime.Json
