/-
  ProbablePrime.Log.Pattern.Atom — single places of a pattern.

  A place stands for a character, for one of a class, or for a condition between two characters.
  Which of them may stand where depends on the mode.
-/
import ProbablePrime.Log.Pattern.Mode
import ProbablePrime.Text.Hex

namespace ProbablePrime.Log.Pattern

open Text (hexDigit?)

/-! ## §1. Atoms. -/

/-- What a place in a pattern stands for. -/
inductive Atom where
  /-- A character; `byByte` says that it is written by the two digits of a byte. -/
  | literal (c : Char) (byByte : Bool)
  /-- The digits, the blanks or the word characters, or all that are not. -/
  | shortClass (negated : Bool)
  /-- The beginning or the end of the text. -/
  | edge
  /-- A bound of a word, or a place that is none. -/
  | wordBound
  deriving DecidableEq, Repr

/-- Whether an atom may stand outside of brackets. -/
def Mode.admits (mode : Mode) : Atom → Bool
  | .literal c byByte => if mode.unicode then !mode.anyCase else !(byByte && 128 ≤ c.toNat)
  | .shortClass negated => !mode.unicode && !negated
  | .edge => true
  | .wordBound => !mode.unicode

/-- Whether an atom may stand in brackets. -/
def Mode.admitsInClass (mode : Mode) : Atom → Bool
  | .literal c _ => if mode.unicode then !mode.anyCase else c.toNat < 128
  | .shortClass negated => !mode.unicode && !negated
  | .edge | .wordBound => false

/-- Whether two atoms are the ends of a range. -/
def Mode.admitsRange (mode : Mode) : Atom → Atom → Bool
  | .literal first byByte, .literal last byByte' =>
    mode.admitsInClass (.literal first byByte) && mode.admitsInClass (.literal last byByte') &&
      first ≤ last
  | _, _ => false

/-! ## §2. Escapes. -/

/-- Reads `count` hexadecimal digits behind those that make up `n`. -/
def readDigits (mode : Mode) : (count n : Nat) → List Char → Option (Nat × List Char)
  | 0, n, text => some (n, text)
  | count + 1, n, text =>
    match mode.skip text with
    | [] => none
    | c :: rest =>
      match hexDigit? c with
      | some digit => readDigits mode count (n * 16 + digit) rest
      | none => none

/-- Reads a character that is written by `count` digits of its code point. -/
def readCode (mode : Mode) (count : Nat) (text : List Char) : Option (Atom × List Char) :=
  match readDigits mode count 0 text with
  | none => none
  | some (n, rest) =>
    if n.isValidChar then some (.literal (Char.ofNat n) (count == 2), rest) else none

/-- The character that stands for itself behind a backslash, as the signs of ASCII do but for two,
or that a letter stands for there. -/
def escaped? (c : Char) : Option Char :=
  match c with
  | 'a' => some '\x07'
  | 'f' => some '\x0c'
  | 'n' => some '\n'
  | 'r' => some '\r'
  | 't' => some '\t'
  | 'v' => some '\x0b'
  | c => if c.toNat < 128 && !c.isAlphanum && c != '<' && c != '>' then some c else none

/-- Reads what follows a backslash. -/
def readEscape (mode : Mode) (text : List Char) : Option (Atom × List Char) :=
  match text with
  | [] => none
  | 'x' :: rest => readCode mode 2 rest
  | 'u' :: rest => readCode mode 4 rest
  | 'U' :: rest => readCode mode 8 rest
  -- A brace behind a bound wants its closing brace, whether it names the bound or counts.
  | 'b' :: '\x7b' :: _ => none
  | c :: rest =>
    match c with
    | 'd' | 's' | 'w' => some (.shortClass false, rest)
    | 'D' | 'S' | 'W' => some (.shortClass true, rest)
    | 'A' | 'z' => some (.edge, rest)
    | 'b' | 'B' | '<' | '>' => some (.wordBound, rest)
    | c => (escaped? c).map fun c => (.literal c false, rest)

end ProbablePrime.Log.Pattern
