/-
  ProbablePrime.Log.Pattern.Mode — how the text of a pattern is to be understood.

  Characters are matched in one of two modes.  The mode of characters knows no classes by property,
  no letters of either case and no bounds of words, for all of these take tables that a filter does
  without.  The mode of bytes knows them for ASCII, and may not match half a character.
-/
import ProbablePrime.Text.Blank

namespace ProbablePrime.Log.Pattern

open Text (isBlank)

/-- How the text that follows is to be understood. -/
structure Mode where
  /-- Characters are matched, not bytes. -/
  unicode : Bool
  /-- A letter stands for both of its cases. -/
  anyCase : Bool
  /-- Blanks do not count, nor does what follows the sign `#` on a line. -/
  spaced : Bool
  deriving DecidableEq, Repr

/-- The text behind blanks and comments; `inComment` says that a comment is open. -/
def skipComments : (inComment : Bool) → List Char → List Char
  | _, [] => []
  | true, c :: text => skipComments (c != '\n') text
  | false, c :: text =>
    if c = '#' then skipComments true text
    else if isBlank c then skipComments false text
    else c :: text

namespace Mode

/-- The mode at the beginning of a pattern. -/
def initial : Mode := ⟨true, false, false⟩

/-- The text from where it counts on. -/
def skip (mode : Mode) (text : List Char) : List Char :=
  if mode.spaced then skipComments false text else text

/-- The character that a glance ahead takes for the next one.  It passes blanks and the sign of a
comment, but not the comment itself. -/
def glance (mode : Mode) (text : List Char) : Option Char :=
  if mode.spaced then
    match text.dropWhile isBlank with
    | '#' :: rest => (rest.dropWhile isBlank).head?
    | rest => rest.head?
  else
    text.head?

/-- The mode behind the letter of a flag, which is set or unset; some flags have no influence on
what is a pattern. -/
def set? (mode : Mode) (value : Bool) : Char → Option Mode
  | 'u' => some { mode with unicode := value }
  | 'i' => some { mode with anyCase := value }
  | 'x' => some { mode with spaced := value }
  | 'm' | 's' | 'U' | 'R' => some mode
  | _ => none

end Mode

end ProbablePrime.Log.Pattern
