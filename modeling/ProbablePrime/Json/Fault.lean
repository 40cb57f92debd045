/-
  ProbablePrime.Json.Fault — what is wrong with a JSON text, and where.

  A reader reports a place by the number of bytes that stand after it, since what is left of the
  text is all a reader sees.  A complaint about what a value means, not about how it is written, is
  pending at first: the list or object around it is closed, as far as that can be done, and the
  complaint is placed there.
-/
import ProbablePrime.Text.Bytes
import ProbablePrime.Text.Quoted

namespace ProbablePrime.Json

open Text (byteSize)

/-! ## §1. Problems. -/

/-- What stands where something else is wanted. -/
inductive Found where
  /-- The word for no value. -/
  | null
  /-- A truth value. -/
  | boolean (value : Bool)
  /-- A whole number. -/
  | integer (value : Int)
  /-- A number that is not kept as a whole number, as it is printed. -/
  | floating (digits : String)
  /-- A text. -/
  | text (value : String)
  /-- A list. -/
  | list
  /-- An object. -/
  | object
  deriving DecidableEq, Repr

/-- The wording of what was found. -/
def Found.message : Found → String
  | .null => "null"
  | .boolean value => s!"boolean `{value}`"
  | .integer value => s!"integer `{value}`"
  | .floating digits => s!"floating point `{digits}`"
  | .text value => s!"string {Text.quoted value}"
  | .list => "sequence"
  | .object => "map"

/-- What a reader wants. -/
inductive Wanted where
  /-- A list. -/
  | list
  /-- A text. -/
  | text
  /-- A whole number of 64 bits without a sign. -/
  | word
  /-- A record of the given name. -/
  | record (name : String)
  deriving DecidableEq, Repr

/-- The wording of what is wanted. -/
def Wanted.message : Wanted → String
  | .list => "a sequence"
  | .text => "a string"
  | .word => "u64"
  | .record name => s!"struct {name}"

/-- What is wrong with a text. -/
inductive Problem where
  /-- The text ends where a value is wanted or not yet complete. -/
  | endInValue
  /-- The text ends inside a list. -/
  | endInList
  /-- The text ends inside an object. -/
  | endInObject
  /-- The text ends inside a quoted text. -/
  | endInText
  /-- No value begins here. -/
  | noValue
  /-- A word begins like `null`, `true` or `false` and goes on differently. -/
  | badWord
  /-- A key is not followed by a colon. -/
  | noColon
  /-- An element is followed neither by a comma nor by the end of the list. -/
  | noListSeparator
  /-- A member is followed neither by a comma nor by the end of the object. -/
  | noObjectSeparator
  /-- A key is not a quoted text. -/
  | noKey
  /-- A comma is followed by the end of the list or object. -/
  | trailingComma
  /-- Something follows where nothing may follow. -/
  | trailingCharacters
  /-- Lists and objects are nested too deep. -/
  | tooDeep
  /-- A number is not written as one. -/
  | badNumber
  /-- A number is beyond all that can be kept. -/
  | numberOutOfRange
  /-- A quoted text holds a control character. -/
  | controlCharacter
  /-- A backslash is followed by something that is no escape. -/
  | badEscape
  /-- Half of a surrogate pair stands alone. -/
  | loneSurrogate
  /-- The first half of a surrogate pair is not followed by an escape. -/
  | noSecondSurrogate
  /-- A value is of the wrong kind. -/
  | wrongType (found : Found) (wanted : Wanted)
  /-- A value is of the right kind and not acceptable. -/
  | wrongValue (found : Found) (wanted : Wanted)
  /-- An element of a list of numbers is neither a whole number nor a text. -/
  | notNumeral
  /-- A text is not a decimal number. -/
  | notDecimal (text : String)
  /-- A record is written as a list of `count` elements, which are too few. -/
  | wrongLength (count : Nat) (name : String) (fields : Nat)
  /-- A record lacks a field. -/
  | missing (key : String)
  /-- A record has a field twice. -/
  | duplicate (key : String)
  deriving DecidableEq, Repr

/-- The wording of a problem. -/
def Problem.message : Problem → String
  | .endInValue => "EOF while parsing a value"
  | .endInList => "EOF while parsing a list"
  | .endInObject => "EOF while parsing an object"
  | .endInText => "EOF while parsing a string"
  | .noValue => "expected value"
  | .badWord => "expected ident"
  | .noColon => "expected `:`"
  | .noListSeparator => "expected `,` or `]`"
  | .noObjectSeparator => "expected `,` or `\x7d`"
  | .noKey => "key must be a string"
  | .trailingComma => "trailing comma"
  | .trailingCharacters => "trailing characters"
  | .tooDeep => "recursion limit exceeded"
  | .badNumber => "invalid number"
  | .numberOutOfRange => "number out of range"
  | .controlCharacter => "control character (\\u0000-\\u001F) found while parsing a string"
  | .badEscape => "invalid escape"
  | .loneSurrogate => "lone leading surrogate in hex escape"
  | .noSecondSurrogate => "unexpected end of hex escape"
  | .wrongType found wanted => s!"invalid type: {found.message}, expected {wanted.message}"
  | .wrongValue found wanted => s!"invalid value: {found.message}, expected {wanted.message}"
  | .notNumeral => "data did not match any variant of untagged enum NumberLiteral"
  | .notDecimal text => s!"invalid decimal integer: {Text.quoted text}"
  | .wrongLength count name fields =>
    s!"invalid length {count}, expected struct {name} with {fields} elements"
  | .missing key => s!"missing field `{key}`"
  | .duplicate key => s!"duplicate field `{key}`"

/-! ## §2. Faults of a reader. -/

/-- Why a reader stopped. -/
inductive Fault where
  /-- A problem at the place that has `left` bytes of the text after it. -/
  | placed (problem : Problem) (left : Nat)
  /-- A problem that gets its place when the list or object around it is closed; `rest` is what the
  reader has left unread. -/
  | pending (problem : Problem) (rest : List Char)
  deriving DecidableEq, Repr

namespace Fault

/-- A problem in front of what is left. -/
def before (rest : List Char) (problem : Problem) : Fault := .placed problem (byteSize rest)

/-- A problem behind the next byte of what is left, or at the end if nothing is left. -/
def behind (rest : List Char) (problem : Problem) : Fault := .placed problem (byteSize rest - 1)

end Fault

/-! ## §3. Refusals of a whole text. -/

/-- A place in a text. -/
structure Place where
  /-- The number of the line, counted from one. -/
  line : Nat
  /-- The number of bytes between the beginning of the line and the place. -/
  column : Nat
  deriving DecidableEq, Repr

/-- Moves a place over the characters of a text that begin within its first `bytes` bytes. -/
def Place.advance (place : Place) : (bytes : Nat) → List Char → Place
  | 0, _ => place
  | _, [] => place
  | bytes + 1, c :: text =>
    if c = '\n' then
      advance ⟨place.line + 1, 0⟩ bytes text
    else
      -- A character that begins before the end counts only with its bytes in front of the end.
      advance ⟨place.line, place.column + min c.utf8Size (bytes + 1)⟩ (bytes + 1 - c.utf8Size) text

/-- A text that was refused. -/
structure Refusal where
  /-- What is wrong with it. -/
  problem : Problem
  /-- Where it is wrong. -/
  place : Place
  deriving DecidableEq, Repr

/-- The wording of a refusal. -/
def Refusal.message (refusal : Refusal) : String :=
  s!"{refusal.problem.message} at line {refusal.place.line} column {refusal.place.column}"

/-- What a fault in reading `text` says of the whole text. -/
def Fault.refusal (text : List Char) (fault : Fault) : Refusal :=
  let place (left : Nat) : Place := Place.advance ⟨1, 0⟩ (byteSize text - left) text
  match fault with
  | .placed problem left => ⟨problem, place left⟩
  | .pending problem rest => ⟨problem, place (byteSize rest)⟩

end ProbablePrime.Json
