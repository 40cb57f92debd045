/-
  ProbablePrime.Log.Directive — the parts of a filter.

  A directive sets the finest level that is shown.  In its longest form it reads

      target[span{field=value}]=level

  and every part of it may be missing.  The target is what the targets of the events concerned
  begin with; the brackets name a span of time in which they happen and a field that they have.  No
  event of a run happens in a span, and none has a field besides its message, so such directives
  concern few events or none.

  Blanks in front decide where the parts begin: places are counted behind the blanks, and then the
  parts are cut from the text at these places, blanks included.  A place may fall inside a
  character, and such a text cannot be read at all.
-/
import ProbablePrime.Log.Event
import ProbablePrime.Log.Pattern
import ProbablePrime.Text.Bytes

namespace ProbablePrime.Log

/-! ## §1. Levels by name and number. -/

/-- The names of the levels, and of showing nothing, each with its detail. -/
def levelNames : List (String × Nat) :=
  [("off", 0), ("error", 1), ("warn", 2), ("info", 3), ("debug", 4), ("trace", 5)]

/-- The digits of a number behind its sign, if one stands in front. -/
def unsigned : List Char → List Char
  | '+' :: text => text
  | text => text

/-- The detail that a text names, by a name in letters of either case or by its number. -/
def detail? (text : List Char) : Option Nat :=
  let digits := unsigned text
  if !digits.isEmpty && digits.all Char.isDigit then
    let n := Nat.ofDigitChars 10 digits 0
    if n ≤ Level.trace.detail then some n else none
  else
    levelNames.lookup (String.ofList (text.map Char.toLower))

/-! ## §2. Fields. -/

/-- Why a text is no directive. -/
inductive DirectiveFault where
  /-- It does not have the form of one. -/
  | malformed
  /-- A part of it would begin or end inside a character. -/
  | severed
  deriving DecidableEq, Repr

/-- What is asked of a field. -/
structure FieldTest where
  /-- The name of the field. -/
  name : String
  /-- What its value has to be, if that is asked. -/
  value : Option String
  deriving DecidableEq, Repr

/-- Whether a text is the exponent of a number, or nothing. -/
def isExponent : List Char → Bool
  | [] => true
  | c :: text =>
    let digits := match text with
      | '-' :: digits => digits
      | text => unsigned text
    (c == 'e' || c == 'E') && !digits.isEmpty && digits.all Char.isDigit

/-- Whether a text is a decimal number without a sign. -/
def isDecimal (text : List Char) : Bool :=
  let rest := text.dropWhile Char.isDigit
  match text.takeWhile Char.isDigit, rest with
  | whole, '.' :: rest =>
    !(whole.isEmpty && (rest.takeWhile Char.isDigit).isEmpty) &&
      isExponent (rest.dropWhile Char.isDigit)
  | whole, rest => !whole.isEmpty && isExponent rest

/-- Whether a text is a number with a sign in front that no pattern has there. -/
def isSignedNumber : List Char → Bool
  | '+' :: text =>
    isDecimal text || ["inf", "infinity", "nan"].contains (String.ofList (text.map Char.toLower))
  | _ => false

namespace FieldTest

/-- The test that a text writes: a name, and behind the sign `=` a value, which ends in front of
another such sign.  A value is a number or a pattern, and every number but those with a sign `+` is
a pattern too. -/
def ofText (text : List Char) : Except DirectiveFault FieldTest :=
  let name := String.ofList (text.takeWhile (· != '='))
  match text.dropWhile (· != '=') with
  | [] => if text.isEmpty then .error .malformed else .ok ⟨name, none⟩
  | _ :: rest =>
    let value := rest.takeWhile (· != '=')
    if isSignedNumber value || isPattern value then .ok ⟨name, some (String.ofList value)⟩
    else .error .malformed

/-- Whether the events of a run pass a test.  They have a message and no other field, and values are
compared in spans only. -/
def passes (test : FieldTest) : Bool := test.value.isNone && test.name == messageField

end FieldTest

/-! ## §3. Directives. -/

/-- A part of a filter. -/
structure Directive where
  /-- What the targets concerned begin with; `none` concerns all of them. -/
  target : Option String
  /-- The span in which events are concerned; `none` asks for no span. -/
  span : Option String
  /-- What is asked of a field, if anything is. -/
  field : Option FieldTest
  /-- The detail up to which events are shown; zero shows none. -/
  detail : Nat
  deriving DecidableEq, Repr

namespace Directive

/-- The part of a text between two places, which are counted in bytes. -/
def cut (whole : List Char) (start stop : Nat) : Except DirectiveFault (List Char) :=
  match (Text.dropBytes? start whole).bind (Text.takeBytes? (stop - start)) with
  | some part => .ok part
  | none => .error .severed

/-- Whether the character may begin a directive that has a target or a level in front. -/
def beginsWord (c : Char) : Bool :=
  c == '-' || c == ':' || c == '_' || Text.isAlphabetic c || Text.isNumeric c

/-- Reads a level from a place to the end; nothing is the finest level. -/
def readLevel (whole : List Char) (place : Nat) : Except DirectiveFault Nat :=
  match Text.dropBytes? place whole with
  | none => .error .severed
  | some [] => .ok Level.trace.detail
  | some text =>
    match detail? text with
    | some detail => .ok detail
    | none => .error .malformed

/-- Reads what follows the brackets. -/
def readBehind (whole : List Char) (place : Nat) : List Char → Except DirectiveFault Nat
  | [] => .ok Level.trace.detail
  | '=' :: _ => readLevel whole (place + 1)
  | _ => .error .malformed

/-- Reads a field, from behind its brace, and what follows. -/
def readField (whole : List Char) (target span : Option String) (place : Nat) (text : List Char) :
    Except DirectiveFault Directive := do
  let stop := place + Text.byteSize (text.takeWhile (· != '\x7d'))
  match text.dropWhile (· != '\x7d') with
  | [] => .error .malformed
  | _ :: rest =>
    let field ← FieldTest.ofText (← cut whole place stop)
    match rest with
    | ']' :: rest => return ⟨target, span, some field, ← readBehind whole (stop + 2) rest⟩
    | _ => .error .malformed

/-- Reads a span, from behind its bracket, and what follows. -/
def readSpan (whole : List Char) (target : Option String) (place : Nat) (text : List Char) :
    Except DirectiveFault Directive := do
  let ends (c : Char) := c == ']' || c == '\x7b'
  let stop := place + Text.byteSize (text.takeWhile fun c => !ends c)
  match text.dropWhile fun c => !ends c with
  | [] => .error .malformed
  | ']' :: rest =>
    let name := String.ofList (← cut whole place stop)
    return ⟨target, some name, none, ← readBehind whole (stop + 1) rest⟩
  | _ :: rest =>
    let name ← cut whole place stop
    -- In front of a field a span without a name asks for no span.
    let span := if name.isEmpty then none else some (String.ofList name)
    readField whole target span (stop + 1) rest

/-- Reads a directive that begins with a word: a level, or a target and what follows. -/
def readWord (whole text : List Char) : Except DirectiveFault Directive := do
  let ends (c : Char) := c == '=' || c == '['
  let stop := Text.byteSize (text.takeWhile fun c => !ends c)
  match text.dropWhile fun c => !ends c with
  | [] =>
    match detail? whole with
    | some detail => .ok ⟨none, none, none, detail⟩
    -- A single word that is no level is a target, shown in every detail.
    | none => .ok ⟨some (String.ofList whole), none, none, Level.trace.detail⟩
  | c :: rest =>
    let target := some (String.ofList (← cut whole 0 stop))
    if c = '=' then return ⟨target, none, none, ← readLevel whole (stop + 1)⟩
    else readSpan whole target (stop + 1) rest

/-- The directive that a text writes. -/
def ofText (whole : List Char) : Except DirectiveFault Directive :=
  match Text.trim whole with
  | [] => .error .malformed
  | c :: text =>
    if c = '[' then readSpan whole none 1 text
    else if beginsWord c then readWord whole (c :: text)
    else .error .malformed

/-- Whether a directive concerns an event. -/
def concerns (directive : Directive) (event : Event) : Bool :=
  directive.span.isNone && directive.field.all FieldTest.passes &&
    directive.target.all fun target => target.toList.isPrefixOf event.target.toList

/-- How special a directive is: first by the length of its target, below all others if it has none,
and then by whether it asks for a field. -/
def rank (directive : Directive) : Nat :=
  let ofTarget := match directive.target with
    | none => 0
    | some target => target.utf8ByteSize + 1
  2 * ofTarget + if directive.field.isSome then 1 else 0

end Directive

end ProbablePrime.Log
