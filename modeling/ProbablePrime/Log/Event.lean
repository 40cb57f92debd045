/-
  ProbablePrime.Log.Event — what a run has to say beside its result.

  A run collects its events in order and decides nothing by them; which of them are shown is
  settled afterwards, by a filter over level and target.

  What is shown goes to a terminal, and a message may hold text from outside.  So the characters
  that a terminal obeys are written by their codes.
-/
import ProbablePrime.Text.Quoted

namespace ProbablePrime.Log

/-! ## §1. Levels. -/

/-- How much an event matters, from the gravest to the finest. -/
inductive Level where
  /-- Something failed. -/
  | error
  /-- Something is off. -/
  | warn
  /-- A step of the work is done. -/
  | info
  /-- A detail for those who look for one. -/
  | debug
  /-- Everything else. -/
  | trace
  deriving DecidableEq, Repr

namespace Level

/-- The levels in order of detail, the gravest first. -/
def detail : Level → Nat
  | error => 1
  | warn => 2
  | info => 3
  | debug => 4
  | trace => 5

/-- The name under which a level is written in front of an event. -/
def name : Level → String
  | error => "ERROR"
  | warn => "WARN"
  | info => "INFO"
  | debug => "DEBUG"
  | trace => "TRACE"

end Level

/-! ## §2. Events. -/

/-- One thing that happened during a run. -/
structure Event where
  /-- How much it matters. -/
  level : Level
  /-- The part of the program it comes from. -/
  target : String
  /-- What happened. -/
  message : String
  deriving DecidableEq, Repr

/-- The name of the only field that an event has: its message. -/
def messageField : String := "message"

/-! ## §3. Lines. -/

/-- The characters of one byte that a terminal obeys: bell, backspace, form feed, escape, delete. -/
def terminalControls : List Char := ['\x07', '\x08', '\x0c', '\x1b', '\x7f']

/-- A character of one byte by its code, in two hexadecimal digits. -/
def byteEscape (c : Char) : List Char :=
  ['\\', 'x', Nat.digitChar (c.toNat / 16), Nat.digitChar (c.toNat % 16)]

/-- A character of a message as it is shown. -/
def shownChar (c : Char) : List Char :=
  if terminalControls.contains c then byteEscape c
  else if 0x80 ≤ c.toNat ∧ c.toNat ≤ 0x9f then Text.codePointEscape c
  else [c]

/-- An event as it is shown. -/
def Event.line (event : Event) : String :=
  s!"{event.level.name} {event.target}: " ++ String.ofList (event.message.toList.flatMap shownChar)

end ProbablePrime.Log
