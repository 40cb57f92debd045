/-
  ProbablePrime.Log.Pattern — which texts are patterns.

  A pattern is a regular expression.  None is ever matched here, since nothing that a run notes has
  a field to match it with; all that counts is whether a text is a pattern at all, for a filter that
  names anything else is no filter.  In a filter a pattern ends in front of the first closing brace,
  so whatever would need one is no pattern.

  The text is read once from front to back.  What has to be known on the way is the mode, which
  groups change and restore, whether there is something to repeat, and how deep everything is
  nested.
-/
import ProbablePrime.Log.Pattern.Bracket
import ProbablePrime.Text.Alphabetic
import ProbablePrime.Text.Numeric

namespace ProbablePrime.Log

open Text (isAlphabetic isNumeric)

namespace Pattern

/-! ## §1. Branches. -/

/-- What is known of a group, or of the whole pattern, where reading stands. -/
structure Branch where
  /-- The greatest depth of the alternatives in front, if there are any. -/
  others : Option Nat
  /-- The parts of this alternative. -/
  parts : Row
  /-- The depth of the last part, if it can be repeated. -/
  last : Option Nat
  deriving DecidableEq, Repr

namespace Branch

/-- A group at its beginning. -/
def empty : Branch := ⟨none, Row.empty, none⟩

/-- The same group with one more part that can be repeated. -/
def add (here : Branch) (depth : Nat) : Branch :=
  { here with parts := here.parts.add depth, last := some depth }

/-- The same group behind a change of the mode, which is a part that cannot be repeated. -/
def addFlags (here : Branch) : Branch := { here with parts := here.parts.add 0, last := none }

/-- The same group with its last part repeated. -/
def repeat? (here : Branch) : Option Branch :=
  here.last.map fun depth =>
    { here with parts := here.parts.deepen (depth + 1), last := some (depth + 1) }

/-- The same group at the beginning of its next alternative. -/
def alternate (here : Branch) : Branch :=
  ⟨some (max (here.others.getD 0) here.parts.depth), Row.empty, none⟩

/-- The depth of the content of a group. -/
def depth (here : Branch) : Nat :=
  match here.others with
  | none => here.parts.depth
  | some others => max others here.parts.depth + 1

end Branch

/-! ## §2. Groups. -/

/-- What is known of a pattern where reading stands. -/
structure Reading where
  /-- The mode. -/
  mode : Mode
  /-- The innermost open group. -/
  here : Branch
  /-- The groups around it, the innermost first, and the modes that they go back to. -/
  outer : List (Mode × Branch)
  /-- The names of groups so far. -/
  names : List (List Char)
  deriving DecidableEq, Repr

namespace Reading

/-- The reading of a pattern from its beginning. -/
def initial : Reading := ⟨Mode.initial, Branch.empty, [], []⟩

/-- The same reading behind a part of a depth. -/
def behind (reading : Reading) (depth : Nat) : Reading :=
  { reading with here := reading.here.add depth }

/-- The same reading in a new group with a mode of its own. -/
def inGroup (reading : Reading) (mode : Mode) : Reading :=
  { reading with
    mode, here := Branch.empty, outer := (reading.mode, reading.here) :: reading.outer }

/-- Whether a text can name a group. -/
def isName (text : List Char) : Bool :=
  match text with
  | [] => false
  | c :: rest =>
    (c == '_' || isAlphabetic c) &&
      rest.all fun c => ['_', '.', '[', ']'].contains c || isAlphabetic c || isNumeric c

/-- Opens a group from its name on. -/
def openNamed (reading : Reading) (text : List Char) : Option (Reading × List Char) :=
  let name := text.takeWhile (· != '>')
  match text.dropWhile (· != '>') with
  | [] => none
  | _ :: rest =>
    if isName name && !reading.names.contains name then
      some ({ reading.inGroup reading.mode with names := name :: reading.names }, rest)
    else
      none

/-- Reads the letters of flags, `seen` being those in front and `value` whether they are set, and
what ends them; `dangling` says that a hyphen still lacks its letter. -/
def readFlags (reading : Reading) (mode : Mode) (seen : List Char) (value dangling : Bool) :
    List Char → Option (Reading × List Char)
  | [] => none
  | c :: rest =>
    if c = ':' then
      if dangling then none else some (reading.inGroup mode, rest)
    else if c = ')' then
      if dangling || seen.isEmpty then none
      else some ({ reading with mode, here := reading.here.addFlags }, rest)
    else if c = '-' then
      if value then readFlags reading mode seen false true rest else none
    else if seen.contains c then
      none
    else
      match mode.set? value c with
      | some mode => readFlags reading mode (c :: seen) value false rest
      | none => none

/-- Opens a group behind its parenthesis, or changes the mode. -/
def openGroup (reading : Reading) (text : List Char) : Option (Reading × List Char) :=
  match reading.mode.skip text with
  | '?' :: 'P' :: '<' :: rest => reading.openNamed rest
  | '?' :: '<' :: rest => reading.openNamed rest
  | '?' :: rest => reading.readFlags reading.mode [] true false rest
  | rest => some (reading.inGroup reading.mode, rest)

/-- Closes a group. -/
def closeGroup (reading : Reading) : Option Reading :=
  match reading.outer with
  | [] => none
  | (mode, branch) :: outer =>
    some { reading with mode, here := branch.add (reading.here.depth + 1), outer }

/-! ## §3. Patterns. -/

/-- Goes on behind an atom, if it may stand where it does. -/
def takeAtom (reading : Reading) (atom : Atom) (rest : List Char) :
    Option (Reading × List Char) :=
  if reading.mode.admits atom then some (reading.behind 0, rest) else none

/-- Takes one step, from the character `c` on. -/
def step (reading : Reading) (c : Char) (rest : List Char) : Option (Reading × List Char) :=
  match c with
  | '(' => reading.openGroup rest
  | ')' => reading.closeGroup.map fun reading => (reading, rest)
  | '|' => some ({ reading with here := reading.here.alternate }, rest)
  | '[' =>
    match readBracket reading.mode rest with
    | some (depth, rest) => some (reading.behind depth, rest)
    | none => none
  | '?' | '*' | '+' =>
    match reading.here.repeat? with
    | none => none
    | some here =>
      some ({ reading with here }, match rest with
        | '?' :: rest => rest
        | rest => rest)
  | '\x7b' => none
  | '.' => if reading.mode.unicode then some (reading.behind 0, rest) else none
  | '^' | '$' => reading.takeAtom .edge rest
  | '\\' =>
    match readEscape reading.mode rest with
    | some (atom, rest) => reading.takeAtom atom rest
    | none => none
  | c => reading.takeAtom (.literal c false) rest

/-- Takes steps to the end of a pattern, where no group may be open. -/
def finishes : (turns : Nat) → Reading → List Char → Bool
  | 0, _, _ => false
  | turns + 1, reading, text =>
    match reading.mode.skip text with
    | [] => reading.outer.isEmpty && reading.here.depth ≤ greatestDepth
    | c :: rest =>
      match reading.step c rest with
      | some (reading, rest) => finishes turns reading rest
      | none => false

end Reading

end Pattern

/-- Whether a text is a pattern. -/
def isPattern (text : List Char) : Bool :=
  Pattern.Reading.finishes (text.length + 1) Pattern.Reading.initial text

end ProbablePrime.Log
