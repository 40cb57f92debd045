/-
  ProbablePrime.Log.Filter — which events are shown.

  A filter is a list of directives, written with commas in between.  Of those that concern an event
  the most special decides, and of two that are alike in that the later one.
-/
import ProbablePrime.Log.Directive

namespace ProbablePrime.Log

/-! ## §1. Reading. -/

/-- Directives, the later ones replacing earlier ones that are as special. -/
abbrev Filter := List Directive

namespace Filter

/-- The parts of a text between commas, without the empty ones. -/
def pieces (text : String) : List (List Char) :=
  ((text.splitOn ",").map String.toList).filter fun piece => !piece.isEmpty

/-- The filter that a text writes, if every part of it is a directive. -/
def ofText (text : String) : Except DirectiveFault Filter := (pieces text).mapM Directive.ofText

/-- The directive of a part that may be none, unless it cannot be read at all. -/
def directiveIfAny (piece : List Char) : Option (Option Directive) :=
  match Directive.ofText piece with
  | .ok directive => some (some directive)
  | .error .malformed => some none
  | .error .severed => none

/-- The filter of those parts of a text that are directives, if all of them can be read. -/
def ofTextLenient (text : String) : Option Filter :=
  ((pieces text).mapM directiveIfAny).map fun directives => directives.filterMap id

/-- The filter of a run: the environment's, if there is a faultless one, and the option's
otherwise.  There is none if the text that decides cannot be read. -/
def choose (environment : Option String) (option : String) : Option Filter :=
  match environment.map ofText with
  | some (.ok filter) => some filter
  | some (.error .severed) => none
  | some (.error .malformed) | none => ofTextLenient option

/-! ## §2. Deciding. -/

/-- The more special of two directives, the second of two that are alike in that. -/
def moreSpecial (best : Option Directive) (directive : Directive) : Option Directive :=
  match best with
  | none => some directive
  | some other => if other.rank ≤ directive.rank then some directive else some other

/-- The directive that decides about an event. -/
def deciding (filter : Filter) (event : Event) : Option Directive :=
  (filter.filter (·.concerns event)).foldl moreSpecial none

/-- Whether an event is shown. -/
def admits (filter : Filter) (event : Event) : Bool :=
  (filter.deciding event).any fun directive => event.level.detail ≤ directive.detail

end Filter

end ProbablePrime.Log
