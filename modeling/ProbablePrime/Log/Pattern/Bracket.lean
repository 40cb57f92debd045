/-
  ProbablePrime.Log.Pattern.Bracket — classes in brackets.

  A class lists characters, ranges, classes by their names and classes in brackets of their own.
  Operations combine what stands in front of them with what follows, from left to right.

  Where a letter stands for both of its cases, the mode of characters admits nothing in a class, but
  a class may hold nothing: it is enough that operations stand between its parts.
-/
import ProbablePrime.Log.Pattern.Atom
import ProbablePrime.Log.Pattern.Depth

namespace ProbablePrime.Log.Pattern

/-! ## §1. Items. -/

/-- The names of the classes of ASCII. -/
def classNames : List String :=
  ["alnum", "alpha", "ascii", "blank", "cntrl", "digit", "graph", "lower", "print", "punct",
    "space", "upper", "word", "xdigit"]

/-- Reads a class by its name, behind its bracket; tells whether it is negated. -/
def readNamedClass (text : List Char) : Option (Bool × List Char) :=
  let named (negated : Bool) (text : List Char) :=
    match text.dropWhile (· != ':') with
    | ':' :: ']' :: rest =>
      if classNames.contains (String.ofList (text.takeWhile (· != ':'))) then some (negated, rest)
      else none
    | _ => none
  match text with
  | ':' :: '^' :: text => named true text
  | ':' :: text => named false text
  | _ => none

/-- Whether a class by its name may stand in brackets. -/
def Mode.admitsNamedClass (mode : Mode) (negated : Bool) : Bool :=
  if mode.unicode then !mode.anyCase else !negated

/-- Reads one place in brackets. -/
def readItem (mode : Mode) (text : List Char) : Option (Atom × List Char) :=
  match text with
  | [] => none
  | '\\' :: rest => readEscape mode rest
  | c :: rest => some (.literal c false, rest)

/-- Reads one place in brackets, or two that are the ends of a range. -/
def readRange (mode : Mode) (text : List Char) : Option (List Char) :=
  match readItem mode text with
  | none => none
  | some (first, rest) =>
    match mode.skip rest with
    | [] => none
    | c :: rest =>
      -- A hyphen at the end stands for itself, and two take one class from another.
      if c = '-' ∧ mode.glance rest ≠ some ']' ∧ mode.glance rest ≠ some '-' then
        match readItem mode (mode.skip rest) with
        | none => none
        | some (last, rest) => if mode.admitsRange first last then some rest else none
      else
        if mode.admitsInClass first then some (c :: rest) else none

/-! ## §2. Classes. -/

/-- What is known of a class where reading stands. -/
structure Class where
  /-- The depth of what the last operation combines with what follows, if there is one. -/
  left : Option Nat
  /-- What follows that operation. -/
  items : Row
  deriving DecidableEq, Repr

namespace Class

/-- A class at its beginning. -/
def empty : Class := ⟨none, Row.empty⟩

/-- The same class with one more item. -/
def add (here : Class) (depth : Nat) : Class := { here with items := here.items.add depth }

/-- The depth of the content of a class. -/
def depth (here : Class) : Nat :=
  match here.left with
  | none => here.items.depth
  | some left => max left here.items.depth + 1

/-- The same class behind an operation. -/
def operate (here : Class) : Class := ⟨some here.depth, Row.empty⟩

end Class

/-- Where reading stands in brackets. -/
inductive ClassPlace where
  /-- At the beginning, where a closing bracket stands for itself. -/
  | opened
  /-- Behind nothing but hyphens, which stand for themselves. -/
  | hyphens
  /-- Behind something else. -/
  | inside
  deriving DecidableEq, Repr

/-- The text behind the opening bracket of a class and the sign that negates it. -/
def openClass (mode : Mode) (text : List Char) : Option (List Char) :=
  match mode.skip text with
  | '^' :: rest => if mode.unicode then some rest else none
  | rest => some rest

/-- Reads to the end of a class that stands in others, the innermost first, and gives its depth. -/
def readClass (mode : Mode) : (turns : Nat) → (place : ClassPlace) → (outer : List Class) →
    (here : Class) → List Char → Option (Nat × List Char)
  | 0, _, _, _, _ => none
  | turns + 1, place, outer, here, text =>
    let literal (place : ClassPlace) (c : Char) (rest : List Char) :=
      if mode.admitsInClass (.literal c false) then
        readClass mode turns place outer (here.add 0) rest
      else
        none
    match place, mode.skip text with
    | _, [] => none
    | .opened, ']' :: rest => literal .inside ']' rest
    | .opened, '-' :: rest => literal .hyphens '-' rest
    | .hyphens, '-' :: rest => literal .hyphens '-' rest
    | _, ']' :: rest =>
      match outer with
      | [] => some (here.depth + 1, rest)
      | next :: outer => readClass mode turns .inside outer (next.add (here.depth + 1)) rest
    | _, '[' :: rest =>
      match readNamedClass rest with
      | some (negated, rest) =>
        if mode.admitsNamedClass negated then readClass mode turns .inside outer (here.add 0) rest
        else none
      | none =>
        match openClass mode rest with
        | some rest => readClass mode turns .opened (here :: outer) Class.empty rest
        | none => none
    | _, '&' :: '&' :: rest => readClass mode turns .inside outer here.operate rest
    | _, '-' :: '-' :: rest => readClass mode turns .inside outer here.operate rest
    | _, '~' :: '~' :: rest => readClass mode turns .inside outer here.operate rest
    | _, text =>
      match readRange mode text with
      | some rest => readClass mode turns .inside outer (here.add 0) rest
      | none => none

/-- Reads a class behind its bracket, and gives its depth. -/
def readBracket (mode : Mode) (text : List Char) : Option (Nat × List Char) :=
  (openClass mode text).bind (readClass mode (text.length + 1) .opened [] Class.empty)

end ProbablePrime.Log.Pattern
