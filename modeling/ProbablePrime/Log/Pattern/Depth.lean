/-
  ProbablePrime.Log.Pattern.Depth — how deep a pattern is nested.

  A character has depth zero.  A group, a repetition, a class in brackets and an operation between
  classes lie one level above what they hold, and so do several parts side by side.  A pattern may
  be nested only so deep.
-/
namespace ProbablePrime.Log.Pattern

/-- The greatest depth of a pattern. -/
def greatestDepth : Nat := 250

/-- Parts side by side, of which only the number and the greatest depth are of interest. -/
structure Row where
  /-- The number of parts. -/
  count : Nat
  /-- The greatest depth of a part. -/
  deepest : Nat
  deriving DecidableEq, Repr

namespace Row

/-- A row without parts. -/
def empty : Row := ⟨0, 0⟩

/-- The same row with one more part. -/
def add (row : Row) (depth : Nat) : Row := ⟨row.count + 1, max row.deepest depth⟩

/-- The same row with a part that got deeper. -/
def deepen (row : Row) (depth : Nat) : Row := { row with deepest := max row.deepest depth }

/-- The depth of a row: a single part needs no level of its own. -/
def depth (row : Row) : Nat := if row.count ≤ 1 then row.deepest else row.deepest + 1

end Row

end ProbablePrime.Log.Pattern
