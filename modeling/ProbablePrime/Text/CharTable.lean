/-
  ProbablePrime.Text.CharTable — sets of characters given by ranges of code points.
-/
namespace ProbablePrime.Text

/-- Ranges of code points, first and last included, ascending. -/
abbrev CharTable := List (Nat × Nat)

/-- Whether a character falls into a range of the table. -/
def CharTable.holds (table : CharTable) (c : Char) : Bool :=
  table.any fun (first, last) => first ≤ c.toNat && c.toNat ≤ last

end ProbablePrime.Text
