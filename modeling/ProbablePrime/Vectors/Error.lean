/-
  ProbablePrime.Vectors.Error — what can go wrong between a list of numbers and its test vectors.
-/
import ProbablePrime.Error
import ProbablePrime.Files
import ProbablePrime.Json.Fault
import ProbablePrime.Vectors.Category

namespace ProbablePrime.Vectors

/-- Why vectors could not be made, read or written. -/
inductive VectorError where
  /-- Drawing, searching or checking a number failed. -/
  | prime (cause : PrimeError)
  /-- A file could not be read or written. -/
  | io (path : String) (fault : FileFault)
  /-- A text is not the JSON that was wanted. -/
  | json (refusal : Json.Refusal)
  /-- An element of a list of numbers is a text that is no number. -/
  | invalidNumber (value : String)
  /-- A number is in a list of the other kind. -/
  | mismatch (category : Category) (n : Nat)
  /-- A number is below two. -/
  | undecomposable (category : Category) (n : Nat)
  deriving DecidableEq, Repr

/-- The wording of an error. -/
def VectorError.message : VectorError → String
  | .prime cause => cause.message
  | .io path fault => s!"I/O error on {path}: {fault.message}"
  | .json refusal => s!"JSON error: {refusal.message}"
  | .invalidNumber value => s!"invalid number in input: {Text.quoted value}"
  | .mismatch category n =>
    let kind := if category.expectsPrime then "composite" else "prime"
    s!"{n} in {category.key} classified as {kind}"
  | .undecomposable category n => s!"{n} in {category.key} is below 2"

end ProbablePrime.Vectors
