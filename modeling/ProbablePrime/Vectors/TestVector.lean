/-
  ProbablePrime.Vectors.TestVector — classified numbers with their decompositions.

  Every number of the lists is checked in the order of the lists, and the first one that is not what
  its list says ends the work.
-/
import ProbablePrime.Vectors.Inputs

namespace ProbablePrime.Vectors

open Entropy (Source)
open Primality (check)

/-! ## §1. Test vectors. -/

/-- A number and the decomposition `n - 1 = d * 2 ^ s`. -/
structure TestVector where
  /-- The number. -/
  n : Nat
  /-- The odd part of its predecessor. -/
  d : Nat
  /-- The power of two in its predecessor. -/
  s : Nat
  deriving DecidableEq, Repr

/-- The test vectors of every category. -/
abbrev TestVectors := PerCategory (List TestVector)

/-! ## §2. Classification. -/

/-- A list was classified. -/
def classified (count : Nat) (category : Category) : Log.Event :=
  ⟨.info, target, s!"classified {count} entries in {category.key}"⟩

variable {σ : Type} [Source σ]

/-- The test vector of a number, if the number is what its category says. -/
def classify (fuel rounds : Nat) (category : Category) (n : Nat) :
    Draw σ VectorError TestVector := do
  let verdict ← (check fuel rounds n).widen .prime
  match verdict.decomposition with
  | none => Draw.fail (.undecomposable category n)
  | some parts =>
    if verdict.probablePrime = category.expectsPrime then
      return ⟨n, parts.d, parts.s⟩
    else
      Draw.fail (.mismatch category n)

/-- The test vectors of a list. -/
def classifyList (fuel rounds : Nat) (inputs : Inputs) (category : Category) :
    Draw σ VectorError (List TestVector) := do
  let vectors ← (inputs.get category).mapM (classify fuel rounds category)
  Draw.note (classified vectors.length category)
  return vectors

/-- The test vectors of all lists. -/
def TestVectors.ofInputs (fuel rounds : Nat) (inputs : Inputs) : Draw σ VectorError TestVectors :=
  PerCategory.build (classifyList fuel rounds inputs)

end ProbablePrime.Vectors
