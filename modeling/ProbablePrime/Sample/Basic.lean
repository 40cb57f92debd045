/-
  ProbablePrime.Sample.Basic — a random integer, two probable primes and their product.

  A sample is drawn at one bit size and can be verified again later, from another source and with
  another number of rounds: first the sizes, then the primes, then the product.
-/
import ProbablePrime.Generator

namespace ProbablePrime

open Entropy (Source)
open Number (bitLength)
open Primality (check)

/-! ## §1. Samples. -/

/-- A drawn sample, or what claims to be one. -/
structure Sample where
  /-- The size that the drawn numbers are said to have, in bits. -/
  bitSize : Nat
  /-- The random integer. -/
  random : Nat
  /-- The first prime. -/
  p : Nat
  /-- The second prime. -/
  q : Nat
  /-- The product of the primes. -/
  n : Nat
  deriving DecidableEq, Repr

namespace Sample

/-- A number of a sample by its name. -/
def get (sample : Sample) : Drawn → Nat
  | .random => sample.random
  | .p => sample.p
  | .q => sample.q

/-- Where the events of drawing a sample come from. -/
def target : String := "primegen_core::report"

/-- A sample was drawn. -/
def drew (bits productBits : Nat) : Log.Event :=
  ⟨.info, target, s!"drew {bits}-bit sample, product has {productBits} bits"⟩

/-! ## §2. Drawing and verifying. -/

variable {σ : Type} [Source σ]

/-- Draws the random integer, then `p`, then `q`. -/
def draw (config : Config) (fuel : Nat) : Draw σ PrimeError Sample := do
  let random ← randomInteger config.bitSize
  let p ← configuredPrime config fuel
  let q ← configuredPrime config fuel
  Draw.note (drew config.bitSize (bitLength (p * q)))
  return ⟨config.bitSize, random, p, q, p * q⟩

/-- Refuses a number that does not have the size of the sample. -/
def verifySize (sample : Sample) (which : Drawn) : Draw σ PrimeError Unit :=
  let bits := bitLength (sample.get which)
  if bits = sample.bitSize then
    pure ()
  else
    Draw.fail (.verification (.wrongSize which bits sample.bitSize))

/-- Refuses a number that a check finds composite. -/
def verifyPrime (sample : Sample) (fuel rounds : Nat) (which : Drawn) :
    Draw σ PrimeError Unit := do
  if (← check fuel rounds (sample.get which)).probablePrime then
    return ()
  else
    Draw.fail (.verification (.composite which))

/-- Accepts a sample that keeps all its promises, and names the first that is broken. -/
def verify (sample : Sample) (fuel rounds : Nat) : Draw σ PrimeError Unit := do
  sample.verifySize .random
  sample.verifySize .p
  sample.verifySize .q
  sample.verifyPrime fuel rounds .p
  sample.verifyPrime fuel rounds .q
  if sample.n = sample.p * sample.q then
    return ()
  else
    Draw.fail (.verification .wrongProduct)

end Sample

end ProbablePrime
