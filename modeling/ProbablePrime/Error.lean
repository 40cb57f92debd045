/-
  ProbablePrime.Error — what can go wrong while numbers are drawn, searched and checked.

  Every error is a cause with the figures that describe it; the wording is one function,
  `PrimeError.message`.
-/
namespace ProbablePrime

/-! ## §1. What is wrong with a sample. -/

/-- A number of a sample that was drawn, not computed from the others. -/
inductive Drawn where
  /-- The random integer. -/
  | random
  /-- The first prime. -/
  | p
  /-- The second prime. -/
  | q
  deriving DecidableEq, Repr

/-- The name that a report of a flaw uses for a drawn number. -/
def Drawn.name : Drawn → String
  | .random => "random"
  | .p => "p"
  | .q => "q"

/-- A promise that a sample breaks. -/
inductive Flaw where
  /-- The number has `bits` bits where the sample promises `expected`. -/
  | wrongSize (which : Drawn) (bits expected : Nat)
  /-- The number was found composite. -/
  | composite (which : Drawn)
  /-- The product is not the product of the two primes. -/
  | wrongProduct
  deriving DecidableEq, Repr

/-- The wording of a flaw. -/
def Flaw.message : Flaw → String
  | .wrongSize which bits expected => s!"{which.name} has {bits} bits, expected {expected}"
  | .composite which => s!"{which.name} is composite"
  | .wrongProduct => "N is not p * q"

/-! ## §2. The errors of drawing, searching and checking. -/

/-- Why a number could not be drawn, found or accepted. -/
inductive PrimeError where
  /-- A size of `bits` bits was asked for where at least `least` are needed. -/
  | invalidBitSize (bits least : Nat)
  /-- A primality check was asked to run no round at all. -/
  | zeroRounds
  /-- A number below zero was asked for. -/
  | emptyRange
  /-- The source of random bytes failed. -/
  | entropy (reason : String)
  /-- Of `bits` bits, `attempts` candidates were examined and none was prime. -/
  | attemptsExhausted (bits attempts : Nat)
  /-- A sample breaks one of its promises. -/
  | verification (flaw : Flaw)
  deriving DecidableEq, Repr

/-- The wording of an error. -/
def PrimeError.message : PrimeError → String
  | .invalidBitSize bits least => s!"invalid bit size {bits}: must be at least {least}"
  | .zeroRounds => "Miller-Rabin round count must be at least 1"
  | .emptyRange => "cannot sample below an empty bound"
  | .entropy reason => s!"entropy source failed: {reason}"
  | .attemptsExhausted bits attempts =>
    s!"no probable prime of {bits} bits after {attempts} candidates"
  | .verification flaw => s!"sample verification failed: {flaw.message}"

end ProbablePrime
