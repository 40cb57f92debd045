/-
  ProbablePrime.Vectors.Inputs — the numbers that test vectors are made of.

  The lists are read from a directory, one file each, or made up: the small ones by walking the
  numbers from two upwards, the large ones by searching for primes.
-/
import ProbablePrime.Generator
import ProbablePrime.Vectors.NumberList

namespace ProbablePrime.Vectors

open Entropy (Source)
open Primality (isProbablePrime)

/-- The numbers to be classified, by the list they stand in. -/
abbrev Inputs := PerCategory (List Nat)

/-- Where the events of making test vectors come from. -/
def target : String := "primegen_core::vectors"

variable {σ : Type}

/-! ## §1. Lists from files. -/

/-- A list was read. -/
def loaded (count : Nat) (path : String) : Log.Event :=
  ⟨.debug, target, s!"loaded {count} entries from {path}"⟩

/-- Reads the list of one category. -/
def loadList (readText : String → Except FileFault String) (directory : String)
    (category : Category) : Draw σ VectorError (List Nat) := do
  let path := Files.join directory category.fileName
  let json ← Draw.ofExcept ((readText path).mapError (.io path))
  let numbers ← Draw.ofExcept (parseList json)
  Draw.note (loaded numbers.length path)
  return numbers

/-- Reads the lists of a directory; `readText` gives the text of the file at a path. -/
def load (readText : String → Except FileFault String) (directory : String) :
    Draw σ VectorError Inputs :=
  PerCategory.build (loadList readText directory)

/-! ## §2. Made-up lists. -/

variable [Source σ]

/-- Puts `n` in front of a list that is not full yet. -/
def fillUp (count n : Nat) (numbers : List Nat) : List Nat :=
  if numbers.length < count then n :: numbers else numbers

/-- Sorts the numbers from `n` on into primes and composites until `count` of each are known; both
lists have the last number first.  `turns` bounds how many numbers are looked at. -/
def scanFrom (fuel rounds count : Nat) :
    (turns n : Nat) → (primes composites : List Nat) → Draw σ PrimeError (List Nat × List Nat)
  | 0, _, _, _ => Draw.outOfFuel
  | turns + 1, n, primes, composites => do
    -- Numbers are looked at while either list lacks some; the full list passes them over.
    if primes.length < count || composites.length < count then
      if ← isProbablePrime fuel rounds n then
        scanFrom fuel rounds count turns (n + 1) (fillUp count n primes) composites
      else
        scanFrom fuel rounds count turns (n + 1) primes (fillUp count n composites)
    else
      return (primes.reverse, composites.reverse)

/-- The first `count` primes and the first `count` composites, as far as the checks tell. -/
def scan (fuel rounds count : Nat) : Draw σ PrimeError (List Nat × List Nat) :=
  scanFrom fuel rounds count fuel 2 [] []

/-- The size of the factors of a made-up composite of about `bits` bits. -/
def factorBits (bits : Nat) : Nat := max (bits / 2) leastPrimeBits

/-- A product of two primes of half the size. -/
def semiprime (config : Config) (fuel bits : Nat) : Draw σ PrimeError Nat := do
  let p ← probablePrime config fuel (factorBits bits)
  let q ← probablePrime config fuel (factorBits bits)
  return p * q

/-- Draws `count` large primes and as many products of two primes, in turn. -/
def drawLarge (config : Config) (fuel bits : Nat) :
    (count : Nat) → Draw σ PrimeError (List Nat × List Nat)
  | 0 => return ([], [])
  | count + 1 => do
    let prime ← probablePrime config fuel bits
    let composite ← semiprime config fuel bits
    let (primes, composites) ← drawLarge config fuel bits count
    return (prime :: primes, composite :: composites)

/-- Lists of `count` numbers each; the large ones have about `bits` bits. -/
def synthesize (config : Config) (fuel count bits : Nat) : Draw σ PrimeError Inputs := do
  let (smallPrimes, smallComposites) ← scan fuel config.rounds count
  let (largePrimes, largeComposites) ← drawLarge config fuel bits count
  return ⟨smallPrimes, largePrimes, smallComposites, largeComposites⟩

end ProbablePrime.Vectors
