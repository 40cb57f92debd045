/-
  ProbablePrime.Generator — the search for primes of a given size.

  A candidate is a random number of exactly the given size, made odd.  The search draws candidates
  and checks them, each with the same number of rounds, until one passes or the cap on candidates
  is reached.
-/
import ProbablePrime.Primality.MillerRabin

namespace ProbablePrime

open Entropy (Source)
open Primality (check defaultRounds)

/-! ## §1. Settings. -/

/-- The settings of a search. -/
structure Config where
  /-- The size of what is drawn, in bits. -/
  bitSize : Nat
  /-- The rounds of a primality check. -/
  rounds : Nat
  /-- How many candidates are examined for one prime at most; `none` sets no limit. -/
  maxAttempts : Option Nat
  deriving DecidableEq, Repr

/-- The size of what is drawn unless something else is asked for. -/
def defaultBitSize : Nat := 4096

/-- The size of the smallest primes. -/
def leastPrimeBits : Nat := 2

/-- The settings that hold unless something else is asked for. -/
def Config.standard : Config := ⟨defaultBitSize, defaultRounds, none⟩

/-- Whether `attempts` candidates are as many as the cap allows. -/
def Config.exhausted (config : Config) (attempts : Nat) : Bool :=
  config.maxAttempts.any (· ≤ attempts)

/-! ## §2. What a search has to say. -/

/-- Where the events of a search come from. -/
def searchTarget : String := "primegen_core::generate"

/-- A search reached its cap. -/
def gaveUp (bits attempts : Nat) : Log.Event :=
  ⟨.warn, searchTarget, s!"gave up on {bits}-bit prime after {attempts} candidates"⟩

/-- A search found its prime. -/
def found (bits attempts : Nat) : Log.Event :=
  ⟨.debug, searchTarget, s!"found {bits}-bit probable prime after {attempts} candidates"⟩

/-! ## §3. The search. -/

variable {σ : Type} [Source σ]

/-- An odd number of exactly `bits` bits. -/
def randomCandidate (bits : Nat) : Draw σ PrimeError Nat := do
  return (← randomInteger bits) ||| 1

/-- Goes on with the search after `attempts` candidates have failed; `turns` bounds how many more
are examined.  The count is a natural number of any size, where 64 bits would do: no run lasts long
enough to exceed them. -/
def searchFrom (config : Config) (fuel bits : Nat) : (turns attempts : Nat) → Draw σ PrimeError Nat
  | 0, _ => Draw.outOfFuel
  | turns + 1, attempts => do
    -- The cap is looked at before anything is drawn, so a cap of zero draws nothing.
    if config.exhausted attempts then
      Draw.note (gaveUp bits attempts)
      Draw.fail (.attemptsExhausted bits attempts)
    else
      let candidate ← randomCandidate bits
      if (← check fuel config.rounds candidate).probablePrime then
        Draw.note (found bits (attempts + 1))
        return candidate
      else
        searchFrom config fuel bits turns (attempts + 1)

/-- A probable prime of exactly `bits` bits. -/
def probablePrime (config : Config) (fuel bits : Nat) : Draw σ PrimeError Nat :=
  if bits < leastPrimeBits then
    Draw.fail (.invalidBitSize bits leastPrimeBits)
  else
    searchFrom config fuel bits fuel 0

/-- A probable prime of the configured size. -/
def configuredPrime (config : Config) (fuel : Nat) : Draw σ PrimeError Nat :=
  probablePrime config fuel config.bitSize

end ProbablePrime
