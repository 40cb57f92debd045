/-
  ProbablePrime.Primality.MillerRabin — the probabilistic primality check.

  Small numbers are looked up, numbers with a small factor are composite, and only what is left
  meets the rounds: each draws a witness and asks whether the number behaves like a prime for it.
  `passesWitness` is that question as a function of the witness, and draws nothing.
-/
import ProbablePrime.Number.Power
import ProbablePrime.Primality.Decomposition
import ProbablePrime.Primality.Sieve
import ProbablePrime.Sampling

namespace ProbablePrime.Primality

open Entropy (Source)
open Number (powMod)

/-! ## §1. One witness. -/

/-- Squares `x` modulo `n` up to `k` times in search of `n - 1`, and gives up at `1`, which only
squares to itself. -/
def reachesMinusOne (n : Nat) : (k x : Nat) → Bool
  | 0, _ => false
  | k + 1, x =>
    let square := x * x % n
    if square = n - 1 then true
    -- No square of one is ever anything else, so the search is over.
    else if square = 1 then false
    else reachesMinusOne n k square

/-- Whether `n`, decomposed as `parts`, behaves like a prime for the witness `a`. -/
def passesWitness (n : Nat) (parts : Decomposition) (a : Nat) : Bool :=
  let x := powMod a parts.d n
  x = 1 || x = n - 1 || reachesMinusOne n (parts.s - 1) x

/-! ## §2. The check. -/

/-- How many rounds a check makes unless it is told otherwise. -/
def defaultRounds : Nat := 40

/-- What a check found. -/
structure Verdict where
  /-- Whether the number passed. -/
  probablePrime : Bool
  /-- The decomposition of the number, absent below two. -/
  decomposition : Option Decomposition
  deriving DecidableEq, Repr

variable {σ : Type} [Source σ]

/-- Whether `n` passes `rounds` witnesses, drawn one after the other from `2` to `n - 2`; the first
that it fails ends the rounds. -/
def passesRounds (fuel n : Nat) (parts : Decomposition) : (rounds : Nat) → Draw σ PrimeError Bool
  | 0 => pure true
  | rounds + 1 => do
    let a ← randomBelow fuel (n - 3)
    if passesWitness n parts (a + 2) then passesRounds fuel n parts rounds else return false

/-- Classifies `n` with `rounds` rounds.  No rounds at all are refused, even where the answer needs
none. -/
def check (fuel rounds n : Nat) : Draw σ PrimeError Verdict :=
  if rounds = 0 then
    Draw.fail .zeroRounds
  else match decompose n with
    | none => pure ⟨false, none⟩
    | some parts =>
      if n < trialLimit then
        pure ⟨smallPrimes.contains n, some parts⟩
      else if hasSmallFactor n then
        pure ⟨false, some parts⟩
      else do
        return ⟨← passesRounds fuel n parts rounds, some parts⟩

/-- Whether a check with `rounds` rounds finds `n` prime. -/
def isProbablePrime (fuel rounds n : Nat) : Draw σ PrimeError Bool := do
  return (← check fuel rounds n).probablePrime

end ProbablePrime.Primality
