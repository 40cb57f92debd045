/-
  ProbablePrime.Primality.Decomposition — the predecessor of a number as an odd part and a power
  of two.
-/
namespace ProbablePrime.Primality

/-! ## §1. Odd part and power of two. -/

/-- The odd number that is left when `m` is halved as long as it is even and not zero. -/
def oddPart (m : Nat) : Nat := if 0 < m ∧ m % 2 = 0 then oddPart (m / 2) else m
termination_by m

/-- How often `m` can be halved as long as it is even and not zero. -/
def twos (m : Nat) : Nat := if 0 < m ∧ m % 2 = 0 then twos (m / 2) + 1 else 0
termination_by m

/-! ## §2. Decompositions. -/

/-- The parts of a number `n` with `n - 1 = d * 2 ^ s` and `d` odd. -/
structure Decomposition where
  /-- The odd part of the predecessor. -/
  d : Nat
  /-- The power of two in the predecessor. -/
  s : Nat
  deriving DecidableEq, Repr

/-- The decomposition of `n`; below two there is none, for the predecessor has no odd part. -/
def decompose (n : Nat) : Option Decomposition :=
  if n < 2 then none else some ⟨oddPart (n - 1), twos (n - 1)⟩

end ProbablePrime.Primality
