/-
  ProbablePrime.Number.Size — how long a number is, in binary and in decimal.
-/
namespace ProbablePrime.Number

/-- The number of binary digits of `n`; zero has none. -/
def bitLength (n : Nat) : Nat := if n = 0 then 0 else n.log2 + 1

/-- The number of decimal digits of `n`; zero has one. -/
def decimalDigits (n : Nat) : Nat := (Nat.toDigits 10 n).length

/-- The first number that 64 bits do not hold. -/
def wordLimit : Nat := 1 <<< 64

end ProbablePrime.Number
