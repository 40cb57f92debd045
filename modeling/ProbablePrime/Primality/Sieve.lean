/-
  ProbablePrime.Primality.Sieve — the primes below a limit, and trial division by the small ones.

  The sieve walks the numbers below the limit in ascending order.  A number that is not marked when
  it is reached is prime, and its multiples from its square on are then marked; every mark falls
  inside the table, since each write carries a proof that it does.
-/
namespace ProbablePrime.Primality

/-! ## §1. The sieve. -/

/-- Marks `m`, `m + step`, `m + 2 * step`, … as far as the table reaches. -/
def markFrom {limit : Nat} (step : Nat) (step_pos : 0 < step) (marked : Vector Bool limit)
    (m : Nat) : Vector Bool limit :=
  if h : m < limit then markFrom step step_pos (marked.set m true h) (m + step) else marked
termination_by limit - m

/-- The numbers from `i` on that are not marked when they are reached; each of them marks its
multiples from its square on. -/
def sieveFrom {limit : Nat} (marked : Vector Bool limit) (i : Nat) (i_pos : 0 < i) : List Nat :=
  if h : i < limit then
    if marked[i] then
      sieveFrom marked (i + 1) (by omega)
    else
      i :: sieveFrom (markFrom i i_pos marked (i * i)) (i + 1) (by omega)
  else
    []
termination_by limit - i

/-- The primes below `limit`, ascending. -/
def sieve (limit : Nat) : List Nat := sieveFrom (Vector.replicate limit false) 2 (by decide)

/-! ## §2. Trial division. -/

/-- Numbers below this limit are looked up in the table, and the primes below it are tried as
divisors of the others. -/
def trialLimit : Nat := 1000

/-- The primes below `trialLimit`, ascending. -/
def smallPrimes : List Nat := sieve trialLimit

/-- Whether a small prime other than `n` divides `n`. -/
def hasSmallFactor (n : Nat) : Bool := smallPrimes.any fun p => n != p && n % p == 0

end ProbablePrime.Primality
