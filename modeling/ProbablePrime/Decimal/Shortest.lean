/-
  ProbablePrime.Decimal.Shortest — the fewest decimal digits that name a binary fraction.

  A number `m * 2 ^ q` kept with a limited significand stands for every real number that rounds to
  it.  On each decimal grid, from one digit up to seventeen, the two points next to the number are
  tried; the first grid with a point that rounds to the number settles the digits, and of two such
  points the nearer one is taken.  All of this is exact arithmetic on natural numbers.
-/
namespace ProbablePrime.Decimal

/-! ## §1. Numbers in both bases. -/

/-- The number `m * 2 ^ q`. -/
structure Dyadic where
  /-- The significand. -/
  m : Nat
  /-- The power of two. -/
  q : Int
  deriving DecidableEq, Repr

/-- The number `digits * 10 ^ exponent`. -/
structure Scientific where
  /-- The digits, read as one number. -/
  digits : Nat
  /-- The power of ten. -/
  exponent : Int
  deriving DecidableEq, Repr

/-- A fraction of natural numbers in the proportion `num * 2 ^ q : den * 10 ^ e`. -/
def proportion (num : Nat) (q : Int) (den : Nat) (e : Int) : Nat × Nat :=
  (num <<< q.toNat * Nat.pow 10 (-e).toNat, den <<< (-q).toNat * Nat.pow 10 e.toNat)

/-- The power of ten of the leading digit, searched for upwards from `e`. -/
def leadingFrom (x : Dyadic) : (turns : Nat) → (e : Int) → Int
  | 0, e => e
  | turns + 1, e =>
    let (num, den) := proportion x.m x.q 1 (e + 1)
    if num < den then e else leadingFrom x turns (e + 1)

/-- The power of ten of the leading digit of a positive double. -/
def leadingExponent (x : Dyadic) : Int := leadingFrom x 640 (-330)

/-! ## §2. What rounds to a number. -/

/-- Whether the next number below is at half the distance of the next number above, as it is where
the significand is a power of two and not the least. -/
def isNarrowBelow (x : Dyadic) : Bool := x.m == 1 <<< 52 && x.q > -1074

/-- Whether `digits * 10 ^ e` rounds to `x`; a point half way between two numbers rounds to the even
significand. -/
def roundsTo (x : Dyadic) (digits : Nat) (e : Int) : Bool :=
  -- In quarters of a unit of the significand every distance is a whole number.
  let (num, den) := proportion (4 * x.m) (x.q - 2) 1 e
  let (unit, _) := proportion 1 (x.q - 2) 1 e
  let point := digits * den
  let low := if isNarrowBelow x then num - unit else num - 2 * unit
  let high := num + 2 * unit
  if x.m % 2 = 0 then low ≤ point && point ≤ high else low < point && point < high

/-- The point of the grid of `10 ^ e` that rounds to `x` and is nearest to it. -/
def onGrid (x : Dyadic) (e : Int) : Option Nat :=
  let (num, den) := proportion x.m x.q 1 e
  let lower := num / den
  let upper := lower + 1
  match roundsTo x lower e, roundsTo x upper e with
  | true, true =>
    -- Both points round to the number: the nearer one, and of two equally near the even one.
    if 2 * (num - lower * den) < den then some lower
    else if 2 * (num - lower * den) > den then some upper
    else some (if lower % 2 = 0 then lower else upper)
  | true, false => some lower
  | false, true => some upper
  | false, false => none

/-- The digits on the coarsest grid that has a point rounding to `x`; `places` grids are tried, the
first of them with steps of `10 ^ e`. -/
def shortestFrom (x : Dyadic) : (places : Nat) → (e : Int) → Scientific
  | 0, e => ⟨0, e⟩
  | places + 1, e =>
    match onGrid x e with
    | some digits => ⟨digits, e⟩
    | none => shortestFrom x places (e - 1)

/-- The fewest digits that round to `x`. -/
def shortest (x : Dyadic) : Scientific := shortestFrom x 17 (leadingExponent x)

end ProbablePrime.Decimal
