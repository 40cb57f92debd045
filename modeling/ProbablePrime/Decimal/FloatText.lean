/-
  ProbablePrime.Decimal.FloatText — doubles as text.

  The digits are the fewest that read back.  Where the leading digit stands decides whether they are
  written out with a point or with a power of ten behind them.
-/
import ProbablePrime.Decimal.Shortest

namespace ProbablePrime.Decimal

/-- The significand and the power of two of a finite double, without its sign. -/
def dyadicOf (x : Float) : Dyadic :=
  let bits := x.toBits.toNat
  let fraction : Nat := bits % (1 <<< 52)
  let exponent : Nat := (bits >>> 52) % (1 <<< 11)
  if exponent = 0 then ⟨fraction, -1074⟩ else ⟨(1 <<< 52) + fraction, (exponent : Int) - 1075⟩

/-- Whether the sign of a double is set. -/
def isSigned (x : Float) : Bool := x.toBits.toNat >>> 63 == 1

/-- How the digits of a double are laid out. -/
structure Layout where
  /-- The least power of ten of a leading digit that is written without an exponent. -/
  leastPlain : Int
  /-- The greatest such power of ten. -/
  greatestPlain : Int
  deriving DecidableEq, Repr

/-- The digits without zeros at their end. -/
def dropZeros (digits : List Char) : List Char :=
  (digits.reverse.dropWhile (· == '0')).reverse

/-- Digits written out; `e` is the power of ten of the first. -/
def plainDigits (digits : List Char) (e : Int) : List Char :=
  if e < 0 then
    ['0', '.'] ++ List.replicate (-e - 1).toNat '0' ++ digits
  else
    let wholes := e.toNat + 1
    let whole := digits.take wholes ++ List.replicate (wholes - digits.length) '0'
    let fraction := digits.drop wholes
    whole ++ ['.'] ++ (if fraction.isEmpty then ['0'] else fraction)

/-- Digits with a point behind the first, if there are more, and a power of ten with its sign. -/
def exponentDigits (digits : List Char) (e : Int) : List Char :=
  let fraction := digits.drop 1
  let mantissa := digits.take 1 ++ (if fraction.isEmpty then [] else '.' :: fraction)
  mantissa ++ ['e', if e < 0 then '-' else '+'] ++ Nat.toDigits 10 e.natAbs

/-- A finite double as text. -/
def floatText (layout : Layout) (x : Float) : String :=
  let sign := if isSigned x then ['-'] else []
  let dyadic := dyadicOf x
  if dyadic.m = 0 then
    String.ofList (sign ++ ['0', '.', '0'])
  else
    let short := shortest dyadic
    let all := Nat.toDigits 10 short.digits
    let e := short.exponent + all.length - 1
    let digits := dropZeros all
    let body :=
      if layout.leastPlain ≤ e ∧ e ≤ layout.greatestPlain then plainDigits digits e
      else exponentDigits digits e
    String.ofList (sign ++ body)

end ProbablePrime.Decimal
