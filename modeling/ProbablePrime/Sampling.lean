/-
  ProbablePrime.Sampling — uniform numbers from random bytes.

  A number of a given size is cut from the fewest whole bytes that can hold it; a number below a
  bound is drawn again and again at the size of the bound until it falls below.
-/
import ProbablePrime.Draw
import ProbablePrime.Number.Size

namespace ProbablePrime

open Entropy (Source)
open Number (bitLength)

/-! ## §1. Numbers in a buffer. -/

/-- The number whose base-256 digits are the bytes, the highest first. -/
def ofBigEndian (bytes : List UInt8) : Nat :=
  bytes.foldl (fun n byte => n * 256 + byte.toNat) 0

/-- The fewest bytes that hold `bits` bits. -/
def bufferSize (bits : Nat) : Nat := (bits + 7) / 8

/-- A buffer of `bits` bits without those of its first byte that are too many. -/
def maskFirst (bits : Nat) : List UInt8 → List UInt8
  | [] => []
  | byte :: bytes =>
    (byte &&& (0xff : UInt8) >>> UInt8.ofNat (8 * bufferSize bits - bits)) :: bytes

/-- The number in a buffer, without the bits of the first byte that are too many. -/
def ofBuffer (bits : Nat) (buffer : List UInt8) : Nat := ofBigEndian (maskFirst bits buffer)

/-! ## §2. Draws. -/

variable {σ : Type} [Source σ]

/-- A word of 64 bits. -/
def randomWord : Draw σ PrimeError UInt64 := do
  return UInt64.ofNat (ofBigEndian (← Draw.bytes 8))

/-- A number below `2 ^ bits`; the only such number for `bits = 0` takes no byte. -/
def randomBits (bits : Nat) : Draw σ PrimeError Nat :=
  if bits = 0 then
    pure 0
  else do
    return ofBuffer bits (← Draw.bytes (bufferSize bits))

/-- A number of exactly `bits` bits: the highest bit is set, the others are drawn. -/
def randomInteger (bits : Nat) : Draw σ PrimeError Nat :=
  if bits = 0 then
    Draw.fail (.invalidBitSize bits 1)
  else do
    return (← randomBits bits) ||| 1 <<< (bits - 1)

/-- Draws numbers at the size of `bound` until one falls below it. -/
def randomBelowLoop (bound : Nat) : (fuel : Nat) → Draw σ PrimeError Nat
  | 0 => Draw.outOfFuel
  | fuel + 1 => do
    let candidate ← randomBits (bitLength bound)
    -- A number that is too large is thrown away as a whole: folding it back would favour some.
    if candidate < bound then return candidate else randomBelowLoop bound fuel

/-- A number below `bound`. -/
def randomBelow (fuel bound : Nat) : Draw σ PrimeError Nat :=
  if bound = 0 then Draw.fail .emptyRange else randomBelowLoop bound fuel

end ProbablePrime
