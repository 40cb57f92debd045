/-
  ProbablePrime.Proofs.Sampling.Ones — a source whose bytes have all their bits set.

  A draw below a bound throws away what is too large and asks again, and nothing limits how often.
  Bytes of ones make the largest number of their size, which is never below a bound of that size.  So
  a source that serves nothing else refuses no request, and yet no draw from it comes to an end.

  Main results:
    * `ofBuffer_replicate_ones` — a buffer of ones keeps the largest number of its size;
    * `endless_randomBelow_of_ones` — no draw below a bound ends.
-/
import ProbablePrime.Number.Lemmas
import ProbablePrime.Proofs.Sampling.Below
import ProbablePrime.Proofs.Sampling.BigEndian

namespace ProbablePrime

open Entropy (Source)
open Entropy.Source (NeverRefuses)
open Number (bitLength lt_two_pow_bitLength)
open Draw (Endless)

/-! ## §1. The source. -/

/-- A source that serves bytes of ones, as many as it is asked for. -/
structure Entropy.Ones where
  deriving DecidableEq, Repr

/-- The byte whose bits are all set. -/
def Entropy.Ones.byte : UInt8 := 0xff

open Entropy (Ones)

instance : Source Ones where
  fill count source := (.ok (List.replicate count Ones.byte), source)
  length_of_fill h := by
    rw [← Except.ok.inj h, List.length_replicate]

/-- It refuses nothing. -/
theorem Entropy.Ones.neverRefuses (source : Ones) : NeverRefuses source :=
  NeverRefuses.of_fill (fun count _ => ⟨List.replicate count byte, rfl⟩) source

/-! ## §2. The largest number of a size. -/

theorem ofBigEndian_replicate_ones (size : Nat) :
    ofBigEndian (List.replicate size Ones.byte) + 1 = 256 ^ size := by
  induction size with
  | zero => rfl
  | succ size ih =>
    have hbyte : Ones.byte.toNat = 255 := rfl
    rw [List.replicate_succ', ofBigEndian_concat, hbyte, Nat.pow_succ, ← ih]
    ring

/-- **A buffer of ones keeps the largest number of its size.** -/
theorem ofBuffer_replicate_ones (bits : Nat) :
    ofBuffer bits (List.replicate (bufferSize bits) Ones.byte) + 1 = 2 ^ bits := by
  have hpositive : 0 < 2 ^ bits := Nat.two_pow_pos bits
  obtain ⟨high, hhigh⟩ : ∃ high, 2 ^ (8 * bufferSize bits - bits) = high + 1 :=
    ⟨_, (Nat.succ_pred (Nat.two_pow_pos _).ne').symm⟩
  -- The number of the whole buffer, as what is kept and what is thrown away.
  have hwhole : ofBigEndian (List.replicate (bufferSize bits) Ones.byte)
      = (2 ^ bits - 1) + 2 ^ bits * high := by
    have hones := ofBigEndian_replicate_ones (bufferSize bits)
    rw [← two_pow_mul_two_pow (bits_le_bufferSize bits), hhigh, Nat.mul_succ] at hones
    omega
  rw [ofBuffer_eq_mod List.length_replicate, hwhole, Nat.add_mul_mod_self_left,
    Nat.mod_eq_of_lt (Nat.sub_lt hpositive Nat.one_pos), Nat.sub_add_cancel hpositive]

/-- The largest number of the size of a bound is not below it. -/
theorem not_ofBuffer_ones_lt (bound : Nat) :
    ¬ ofBuffer (bitLength bound) (List.replicate (attemptSize bound) Ones.byte) < bound := by
  have hbound : bound < 2 ^ bitLength bound := lt_two_pow_bitLength bound
  have hones := ofBuffer_replicate_ones (bitLength bound)
  rw [attemptSize]
  omega

/-! ## §3. Draws without an end. -/

/-- **No draw below a bound ends**, though every request of it is served. -/
theorem endless_randomBelow_of_ones {bound : Nat} (hbound : 0 < bound) (session : Session Ones) :
    Endless (fun fuel => randomBelow fuel bound) session := by
  rw [randomBelow_of_pos hbound]
  intro fuel
  -- Each turn throws its number away, and the source is as it was before.
  induction fuel generalizing session with
  | zero => rfl
  | succ fuel ih =>
    rw [runIn_randomBelowLoop_of_served hbound fuel rfl, if_neg (not_ofBuffer_ones_lt bound)]
    exact ih _

end ProbablePrime
