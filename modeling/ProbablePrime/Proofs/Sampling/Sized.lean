/-
  ProbablePrime.Proofs.Sampling.Sized — numbers of a given size.

  A drawn integer has its highest bit set, whatever the buffer holds, and a candidate its lowest bit
  as well.  Setting these bits never makes a number longer than it was meant to be, not even where
  they are one and the same.

  Main results:
    * `bitLength_of_randomInteger` — a drawn integer has exactly the size that was asked for;
    * `odd_and_bitLength_of_randomCandidate` — so has a candidate, and it is odd;
    * `faithful_randomCandidate` — drawing a candidate fails only where the source does.
-/
import ProbablePrime.Generator
import ProbablePrime.Number.Lemmas
import ProbablePrime.Proofs.Sampling.Below
import ProbablePrime.Proofs.Sampling.BigEndian

namespace ProbablePrime

open Entropy (Source)
open Number (bitLength bitLength_le_iff bitLength_shiftLeft_one bitLength_or)
open Draw (Faithful)

variable {σ : Type} [Source σ]

/-! ## §1. Integers. -/

/-- The integer that a buffer stands for. -/
def integerOf (bits : Nat) (buffer : List UInt8) : Nat := ofBuffer bits buffer ||| 1 <<< (bits - 1)

theorem bitLength_integerOf {bits : Nat} (hbits : bits ≠ 0) {buffer : List UInt8}
    (hlength : buffer.length = bufferSize bits) : bitLength (integerOf bits buffer) = bits := by
  have htop : bitLength (1 <<< (bits - 1)) = bits := by
    rw [bitLength_shiftLeft_one]
    omega
  -- The bit that is set is the longer of the two, so the buffer adds no length to it.
  rw [integerOf, Nat.or_comm, bitLength_or, htop]
  rw [htop]
  exact bitLength_le_iff.2 (ofBuffer_lt hlength)

/-- How a draw of an integer runs: one request, and the highest bit set. -/
theorem runIn_randomInteger {bits : Nat} (hbits : bits ≠ 0) (session : Session σ) :
    (randomInteger bits : Draw σ PrimeError Nat).runIn session
      = (((Source.fill (bufferSize bits) session.source).1.map (integerOf bits)).mapError Stop.error,
          session.asked (bufferSize bits)) := by
  rw [randomInteger, if_neg hbits, Draw.runIn_bind, runIn_randomBits hbits]
  cases (Source.fill (bufferSize bits) session.source).1 with
  | ok buffer => rfl
  | error cause => rfl

theorem faithful_randomInteger {bits : Nat} (hbits : bits ≠ 0) :
    Faithful (randomInteger bits : Draw σ PrimeError Nat) := by
  rw [randomInteger, if_neg hbits]
  exact (faithful_randomBits bits).bind fun _ => Draw.faithful_pure _

/-- Of no bits at all there is no integer. -/
theorem ne_zero_of_randomInteger {bits n : Nat} {session session' : Session σ}
    (h : (randomInteger bits).runIn session = (.ok n, session')) : bits ≠ 0 := by
  intro hbits
  rw [randomInteger, if_pos hbits] at h
  simp at h

/-- **A drawn integer has exactly the size that was asked for.** -/
theorem bitLength_of_randomInteger {bits n : Nat} {session session' : Session σ}
    (h : (randomInteger bits).runIn session = (.ok n, session')) : bitLength n = bits := by
  have hbits : bits ≠ 0 := ne_zero_of_randomInteger h
  rw [runIn_randomInteger hbits] at h
  cases hfill : (Source.fill (bufferSize bits) session.source).1 with
  | error cause =>
    rw [hfill] at h
    simp [Except.map, Except.mapError] at h
  | ok buffer =>
    rw [hfill] at h
    obtain ⟨hn, -⟩ := Prod.mk.inj h
    obtain rfl : integerOf bits buffer = n := Except.ok.inj hn
    exact bitLength_integerOf hbits (Source.length_of_fill hfill)

/-! ## §2. Candidates. -/

/-- A candidate is an integer made odd. -/
theorem runIn_randomCandidate_eq_ok {bits c : Nat} {session session' : Session σ} :
    (randomCandidate bits).runIn session = (.ok c, session')
      ↔ ∃ n, (randomInteger bits).runIn session = (.ok n, session') ∧ c = n ||| 1 := by
  rw [randomCandidate, Draw.runIn_bind_eq_ok]
  constructor
  · intro h
    obtain ⟨n, mid, hdraw, hpure⟩ := h
    rw [Draw.runIn_pure_eq_ok] at hpure
    obtain ⟨rfl, rfl⟩ := hpure
    exact ⟨n, hdraw, rfl⟩
  · intro h
    obtain ⟨n, hdraw, rfl⟩ := h
    exact ⟨n, session', hdraw, rfl⟩

/-- Where the request is served, the candidate stands in the buffer. -/
theorem runIn_randomCandidate_of_served {bits : Nat} (hbits : bits ≠ 0) {session : Session σ}
    {buffer : List UInt8} (h : (Source.fill (bufferSize bits) session.source).1 = .ok buffer) :
    (randomCandidate bits).runIn session
      = (.ok (integerOf bits buffer ||| 1), session.asked (bufferSize bits)) := by
  rw [runIn_randomCandidate_eq_ok]
  refine ⟨integerOf bits buffer, ?_, rfl⟩
  rw [runIn_randomInteger hbits, h]
  rfl

theorem faithful_randomCandidate {bits : Nat} (hbits : bits ≠ 0) :
    Faithful (randomCandidate bits : Draw σ PrimeError Nat) :=
  (faithful_randomInteger hbits).bind fun _ => Draw.faithful_pure _

/-- **A candidate is odd, and has exactly the size that was asked for.** -/
theorem odd_and_bitLength_of_randomCandidate {bits c : Nat} {session session' : Session σ}
    (h : (randomCandidate bits).runIn session = (.ok c, session')) :
    c % 2 = 1 ∧ bitLength c = bits := by
  obtain ⟨n, hdraw, rfl⟩ := runIn_randomCandidate_eq_ok.1 h
  have hsize : bitLength n = bits := bitLength_of_randomInteger hdraw
  constructor
  · exact Nat.or_mod_two_eq_one.2 (Or.inr rfl)
  · rw [bitLength_or, hsize]
    -- Even of one bit there is room for the bit that makes it odd.
    have hbits : bits ≠ 0 := ne_zero_of_randomInteger hdraw
    have hone : bitLength 1 = 1 := rfl
    omega

end ProbablePrime
