/-
  ProbablePrime.Proofs.Draw.Termination — every operation that draws ends on every tape.

  The loops that wait for their luck read at least one byte in every turn: a draw below a bound has a
  bound of one bit or more, and a candidate for a prime has two.  The rounds of a check and the lists
  of numbers are counted.  The walk over the small numbers is neither, for the numbers of the table
  cost it nothing; it stops because it has a ceiling.

  Main results:
    * `consuming_check`, `consuming_probablePrime` and `consuming_scan` — the loops;
    * `ends_on_tapes` — all operations.
-/
import ProbablePrime.Proofs.Draw.Consumption
import ProbablePrime.Proofs.Generator.Cap
import ProbablePrime.Proofs.Sample.Verification
import ProbablePrime.Proofs.Vectors.ScanBound
import ProbablePrime.Vectors.TestVector

namespace ProbablePrime

open Entropy (Source Tape)
open Draw (Consuming EndsOnTapes Shortens Steady consuming_bytes consuming_fail consuming_mapM
  consuming_note consuming_outOfFuel consuming_pure shortens_bytes)

/-! ## §1. Fuel decides whether an operation ends, never how. -/

section

variable {σ : Type} [Source σ]

theorem Sample.steady_draw (config : Config) :
    Steady fun fuel => (Sample.draw config fuel : Draw σ PrimeError Sample) := by
  unfold Sample.draw configuredPrime
  refine (Draw.steady_const _).bind fun random => ?_
  refine (steady_probablePrime config config.bitSize).bind fun p => ?_
  exact (steady_probablePrime config config.bitSize).bind fun q => Draw.steady_const _

namespace Vectors

theorem steady_drawLarge (config : Config) (bits count : Nat) :
    Steady fun fuel => (drawLarge config fuel bits count : Draw σ PrimeError _) := by
  induction count with
  | zero => exact Draw.steady_const _
  | succ count ih =>
    unfold drawLarge semiprime
    refine (steady_probablePrime config bits).bind fun prime => ?_
    refine Steady.bind ?_ fun composite => ih.bind fun lists => Draw.steady_const _
    refine (steady_probablePrime config (factorBits bits)).bind fun p => ?_
    exact (steady_probablePrime config (factorBits bits)).bind fun q => Draw.steady_const _

theorem steady_synthesize (config : Config) (count bits : Nat) :
    Steady fun fuel => (synthesize config fuel count bits : Draw σ PrimeError Inputs) := by
  unfold synthesize
  refine (steady_scan config.rounds count).bind fun small => ?_
  exact (steady_drawLarge config bits count).bind fun large => Draw.steady_const _

theorem steady_ofInputs (rounds : Nat) (inputs : Inputs) :
    Steady fun fuel => (TestVectors.ofInputs fuel rounds inputs : Draw σ VectorError _) := by
  have hclassify (category : Category) (n : Nat) :
      Steady fun fuel => (classify fuel rounds category n : Draw σ VectorError TestVector) := by
    unfold classify
    exact ((Primality.steady_check rounds n).widen _).bind fun verdict => Draw.steady_const _
  have hlist (category : Category) :
      Steady fun fuel => (classifyList fuel rounds inputs category : Draw σ VectorError _) := by
    unfold classifyList
    exact (Steady.mapM (hclassify category) _).bind fun vectors => Draw.steady_const _
  unfold TestVectors.ofInputs PerCategory.build
  refine (hlist .smallPrimes).bind fun smallPrimes => ?_
  refine (hlist .largePrimes).bind fun largePrimes => ?_
  refine (hlist .smallComposites).bind fun smallComposites => ?_
  exact (hlist .largeComposites).bind fun largeComposites => Draw.steady_const _

end Vectors

end

/-! ## §2. Numbers. -/

theorem bufferSize_pos {bits : Nat} (hbits : bits ≠ 0) : 0 < bufferSize bits := by
  unfold bufferSize
  omega

variable {limit : Nat}

theorem consuming_randomBits (bits : Nat) : Consuming Tape.exhausted limit (randomBits bits) := by
  unfold randomBits
  split
  · exact consuming_pure 0
  · next hbits => exact (consuming_bytes (bufferSize_pos hbits)).bind fun _ => consuming_pure _

/-- A number that has bits is made of bytes. -/
theorem shortens_randomBits {bits : Nat} (hbits : bits ≠ 0) : Shortens (randomBits bits) := by
  unfold randomBits
  rw [if_neg hbits]
  exact (shortens_bytes (bufferSize_pos hbits)).bind_pure _

theorem consuming_randomInteger (bits : Nat) :
    Consuming Tape.exhausted limit (randomInteger bits) := by
  unfold randomInteger
  split
  · exact consuming_fail _
  · exact (consuming_randomBits bits).bind fun _ => consuming_pure _

/-- Every turn of a draw below a bound reads at least one byte. -/
theorem consuming_randomBelow (fuel bound : Nat) :
    Consuming Tape.exhausted fuel (randomBelow fuel bound) := by
  unfold randomBelow
  split
  · exact consuming_fail _
  · next hbound =>
    have hbits : Number.bitLength bound ≠ 0 := bitLength_ne_zero (Nat.pos_of_ne_zero hbound)
    induction fuel with
    | zero => exact consuming_outOfFuel
    | succ fuel ih =>
      unfold randomBelowLoop
      -- What is thrown away has been read all the same.
      refine (consuming_randomBits _).bind_of_shortens (shortens_randomBits hbits) fun candidate => ?_
      split
      · exact consuming_pure candidate
      · exact ih

/-! ## §3. The check and the search. -/

namespace Primality

theorem consuming_passesRounds (fuel n : Nat) (parts : Decomposition) (rounds : Nat) :
    Consuming Tape.exhausted fuel (passesRounds fuel n parts rounds) := by
  induction rounds with
  | zero => exact consuming_pure true
  | succ rounds ih =>
    unfold passesRounds
    refine (consuming_randomBelow fuel (n - 3)).bind fun a => ?_
    split
    · exact ih
    · exact consuming_pure false

theorem consuming_check (fuel rounds n : Nat) :
    Consuming Tape.exhausted fuel (check fuel rounds n) := by
  unfold check
  split
  · exact consuming_fail _
  · split
    · exact consuming_pure _
    · next parts _ =>
      split
      · exact consuming_pure _
      · split
        · exact consuming_pure _
        · exact (consuming_passesRounds fuel n parts rounds).bind fun _ => consuming_pure _

end Primality

open Primality (check consuming_check isProbablePrime)

theorem consuming_randomCandidate (bits : Nat) :
    Consuming Tape.exhausted limit (randomCandidate bits) :=
  (consuming_randomInteger bits).bind fun _ => consuming_pure _

theorem shortens_randomCandidate {bits : Nat} (hbits : bits ≠ 0) :
    Shortens (randomCandidate bits) := by
  unfold randomCandidate randomInteger
  rw [if_neg hbits]
  exact ((shortens_randomBits hbits).bind_pure _).bind_pure _

/-- Every turn of a search reads at least one byte, so it wants for turns no sooner than the checks
want for fuel. -/
theorem consuming_searchFrom (config : Config) {bits : Nat} (hbits : bits ≠ 0) {fuel turns : Nat}
    (hle : turns ≤ fuel) (attempts : Nat) :
    Consuming Tape.exhausted turns (searchFrom config fuel bits turns attempts) := by
  induction turns generalizing attempts with
  | zero => exact consuming_outOfFuel
  | succ turns ih =>
    unfold searchFrom
    split
    · exact (consuming_note _).bind fun _ => consuming_fail _
    · -- The candidate is paid for with a byte, and the turn with the candidate.
      refine (consuming_randomCandidate bits).bind_of_shortens (shortens_randomCandidate hbits)
        fun candidate => ?_
      refine ((consuming_check fuel config.rounds candidate).mono (by omega)).bind fun verdict => ?_
      split
      · exact (consuming_note _).bind fun _ => consuming_pure candidate
      · exact ih (by omega) (attempts + 1)

theorem consuming_probablePrime (config : Config) (fuel bits : Nat) :
    Consuming Tape.exhausted fuel (probablePrime config fuel bits) := by
  unfold probablePrime
  split
  · exact consuming_fail _
  · next hsize =>
    rw [leastPrimeBits] at hsize
    exact consuming_searchFrom config (by omega) le_rfl 0

/-! ## §4. Samples. -/

namespace Sample

theorem consuming_draw (config : Config) (fuel : Nat) :
    Consuming Tape.exhausted fuel (draw config fuel) := by
  unfold draw
  refine (consuming_randomInteger config.bitSize).bind fun random => ?_
  refine (consuming_probablePrime config fuel config.bitSize).bind fun p => ?_
  refine (consuming_probablePrime config fuel config.bitSize).bind fun q => ?_
  exact (consuming_note _).bind fun _ => consuming_pure _

theorem consuming_verifySize (sample : Sample) (which : Drawn) :
    Consuming Tape.exhausted limit (sample.verifySize which) := by
  unfold verifySize
  dsimp only
  split
  · exact consuming_pure ()
  · exact consuming_fail _

theorem consuming_verifyPrime (sample : Sample) (fuel rounds : Nat) (which : Drawn) :
    Consuming Tape.exhausted fuel (sample.verifyPrime fuel rounds which) := by
  unfold verifyPrime
  refine (consuming_check fuel rounds _).bind fun verdict => ?_
  split
  · exact consuming_pure ()
  · exact consuming_fail _

theorem consuming_verify (sample : Sample) (fuel rounds : Nat) :
    Consuming Tape.exhausted fuel (sample.verify fuel rounds) := by
  unfold verify
  refine (consuming_verifySize sample .random).bind fun _ => ?_
  refine (consuming_verifySize sample .p).bind fun _ => ?_
  refine (consuming_verifySize sample .q).bind fun _ => ?_
  refine (consuming_verifyPrime sample fuel rounds .p).bind fun _ => ?_
  refine (consuming_verifyPrime sample fuel rounds .q).bind fun _ => ?_
  split
  · exact consuming_pure ()
  · exact consuming_fail _

end Sample

/-! ## §5. Lists and test vectors. -/

namespace Vectors

variable {fuel rounds count turns n : Nat} {primes composites : List Nat}

theorem consuming_isProbablePrime (fuel rounds n : Nat) :
    Consuming Tape.exhausted fuel (isProbablePrime fuel rounds n) :=
  (consuming_check fuel rounds n).bind fun _ => consuming_pure _

/-- The walk takes a course, however many turns it has. -/
theorem consuming_scanFrom :
    Consuming Tape.exhausted 0 (scanFrom fuel rounds count turns n primes composites) := by
  induction turns generalizing n primes composites with
  | zero => exact consuming_outOfFuel
  | succ turns ih =>
    unfold scanFrom
    split
    · refine ((consuming_isProbablePrime fuel rounds n).mono (Nat.zero_le _)).bind fun passed => ?_
      split
      · exact ih
      · exact ih
    · exact consuming_pure _

/-- A walk with turns up to its ceiling wants for fuel only where a check does. -/
theorem ended_walkFrom {session mid : Session Tape} {place : Place}
    (hcomes : Comes rounds count session place mid) (hturns : ceiling count + 2 ≤ place.n + turns)
    (hfuel : mid.left < fuel) :
    ((walkFrom fuel rounds count turns place).runIn mid).1 ≠ .error .outOfFuel := by
  -- The measure is the way to the ceiling, not the tape: a turn may read nothing at all.
  induction turns generalizing place mid with
  | zero =>
    have := hcomes.le_ceiling_add_one
    omega
  | succ turns ih =>
    by_cases hopen : place.Open count
    · rw [walkFrom_of_open hopen]
      have hcheck := consuming_isProbablePrime fuel rounds place.n
      rcases hrun : (isProbablePrime fuel rounds place.n).runIn mid with ⟨result, after⟩
      cases result with
      | error stop =>
        have hended := hcheck.ended hfuel
        rw [hrun] at hended
        rw [Draw.runIn_bind_of_error hrun]
        intro hout
        exact hended (congrArg Except.error (Except.error.inj hout))
      | ok passed =>
        obtain ⟨sizes, hspends⟩ := (hcheck.course hrun).spends_of_ok
        have hleft : after.left < fuel := by
          have := hspends.left
          omega
        have hends : Draw.Ends (fun fuel => isProbablePrime fuel rounds place.n) mid (.ok passed)
            after := (steady_isProbablePrime rounds place.n).ends hrun
        rw [Draw.runIn_bind_of_ok hrun]
        exact ih (hcomes.next hopen hends) (by rw [Place.next_n]; omega) hleft
    · simp [walkFrom_of_not_open hopen]

/-- **The walk over the small numbers has a ceiling**, and wants for fuel only where the fuel does not
reach up to it. -/
theorem consuming_scan (fuel rounds count : Nat) :
    Consuming Tape.exhausted (fuel - ceiling count) (scan fuel rounds count) where
  course hrun := consuming_scanFrom.course hrun
  ended {session} hlt := ended_walkFrom .start (by show _ ≤ 2 + _; omega) (by omega)

theorem consuming_drawLarge (config : Config) (fuel bits count : Nat) :
    Consuming Tape.exhausted fuel (drawLarge config fuel bits count) := by
  have hsemiprime : Consuming Tape.exhausted fuel (semiprime config fuel bits) := by
    unfold semiprime
    refine (consuming_probablePrime config fuel (factorBits bits)).bind fun p => ?_
    exact (consuming_probablePrime config fuel (factorBits bits)).bind fun q => consuming_pure _
  induction count with
  | zero => exact consuming_pure _
  | succ count ih =>
    unfold drawLarge
    refine (consuming_probablePrime config fuel bits).bind fun prime => ?_
    refine hsemiprime.bind fun composite => ?_
    exact ih.bind fun lists => consuming_pure _

theorem consuming_synthesize (config : Config) (fuel count bits : Nat) :
    Consuming Tape.exhausted (fuel - ceiling count) (synthesize config fuel count bits) := by
  unfold synthesize
  refine (consuming_scan fuel config.rounds count).bind fun small => ?_
  refine ((consuming_drawLarge config fuel bits count).mono (Nat.sub_le _ _)).bind fun large => ?_
  exact consuming_pure _

theorem consuming_classify (fuel rounds : Nat) (category : Category) (n : Nat) :
    Consuming (.prime Tape.exhausted) fuel (classify fuel rounds category n) := by
  unfold classify
  refine ((consuming_check fuel rounds n).widen VectorError.prime).bind fun verdict => ?_
  split
  · exact consuming_fail _
  · split
    · exact consuming_pure _
    · exact consuming_fail _

theorem consuming_ofInputs (fuel rounds : Nat) (inputs : Inputs) :
    Consuming (.prime Tape.exhausted) fuel (TestVectors.ofInputs fuel rounds inputs) := by
  have hlist (category : Category) :
      Consuming (.prime Tape.exhausted) fuel (classifyList fuel rounds inputs category) := by
    unfold classifyList
    refine (consuming_mapM (consuming_classify fuel rounds category) _).bind fun vectors => ?_
    exact (consuming_note _).bind fun _ => consuming_pure vectors
  unfold TestVectors.ofInputs PerCategory.build
  refine (hlist .smallPrimes).bind fun smallPrimes => ?_
  refine (hlist .largePrimes).bind fun largePrimes => ?_
  refine (hlist .smallComposites).bind fun smallComposites => ?_
  exact (hlist .largeComposites).bind fun largeComposites => consuming_pure _

end Vectors

/-! ## §6. All operations. -/

/-- **Every operation ends on every tape**, without a cap on its candidates too.  Its requests are for
a byte at least; the first that the tape cannot serve ends it with the error of the tape, and so there
is at most one request more than the tape has bytes. -/
theorem ends_on_tapes :
    (∀ bound, EndsOnTapes Tape.exhausted fun fuel => randomBelow fuel bound)
      ∧ (∀ rounds n, EndsOnTapes Tape.exhausted fun fuel => check fuel rounds n)
      ∧ (∀ config bits, EndsOnTapes Tape.exhausted fun fuel => probablePrime config fuel bits)
      ∧ (∀ config, EndsOnTapes Tape.exhausted fun fuel => Sample.draw config fuel)
      ∧ (∀ sample rounds, EndsOnTapes Tape.exhausted fun fuel => Sample.verify sample fuel rounds)
      ∧ (∀ config count bits,
        EndsOnTapes Tape.exhausted fun fuel => Vectors.synthesize config fuel count bits)
      ∧ ∀ rounds inputs, EndsOnTapes (.prime Tape.exhausted)
        fun fuel => Vectors.TestVectors.ofInputs fuel rounds inputs := by
  refine ⟨fun bound => ?_, fun rounds n => ?_, fun config bits => ?_, fun config => ?_,
    fun sample rounds => ?_, fun config count bits => ?_, fun rounds inputs => ?_⟩
  · exact .of_consuming 0 (steady_randomBelow bound) fun fuel =>
      consuming_randomBelow fuel bound
  · exact .of_consuming 0 (Primality.steady_check rounds n) fun fuel =>
      consuming_check fuel rounds n
  · exact .of_consuming 0 (steady_probablePrime config bits) fun fuel =>
      consuming_probablePrime config fuel bits
  · exact .of_consuming 0 (Sample.steady_draw config) fun fuel =>
      Sample.consuming_draw config fuel
  · exact .of_consuming 0 (Sample.steady_verify sample rounds) fun fuel =>
      sample.consuming_verify fuel rounds
  · exact .of_consuming (Vectors.ceiling count)
      (Vectors.steady_synthesize config count bits) fun fuel =>
        Vectors.consuming_synthesize config fuel count bits
  · exact .of_consuming 0 (Vectors.steady_ofInputs rounds inputs) fun fuel =>
      Vectors.consuming_ofInputs fuel rounds inputs

end ProbablePrime
