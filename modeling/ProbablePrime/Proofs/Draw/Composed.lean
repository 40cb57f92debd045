/-
  ProbablePrime.Proofs.Draw.Composed — operations as compositions of single steps.

  An operation does little with its session: it asks for bytes, it notes events, and it stops.  All
  else is a sequence of draws, with loops of no fixed length: a witness is drawn until it is small
  enough, within the rounds of a check, within a search for a prime, within the making of lists.  Each
  loop is a composition by induction on the turns it may still make.

  So what single steps do and sequences keep, all operations do: induction over `Composed` replaces
  one walk through the operations for each such property.

  Main results:
    * `Primality.composed_check` and `composed_probablePrime` — the check and the search;
    * `Sample.composed_draw`, `Sample.composed_verify` and `Vectors.composed_synthesize` — what is made
      of them.
-/
import ProbablePrime.Proofs.Draw.Run
import ProbablePrime.Sample.Basic
import ProbablePrime.Vectors.Inputs

namespace ProbablePrime

open Entropy (Source)

variable {σ : Type} [Source σ]

/-! ## §1. Compositions. -/

/-- The draw is composed of requests, events and stops. -/
inductive Draw.Composed : {α : Type} → Draw σ PrimeError α → Prop
  /-- A value. -/
  | pure {α : Type} (a : α) : Composed (pure a : Draw σ PrimeError α)
  /-- An error. -/
  | fail {α : Type} (cause : PrimeError) : Composed (fail cause : Draw σ PrimeError α)
  /-- The end of the fuel. -/
  | outOfFuel {α : Type} : Composed (outOfFuel : Draw σ PrimeError α)
  /-- An event. -/
  | note (event : Log.Event) : Composed (note event)
  /-- A request. -/
  | bytes (count : Nat) : Composed (bytes count)
  /-- A sequence. -/
  | bind {α β : Type} {draw : Draw σ PrimeError α} {next : α → Draw σ PrimeError β} :
    Composed draw → (∀ a, Composed (next a)) → Composed (draw >>= next)

open Draw (Composed)

/-! ## §2. Numbers. -/

theorem composed_randomBits (bits : Nat) :
    Composed (randomBits bits : Draw σ PrimeError Nat) := by
  unfold randomBits
  split
  · exact .pure 0
  · exact (Composed.bytes (bufferSize bits)).bind fun _ => .pure _

theorem composed_randomInteger (bits : Nat) :
    Composed (randomInteger bits : Draw σ PrimeError Nat) := by
  unfold randomInteger
  split
  · exact .fail _
  · exact (composed_randomBits bits).bind fun _ => .pure _

theorem composed_randomBelow (fuel bound : Nat) :
    Composed (randomBelow fuel bound : Draw σ PrimeError Nat) := by
  unfold randomBelow
  split
  · exact .fail _
  · induction fuel with
    | zero => exact .outOfFuel
    | succ fuel ih =>
      unfold randomBelowLoop
      refine (composed_randomBits _).bind fun candidate => ?_
      split
      · exact .pure candidate
      · exact ih

/-! ## §3. The check and the search. -/

namespace Primality

theorem composed_passesRounds (fuel n : Nat) (parts : Decomposition) (rounds : Nat) :
    Composed (passesRounds fuel n parts rounds : Draw σ PrimeError Bool) := by
  induction rounds with
  | zero => exact .pure true
  | succ rounds ih =>
    unfold passesRounds
    refine (composed_randomBelow fuel (n - 3)).bind fun a => ?_
    split
    · exact ih
    · exact .pure false

/-- **A check is composed.** -/
theorem composed_check (fuel rounds n : Nat) :
    Composed (check fuel rounds n : Draw σ PrimeError Verdict) := by
  unfold check
  split
  · exact .fail _
  · split
    · exact .pure _
    · next parts _ =>
      split
      · exact .pure _
      · split
        · exact .pure _
        · exact (composed_passesRounds fuel n parts rounds).bind fun _ => .pure _

end Primality

open Primality (composed_check)

theorem composed_searchFrom (config : Config) (fuel bits turns attempts : Nat) :
    Composed (searchFrom config fuel bits turns attempts : Draw σ PrimeError Nat) := by
  induction turns generalizing attempts with
  | zero => exact .outOfFuel
  | succ turns ih =>
    have hcandidate : Composed (randomCandidate bits : Draw σ PrimeError Nat) :=
      (composed_randomInteger bits).bind fun _ => .pure _
    unfold searchFrom
    split
    · exact (Composed.note _).bind fun _ => .fail _
    · refine hcandidate.bind fun candidate => ?_
      refine (composed_check fuel config.rounds candidate).bind fun verdict => ?_
      split
      · exact (Composed.note _).bind fun _ => .pure candidate
      · exact ih (attempts + 1)

/-- **A search for a prime is composed.** -/
theorem composed_probablePrime (config : Config) (fuel bits : Nat) :
    Composed (probablePrime config fuel bits : Draw σ PrimeError Nat) := by
  unfold probablePrime
  split
  · exact .fail _
  · exact composed_searchFrom config fuel bits fuel 0

/-! ## §4. Samples and lists. -/

namespace Sample

/-- **The drawing of a sample is composed.** -/
theorem composed_draw (config : Config) (fuel : Nat) :
    Composed (draw config fuel : Draw σ PrimeError Sample) := by
  unfold draw configuredPrime
  refine (composed_randomInteger config.bitSize).bind fun random => ?_
  refine (composed_probablePrime config fuel config.bitSize).bind fun p => ?_
  refine (composed_probablePrime config fuel config.bitSize).bind fun q => ?_
  exact (Composed.note _).bind fun _ => .pure _

theorem composed_verifySize (sample : Sample) (which : Drawn) :
    Composed (sample.verifySize which : Draw σ PrimeError Unit) := by
  unfold verifySize
  dsimp only
  split
  · exact .pure ()
  · exact .fail _

theorem composed_verifyPrime (sample : Sample) (fuel rounds : Nat) (which : Drawn) :
    Composed (sample.verifyPrime fuel rounds which : Draw σ PrimeError Unit) := by
  unfold verifyPrime
  refine (composed_check fuel rounds _).bind fun verdict => ?_
  split
  · exact .pure ()
  · exact .fail _

/-- **A verification is composed.** -/
theorem composed_verify (sample : Sample) (fuel rounds : Nat) :
    Composed (sample.verify fuel rounds : Draw σ PrimeError Unit) := by
  unfold verify
  refine (composed_verifySize sample .random).bind fun _ => ?_
  refine (composed_verifySize sample .p).bind fun _ => ?_
  refine (composed_verifySize sample .q).bind fun _ => ?_
  refine (composed_verifyPrime sample fuel rounds .p).bind fun _ => ?_
  refine (composed_verifyPrime sample fuel rounds .q).bind fun _ => ?_
  split
  · exact .pure ()
  · exact .fail _

end Sample

namespace Vectors

theorem composed_scanFrom (fuel rounds count turns n : Nat) (primes composites : List Nat) :
    Composed (scanFrom fuel rounds count turns n primes composites
      : Draw σ PrimeError (List Nat × List Nat)) := by
  induction turns generalizing n primes composites with
  | zero => exact .outOfFuel
  | succ turns ih =>
    have hcheck : Composed (Primality.isProbablePrime fuel rounds n : Draw σ PrimeError Bool) :=
      (composed_check fuel rounds n).bind fun _ => .pure _
    unfold scanFrom
    split
    · refine hcheck.bind fun passed => ?_
      split
      · exact ih (n + 1) (fillUp count n primes) composites
      · exact ih (n + 1) primes (fillUp count n composites)
    · exact .pure _

theorem composed_drawLarge (config : Config) (fuel bits count : Nat) :
    Composed (drawLarge config fuel bits count : Draw σ PrimeError (List Nat × List Nat)) := by
  have hsemiprime : Composed (semiprime config fuel bits : Draw σ PrimeError Nat) := by
    unfold semiprime
    refine (composed_probablePrime config fuel (factorBits bits)).bind fun p => ?_
    exact (composed_probablePrime config fuel (factorBits bits)).bind fun q => .pure _
  induction count with
  | zero => exact .pure _
  | succ count ih =>
    unfold drawLarge
    refine (composed_probablePrime config fuel bits).bind fun prime => ?_
    refine hsemiprime.bind fun composite => ?_
    exact ih.bind fun lists => .pure _

/-- **The making of lists is composed.** -/
theorem composed_synthesize (config : Config) (fuel count bits : Nat) :
    Composed (synthesize config fuel count bits : Draw σ PrimeError Inputs) := by
  unfold synthesize scan
  refine (composed_scanFrom fuel config.rounds count fuel 2 [] []).bind fun small => ?_
  exact (composed_drawLarge config fuel bits count).bind fun large => .pure _

end Vectors

end ProbablePrime
