/-
  ProbablePrime.Proofs.Draw.Operations — every operation that draws is causal.

  Single steps are causal and sequences of causal draws are, so what is composed of them is.  The
  classification of lists has errors of its own around those of its checks, and is followed through
  its lists from there.

  Main results:
    * `Causal.of_composed` — compositions are causal;
    * `causality` — all operations, where fuel is no object.
-/
import ProbablePrime.Proofs.Draw.Causality
import ProbablePrime.Proofs.Draw.Composed
import ProbablePrime.Proofs.Sampling.Below
import ProbablePrime.Vectors.TestVector

namespace ProbablePrime

open Entropy (Tape)
open Draw (Causal CausalEnds Composed Ends causal_bytes causal_fail causal_mapM causal_note
  causal_outOfFuel causal_pure)
open Primality (composed_check)

/-! ## §1. Compositions. -/

/-- **What is composed of single steps is causal.** -/
theorem Draw.Causal.of_composed {α : Type} {draw : Draw Tape PrimeError α} (h : Composed draw) :
    Causal Tape.exhausted draw := by
  induction h with
  | pure a => exact causal_pure a
  | fail cause => exact causal_fail cause
  | outOfFuel => exact causal_outOfFuel
  | note event => exact causal_note event
  | bytes count => exact causal_bytes count
  | bind _ _ hdraw hnext => exact hdraw.bind hnext

/-! ## §2. Test vectors. -/

namespace Vectors

/-- What is computed for every category is causal if it is for each. -/
theorem causal_build {ε α : Type} {refusal : ε} {f : Category → Draw Tape ε α}
    (hf : ∀ category, Causal refusal (f category)) : Causal refusal (PerCategory.build f) := by
  unfold PerCategory.build
  refine (hf .smallPrimes).bind fun smallPrimes => ?_
  refine (hf .largePrimes).bind fun largePrimes => ?_
  refine (hf .smallComposites).bind fun smallComposites => ?_
  exact (hf .largeComposites).bind fun largeComposites => causal_pure _

theorem causal_classify (fuel rounds : Nat) (category : Category) (n : Nat) :
    Causal (.prime Tape.exhausted) (classify fuel rounds category n) := by
  unfold classify
  refine ((Causal.of_composed (composed_check fuel rounds n)).widen VectorError.prime).bind
    fun verdict => ?_
  split
  · exact causal_fail _
  · split
    · exact causal_pure _
    · exact causal_fail _

/-- **Classifying lists is causal.** -/
theorem causal_ofInputs (fuel rounds : Nat) (inputs : Inputs) :
    Causal (.prime Tape.exhausted) (TestVectors.ofInputs fuel rounds inputs) := by
  unfold TestVectors.ofInputs
  refine causal_build fun category => ?_
  unfold classifyList
  refine (causal_mapM (causal_classify fuel rounds category) _).bind fun vectors => ?_
  exact (causal_note _).bind fun _ => causal_pure vectors

end Vectors

/-! ## §3. All operations. -/

/-- **No operation swallows a refusal, and none looks ahead.**  If it ends on a tape without an error
of the source, it ends so on every tape with the same front, with the same requests and events, and
on every tape that breaks off within this front it ends with the error of the tape. -/
theorem causality :
    (∀ bits, CausalEnds .entropy fun _ => randomBits bits)
      ∧ (∀ bits, CausalEnds .entropy fun _ => randomInteger bits)
      ∧ (∀ bound, CausalEnds .entropy fun fuel => randomBelow fuel bound)
      ∧ (∀ rounds n, CausalEnds .entropy fun fuel => Primality.check fuel rounds n)
      ∧ (∀ config bits, CausalEnds .entropy fun fuel => probablePrime config fuel bits)
      ∧ (∀ config, CausalEnds .entropy fun fuel => configuredPrime config fuel)
      ∧ (∀ config, CausalEnds .entropy fun fuel => Sample.draw config fuel)
      ∧ (∀ sample rounds, CausalEnds .entropy fun fuel => Sample.verify sample fuel rounds)
      ∧ (∀ config count bits,
        CausalEnds .entropy fun fuel => Vectors.synthesize config fuel count bits)
      ∧ ∀ rounds inputs, CausalEnds (fun reason => .prime (.entropy reason))
        fun fuel => Vectors.TestVectors.ofInputs fuel rounds inputs := by
  refine ⟨?_, ?_, ?_, ?_, ?_, ?_, ?_, ?_, ?_, ?_⟩
  · exact fun bits => .of_causal fun _ => .of_composed (composed_randomBits bits)
  · exact fun bits => .of_causal fun _ => .of_composed (composed_randomInteger bits)
  · exact fun bound => .of_causal fun fuel => .of_composed (composed_randomBelow fuel bound)
  · exact fun rounds n => .of_causal fun fuel => .of_composed (composed_check fuel rounds n)
  · exact fun config bits => .of_causal fun fuel =>
      .of_composed (composed_probablePrime config fuel bits)
  · exact fun config => .of_causal fun fuel =>
      .of_composed (composed_probablePrime config fuel config.bitSize)
  · exact fun config => .of_causal fun fuel => .of_composed (Sample.composed_draw config fuel)
  · exact fun sample rounds => .of_causal fun fuel =>
      .of_composed (sample.composed_verify fuel rounds)
  · exact fun config count bits => .of_causal fun fuel =>
      .of_composed (Vectors.composed_synthesize config fuel count bits)
  · exact fun rounds inputs => .of_causal fun fuel => Vectors.causal_ofInputs fuel rounds inputs

/-- Below five, the first byte is too large and the second is the answer.  The third byte can be
left out, the second cannot. -/
theorem causality_below_five :
    Ends (fun fuel => randomBelow fuel 5) (Session.start (⟨[7, 3, 9]⟩ : Tape)) (.ok 3)
        ⟨⟨[9]⟩, ⟨2, 2⟩, []⟩
      ∧ Ends (fun fuel => randomBelow fuel 5) (Session.start (⟨[7, 3]⟩ : Tape)) (.ok 3)
        ⟨⟨[]⟩, ⟨2, 2⟩, []⟩
      ∧ ∃ least, ∀ fuel, least ≤ fuel →
        ((randomBelow fuel 5).runIn (Session.start (⟨[7]⟩ : Tape))).1
          = .error (.error (.entropy "tape exhausted")) := by
  have hends : Ends (fun fuel => randomBelow fuel 5) (Session.start (⟨[7, 3, 9]⟩ : Tape)) (.ok 3)
      ⟨⟨[9]⟩, ⟨2, 2⟩, []⟩ := by
    have haccepted : Ends (fun fuel => randomBelow fuel 5) (⟨⟨[3, 9]⟩, ⟨1, 1⟩, []⟩ : Session Tape)
        (.ok (ofBuffer (Number.bitLength 5) [3])) ⟨⟨[9]⟩, ⟨2, 2⟩, []⟩ :=
      ends_randomBelow_of_accepted rfl (by decide)
    have hrejected : ¬ ofBuffer (Number.bitLength 5) [7] < 5 := by decide
    exact ends_randomBelow_of_rejected (by decide) rfl hrejected haccepted
  obtain ⟨-, -, hbelow, -⟩ := causality
  obtain ⟨hsame, hrefused⟩ := hbelow 5 [7, 3, 9] (.ok 3) _ hends (by simp)
  exact ⟨hends, hsame [7, 3] rfl, hrefused [7] ⟨[3, 9], rfl⟩ (by decide)⟩

end ProbablePrime
