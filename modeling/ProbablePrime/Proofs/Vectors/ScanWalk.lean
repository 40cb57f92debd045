/-
  ProbablePrime.Proofs.Vectors.ScanWalk — the end of the walk over the small numbers.

  No place past the ceiling lacks numbers, so a walk with turns up to it has turns enough.  What is
  left to keep a walk from its end is one of its tests, and a test is kept from its end by the draw of
  one of its witnesses.

  Main results:
    * `runIn_scanFrom_of_turns` — turns past the ceiling are never used;
    * `exists_endless_of_scan` — a walk without an end is stuck in the draw of a witness;
    * `ends_synthesize_ok_iff` — the small numbers of made-up lists are those of the walk;
    * `scan_bounded` — the bound and the end of the walk.
-/
import ProbablePrime.Entropy.KeyStream
import ProbablePrime.Proofs.Draw.Termination
import ProbablePrime.Proofs.Vectors.ScanBound

namespace ProbablePrime.Vectors

open Entropy (Source KeyStream)
open Entropy.Source (NeverRefuses)
open Primality (DrawsWitness Settled Verdict isProbablePrime)
open Draw (Ends Endless Faithful Steady)

variable {σ : Type} [Source σ] {fuel rounds count turns n : Nat} {session mid after : Session σ}

/-! ## §1. One test. -/

theorem faithful_isProbablePrime (hrounds : rounds ≠ 0) (fuel n : Nat) :
    Faithful (isProbablePrime fuel rounds n : Draw σ PrimeError Bool) := by
  unfold isProbablePrime
  exact (Primality.faithful_check hrounds n fuel).bind fun _ => Draw.faithful_pure _

/-- A test goes on for ever when the draw of one of its witnesses does. -/
theorem endless_isProbablePrime_iff (hrounds : rounds ≠ 0) :
    Endless (fun fuel => isProbablePrime fuel rounds n) session
      ↔ ∃ drawing, DrawsWitness rounds n session drawing
        ∧ Endless (fun fuel => randomBelow fuel (n - 3)) drawing := by
  have hanswer (verdict : Verdict) :
      Steady fun _ => (pure verdict.probablePrime : Draw σ PrimeError Bool) := Draw.steady_const _
  unfold isProbablePrime
  rw [Draw.endless_bind_iff (Primality.steady_check rounds n) hanswer,
    Primality.endless_check_iff hrounds]
  refine or_iff_left ?_
  rintro ⟨verdict, mid, -, hrest⟩
  exact absurd (hrest 0) (by simp)

/-! ## §2. Walks from a place. -/

variable {place : Place}

theorem steady_walkFrom (rounds count turns : Nat) (place : Place) :
    Steady fun fuel => (walkFrom fuel rounds count turns place : Draw σ PrimeError _) := by
  intro fuel fuel' hle
  exact scanFrom_extends hle le_rfl

/-- A walk fails only where its source does. -/
theorem faithful_walkFrom (hrounds : rounds ≠ 0) (fuel count turns : Nat) (place : Place) :
    Faithful (walkFrom fuel rounds count turns place : Draw σ PrimeError _) := by
  induction turns generalizing place with
  | zero => exact Draw.faithful_outOfFuel
  | succ turns ih =>
    by_cases hopen : place.Open count
    · rw [walkFrom_of_open hopen]
      exact (faithful_isProbablePrime hrounds fuel place.n).bind fun passed =>
        ih (place.next count passed)
    · rw [walkFrom_of_not_open hopen]
      exact Draw.faithful_pure _

/-! ## §3. Turns. -/

/-- **Turns past the ceiling are never used.** -/
theorem runIn_walkFrom_of_turns (hcomes : Comes rounds count session place mid)
    (hturns : ceiling count + 2 ≤ place.n + turns) {turns' : Nat} (hle : turns ≤ turns') :
    (walkFrom fuel rounds count turns' place).runIn mid
      = (walkFrom fuel rounds count turns place).runIn mid := by
  induction turns generalizing place mid turns' with
  | zero =>
    have := hcomes.le_ceiling_add_one
    omega
  | succ turns ih =>
    obtain ⟨turns', rfl⟩ : ∃ k, turns' = k + 1 := ⟨turns' - 1, by omega⟩
    by_cases hopen : place.Open count
    · rw [walkFrom_of_open hopen, walkFrom_of_open hopen]
      rcases htest : (isProbablePrime fuel rounds place.n).runIn mid with ⟨answer, after⟩
      cases answer with
      | error stop => rw [Draw.runIn_bind_of_error htest, Draw.runIn_bind_of_error htest]
      | ok passed =>
        have hends : Ends (fun fuel => isProbablePrime fuel rounds place.n) mid (.ok passed) after :=
          (steady_isProbablePrime rounds place.n).ends htest
        rw [Draw.runIn_bind_of_ok htest, Draw.runIn_bind_of_ok htest]
        exact ih (hcomes.next hopen hends) (by rw [Place.next_n]; omega) (by omega)
    · rw [walkFrom_of_not_open hopen, walkFrom_of_not_open hopen]

/-- With turns up to the ceiling a walk runs as with more. -/
theorem runIn_scanFrom_of_turns (hturns : ceiling count ≤ turns) :
    (scanFrom fuel rounds count turns 2 [] []).runIn session
      = (scanFrom fuel rounds count (ceiling count) 2 [] []).runIn session :=
  runIn_walkFrom_of_turns .start (by show _ ≤ 2 + _; omega) hturns

/-! ## §4. The end of a walk. -/

/-- A walk with turns up to its ceiling that has no end is stuck in a test. -/
theorem exists_endless_of_walkFrom (hcomes : Comes rounds count session place mid)
    (hturns : ceiling count + 2 ≤ place.n + turns)
    (h : Endless (fun fuel => walkFrom fuel rounds count turns place) mid) :
    ∃ last stuck, Comes rounds count session last stuck ∧ last.Open count
      ∧ Endless (fun fuel => isProbablePrime fuel rounds last.n) stuck := by
  induction turns generalizing place mid with
  | zero =>
    have := hcomes.le_ceiling_add_one
    omega
  | succ turns ih =>
    by_cases hopen : place.Open count
    · simp only [walkFrom_of_open hopen] at h
      rcases Draw.Endless.of_bind (steady_isProbablePrime rounds place.n)
        (fun passed => steady_walkFrom rounds count turns (place.next count passed)) h with
        htest | ⟨passed, after, hends, hrest⟩
      · exact ⟨place, mid, hcomes, hopen, htest⟩
      · exact ih (hcomes.next hopen hends) (by rw [Place.next_n]; omega) hrest
    · exact absurd (h 0) (by simp [walkFrom_of_not_open hopen])

/-- A walk from the session on, in the test of the number `n`, draws a witness in the session
`drawing`. -/
def Draws (rounds count : Nat) (session : Session σ) (n : Nat) (drawing : Session σ) : Prop :=
  ∃ place mid, Comes rounds count session place mid ∧ place.Open count ∧ place.n = n
    ∧ DrawsWitness rounds n mid drawing

/-- **A walk without an end is stuck in the draw of a witness**, for it has turns enough. -/
theorem exists_endless_of_scan (hrounds : rounds ≠ 0)
    (h : Endless (fun fuel => scan fuel rounds count) session) :
    ∃ n drawing, Draws rounds count session n drawing
      ∧ Endless (fun fuel => randomBelow fuel (n - 3)) drawing := by
  have hwalk : Endless (fun fuel => walkFrom fuel rounds count (ceiling count) .start) session := by
    intro fuel
    by_contra hended
    -- More fuel would not change this end, and with as many turns it is the whole walk.
    have hmore := steady_walkFrom rounds count (ceiling count) .start
      (le_max_left fuel (ceiling count)) session hended
    set enough := max fuel (ceiling count)
    have hout : ((scanFrom enough rounds count enough 2 [] []).runIn session).1
        = .error .outOfFuel := h enough
    rw [runIn_scanFrom_of_turns (le_max_right _ _)] at hout
    exact hended ((congrArg Prod.fst hmore).symm.trans hout)
  obtain ⟨last, mid, hcomes, hopen, htest⟩ :=
    exists_endless_of_walkFrom .start (by show _ ≤ 2 + _; omega) hwalk
  obtain ⟨drawing, hdraws, hendless⟩ := (endless_isProbablePrime_iff hrounds).1 htest
  exact ⟨last.n, drawing, ⟨last, mid, hcomes, hopen, rfl, hdraws⟩, hendless⟩

/-- A walk fails only where its source does. -/
theorem faithful_scan (hrounds : rounds ≠ 0) (fuel count : Nat) :
    Faithful (scan fuel rounds count : Draw σ PrimeError _) :=
  faithful_walkFrom hrounds fuel count fuel .start

/-- Where no request is refused and each draw of a witness ends, a walk ends with both lists full. -/
theorem exists_ends_scan (hrounds : rounds ≠ 0) (hserve : NeverRefuses session.source)
    (hwitness : ∀ n drawing, Draws rounds count session n drawing →
      ¬ Endless (fun fuel => randomBelow fuel (n - 3)) drawing) :
    ∃ last after, Comes rounds count session last after
      ∧ last.primes.length = count ∧ last.composites.length = count
      ∧ Ends (fun fuel => scan fuel rounds count) session
        (.ok (last.primes.reverse, last.composites.reverse)) after := by
  rcases (steady_scan rounds count).ends_or_endless session with ⟨answer, after, hends⟩ | hendless
  · obtain ⟨least, hrun⟩ := id hends
    cases answer with
    | ok lists =>
      obtain ⟨last, hcomes, hfull, rfl⟩ := ends_scan_ok_iff.1 hends
      obtain ⟨hprimes, hcomposites⟩ := hcomes.not_open_iff.1 hfull
      exact ⟨last, after, hcomes, hprimes, hcomposites, hends⟩
    | error cause =>
      have hrefuse := (faithful_scan hrounds least count).refuses_of_error (hrun least le_rfl)
      exact absurd hrefuse (hserve cause after.source)
  · obtain ⟨n, drawing, hdraws, hstuck⟩ := exists_endless_of_scan hrounds hendless
    exact absurd hstuck (hwitness n drawing hdraws)

/-- **Lists are made up where the walk comes to a place with full lists**, which are the small ones; the
large ones are drawn from there. -/
theorem ends_synthesize_ok_iff {config : Config} {bits : Nat} {inputs : Inputs} :
    Ends (fun fuel => synthesize config fuel count bits) session (.ok inputs) after
      ↔ ∃ last mid, Comes config.rounds count session last mid
          ∧ last.primes.length = count ∧ last.composites.length = count
          ∧ inputs.smallPrimes = last.primes.reverse
          ∧ inputs.smallComposites = last.composites.reverse
          ∧ Ends (fun fuel => drawLarge config fuel bits count) mid
            (.ok (inputs.largePrimes, inputs.largeComposites)) after := by
  unfold synthesize
  rw [Draw.ends_bind_ok_iff (steady_scan config.rounds count)]
  constructor
  · rintro ⟨small, mid, hscan, hrest⟩
    obtain ⟨last, hcomes, hfull, rfl⟩ := ends_scan_ok_iff.1 hscan
    obtain ⟨hprimes, hcomposites⟩ := hcomes.not_open_iff.1 hfull
    obtain ⟨large, after, hlarge, hpure⟩ :=
      (Draw.ends_bind_ok_iff (steady_drawLarge config bits count)).1 hrest
    obtain ⟨rfl, rfl⟩ := Draw.runIn_pure_eq_ok.1 (Draw.ends_const_iff.1 hpure)
    exact ⟨last, mid, hcomes, hprimes, hcomposites, rfl, rfl, hlarge⟩
  · rintro ⟨last, mid, hcomes, hprimes, hcomposites, hsmall, hsmall', hlarge⟩
    have hfull := hcomes.not_open_iff.2 ⟨hprimes, hcomposites⟩
    refine ⟨_, mid, ends_scan_ok_iff.2 ⟨last, hcomes, hfull, rfl⟩, hlarge.bind (Ends.of_const ?_)⟩
    rw [← hsmall, ← hsmall']
    rfl

/-- **The walk over the small numbers is bounded.**  With rounds, and where there are numbers to look
for, no number past the prime of that count and the even number past two of that count is tested, and
turns up to there are enough.  If the source refuses nothing and each draw of a witness ends that the
walk makes, it ends at a place where both lists are full, and these are its lists.  Where there is
nothing to look for, no number is tested, and nothing happens in the session, neither in the walk nor
behind it.  Lists that are made up hold what this walk has come to, however many are asked for. -/
theorem scan_bounded (session : Session σ) :
    (∀ rounds count, 1 ≤ rounds → 1 ≤ count →
      (∀ n, Tests rounds count session n → n ≤ max (Nat.nth Nat.Prime (count - 1)) (2 * count + 2))
      ∧ (∀ fuel turns, max (Nat.nth Nat.Prime (count - 1)) (2 * count + 2) ≤ turns →
        (scanFrom fuel rounds count turns 2 [] []).runIn session
          = (scanFrom fuel rounds count (max (Nat.nth Nat.Prime (count - 1)) (2 * count + 2))
              2 [] []).runIn session)
      ∧ (NeverRefuses session.source →
        (∀ n drawing, Draws rounds count session n drawing →
          ¬ Endless (fun fuel => randomBelow fuel (n - 3)) drawing) →
        ∃ last after, Comes rounds count session last after
          ∧ last.primes.length = count ∧ last.composites.length = count
          ∧ Ends (fun fuel => scan fuel rounds count) session
            (.ok (last.primes.reverse, last.composites.reverse)) after))
    ∧ (∀ rounds, (∀ n, ¬ Tests rounds 0 session n)
      ∧ Ends (fun fuel => scan fuel rounds 0) session (.ok ([], [])) session)
    ∧ (∀ config bits,
      Ends (fun fuel => synthesize config fuel 0 bits) session (.ok ⟨[], [], [], []⟩) session)
    ∧ ∀ config count bits inputs after,
      Ends (fun fuel => synthesize config fuel count bits) session (.ok inputs) after
        ↔ ∃ last mid, Comes config.rounds count session last mid
            ∧ last.primes.length = count ∧ last.composites.length = count
            ∧ inputs.smallPrimes = last.primes.reverse
            ∧ inputs.smallComposites = last.composites.reverse
            ∧ Ends (fun fuel => drawLarge config fuel bits count) mid
              (.ok (inputs.largePrimes, inputs.largeComposites)) after := by
  have hnothing (rounds : Nat) :
      Ends (fun fuel => scan fuel rounds 0) session (.ok ([], [])) session := by
    refine ⟨1, fun fuel hle => ?_⟩
    obtain ⟨turns, rfl⟩ : ∃ turns, fuel = turns + 1 := ⟨fuel - 1, by omega⟩
    rfl
  refine ⟨fun rounds count hrounds _ => ?_, fun rounds => ⟨?_, hnothing rounds⟩, fun config bits => ?_,
    fun config count bits inputs after => ends_synthesize_ok_iff⟩
  · have hpositive : rounds ≠ 0 := by omega
    exact ⟨fun n htests => le_ceiling_of_tests htests,
      fun fuel turns hturns => runIn_scanFrom_of_turns hturns,
      fun hserve hwitness => exists_ends_scan hpositive hserve hwitness⟩
  · rintro n ⟨place, mid, -, hopen, -⟩
    exact hopen.elim (Nat.not_lt_zero _) (Nat.not_lt_zero _)
  · unfold synthesize
    exact (hnothing config.rounds).bind (Ends.of_const rfl)

/-- Two primes and two composites are found up to 6, which draws nothing. -/
theorem scan_bounded_two :
    1 ≤ 1 ∧ 1 ≤ 2
      ∧ (∀ n, Tests 1 2 (Session.start (KeyStream.ofSeed 7)) n → n ≤ 6)
      ∧ NeverRefuses (KeyStream.ofSeed 7)
      ∧ ∃ last after, Comes 1 2 (Session.start (KeyStream.ofSeed 7)) last after
        ∧ last.primes.length = 2 ∧ last.composites.length = 2
        ∧ Ends (fun fuel => scan fuel 1 2) (Session.start (KeyStream.ofSeed 7))
          (.ok (last.primes.reverse, last.composites.reverse)) after := by
  have hserve : NeverRefuses (KeyStream.ofSeed 7) :=
    NeverRefuses.of_fill (fun count stream => ⟨_, rfl⟩) _
  obtain ⟨hbound, -, hends⟩ :=
    (scan_bounded (Session.start (KeyStream.ofSeed 7))).1 1 2 le_rfl (by decide)
  have hsix (n : Nat) (htests : Tests 1 2 (Session.start (KeyStream.ofSeed 7)) n) : n ≤ 6 := by
    have hle := hbound n htests
    rwa [Nat.nth_prime_one_eq_three, max_eq_right (by decide)] at hle
  refine ⟨le_rfl, by decide, hsix, hserve, hends hserve fun n drawing hdraws => ?_⟩
  -- So small numbers are settled, and no witness is drawn for them.
  obtain ⟨place, mid, hcomes, hopen, hplace, hunsettled, -⟩ := hdraws
  have hsmall : n < Primality.trialLimit := by
    have hle := hsix n ⟨place, mid, hcomes, hopen, hplace⟩
    rw [Primality.trialLimit]
    omega
  exact absurd (Or.inl hsmall) hunsettled

end ProbablePrime.Vectors
