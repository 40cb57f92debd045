/-
  ProbablePrime.Proofs.Sample.Verification — drawn samples, and what a later verification says.

  A verification draws from another source than the sample did, with another number of rounds, so
  the two runs have nothing in common but the sample itself.  What carries over is `Sound`: the sizes
  and the product are as promised, and the two primes have passed a check once.

  A sound sample only ever meets the two checks.  A prime passes them again, so the one flaw that can
  be found is a composite number that got through the first time.

  Main results:
    * `sound_of_draw` — a drawn sample is sound, at the size that was asked for;
    * `verify_of_draw` — how the verification of a drawn sample ends;
    * `endless_verify_of_ones` — and where it does not.
-/
import ProbablePrime.Entropy.KeyStream
import ProbablePrime.Proofs.Generator.Search
import ProbablePrime.Sample.Basic

namespace ProbablePrime.Sample

open Entropy (KeyStream Ones Source Tape)
open Entropy.Source (Reaches Refuses NeverRefuses)
open Number (bitLength bitLength_mul)
open Primality (Passable Verdict check)
open Draw (Ends Endless Steady)

variable {σ τ : Type} [Source σ] [Source τ]

/-! ## §1. Sound samples. -/

/-- A sample whose sizes and product are as promised, and whose primes can pass a check. -/
structure Sound (sample : Sample) : Prop where
  /-- Each drawn number has the size of the sample. -/
  size : ∀ which, bitLength (sample.get which) = sample.bitSize
  /-- The product is the product of the primes. -/
  product : sample.n = sample.p * sample.q
  /-- Each of the primes is one, or a large number without small factors. -/
  passable : ∀ which, which ≠ .random → Passable (sample.get which)

/-- **A drawn sample is sound**, and its size is the one that was asked for. -/
theorem sound_of_draw {config : Config} {fuel : Nat} {session session' : Session σ} {sample : Sample}
    (h : (draw config fuel).runIn session = (.ok sample, session')) :
    sample.bitSize = config.bitSize ∧ sample.Sound := by
  rw [draw] at h
  obtain ⟨random, s₁, hrandom, h⟩ := Draw.runIn_bind_eq_ok.1 h
  obtain ⟨p, s₂, hp, h⟩ := Draw.runIn_bind_eq_ok.1 h
  obtain ⟨q, s₃, hq, h⟩ := Draw.runIn_bind_eq_ok.1 h
  obtain ⟨-, s₄, -, h⟩ := Draw.runIn_bind_eq_ok.1 h
  rw [Draw.runIn_pure_eq_ok] at h
  obtain ⟨rfl, -⟩ := h
  have hp : OfSize config.bitSize p := .of_probablePrime hp
  have hq : OfSize config.bitSize q := .of_probablePrime hq
  refine ⟨rfl, ⟨?_, rfl, ?_⟩⟩
  · intro which
    cases which with
    | random => exact bitLength_of_randomInteger hrandom
    | p => exact hp.size
    | q => exact hq.size
  · intro which hwhich
    cases which with
    | random => exact absurd rfl hwhich
    | p => exact hp.passable
    | q => exact hq.passable

/-- No sample is drawn without rounds. -/
theorem rounds_ne_zero_of_draw {config : Config} {fuel : Nat} {session session' : Session σ}
    {sample : Sample} (h : (draw config fuel).runIn session = (.ok sample, session')) :
    config.rounds ≠ 0 := by
  rw [draw] at h
  obtain ⟨random, s₁, -, h⟩ := Draw.runIn_bind_eq_ok.1 h
  obtain ⟨p, s₂, hp, -⟩ := Draw.runIn_bind_eq_ok.1 h
  obtain ⟨-, _, _, _, -, ⟨_, _, -, ⟨least, hcheck⟩, -⟩, -⟩ := examines_of_probablePrime hp
  exact Primality.rounds_ne_zero_of_check (hcheck least le_rfl)

/-- The product of a sound sample is twice as long as its factors, or one bit shorter. -/
theorem Sound.bitLength_product {sample : Sample} (hs : sample.Sound) :
    bitLength sample.n = 2 * sample.bitSize - 1 ∨ bitLength sample.n = 2 * sample.bitSize := by
  have hp : bitLength sample.p = sample.bitSize := hs.size .p
  have hq : bitLength sample.q = sample.bitSize := hs.size .q
  rw [hs.product]
  cases hbits : sample.bitSize with
  | zero =>
    -- A number of no bits is zero, and so is the product.
    have hzero : sample.p = 0 := by
      have hlt := Number.bitLength_le_iff.1 (hp.trans hbits).le
      omega
    rw [hzero, Nat.zero_mul]
    exact Or.inr rfl
  | succ k =>
    have hmul := bitLength_mul (hp.trans hbits) (hq.trans hbits)
    omega

/-! ## §2. A verification of one prime. -/

variable {sample : Sample} {which : Drawn} {fuel rounds : Nat} {session session' : Session τ}

theorem steady_verifyPrime (sample : Sample) (rounds : Nat) (which : Drawn) :
    Steady fun fuel => (sample.verifyPrime fuel rounds which : Draw τ PrimeError Unit) := by
  unfold verifyPrime
  exact (Primality.steady_check rounds _).bind fun _ => Draw.steady_const _

/-- A number that is accepted has cost requests that were all served. -/
theorem reaches_of_verifyPrime (hrounds : rounds ≠ 0)
    (h : (sample.verifyPrime fuel rounds which).runIn session = (.ok (), session')) :
    Reaches session.source session'.source := by
  rw [verifyPrime] at h
  obtain ⟨verdict, mid, hcheck, hrest⟩ := Draw.runIn_bind_eq_ok.1 h
  have hreach := (Primality.faithful_check hrounds _ fuel).reaches_of_ok hcheck
  split at hrest
  · rw [Draw.runIn_pure_eq_ok] at hrest
    rw [← hrest.2]
    exact hreach
  · simp at hrest

/-- A number that is not accepted is composite, unless the source has refused a request. -/
theorem refuses_or_composite_of_verifyPrime (hrounds : rounds ≠ 0) {cause : PrimeError}
    (h : (sample.verifyPrime fuel rounds which).runIn session = (.error (.error cause), session')) :
    Refuses session.source cause session'.source
      ∨ cause = .verification (.composite which) ∧ ¬ (sample.get which).Prime := by
  rw [verifyPrime] at h
  rcases Draw.runIn_bind_eq_error.1 h with hcheck | ⟨verdict, mid, hcheck, hrest⟩
  · exact Or.inl ((Primality.faithful_check hrounds _ fuel).refuses_of_error hcheck)
  · right
    split at hrest
    · simp at hrest
    · next hfail =>
      rw [Draw.runIn_fail] at hrest
      obtain ⟨hcause, -⟩ := Prod.mk.inj hrest
      obtain rfl : PrimeError.verification (.composite which) = cause := by simpa using hcause
      exact ⟨rfl, Primality.not_prime_of_failed hcheck (Bool.eq_false_iff.2 hfail)⟩

/-- A verification of one prime that goes on for ever is stuck in the draw of one witness. -/
theorem exists_endless_of_verifyPrime (hrounds : rounds ≠ 0)
    (h : Endless (fun fuel => sample.verifyPrime fuel rounds which) session) :
    ∃ mid : Session τ, Reaches session.source mid.source
      ∧ Endless (fun fuel => randomBelow fuel (sample.get which - 3)) mid := by
  unfold verifyPrime at h
  have hverdict (verdict : Verdict) : Steady fun _ =>
      (if verdict.probablePrime then return ()
        else Draw.fail (.verification (.composite which)) : Draw τ PrimeError Unit) :=
    Draw.steady_const _
  rcases Draw.Endless.of_bind (Primality.steady_check rounds _) hverdict h with
    hcheck | ⟨verdict, mid, -, hrest⟩
  · exact Primality.exists_endless_of_check hrounds hcheck
  · -- What follows the check takes no fuel, so it cannot run out of it.
    have hout := hrest 0
    split at hout
    · simp at hout
    · simp at hout

/-! ## §3. A verification of a sound sample. -/

/-- More fuel does not change a verification that has ended, whatever the sample is. -/
theorem steady_verify (sample : Sample) (rounds : Nat) :
    Steady fun fuel => (sample.verify fuel rounds : Draw τ PrimeError Unit) := by
  unfold verify
  refine (Draw.steady_const _).bind fun _ => ?_
  refine (Draw.steady_const _).bind fun _ => ?_
  refine (Draw.steady_const _).bind fun _ => ?_
  refine (steady_verifyPrime sample rounds .p).bind fun _ => ?_
  exact (steady_verifyPrime sample rounds .q).bind fun _ => Draw.steady_const _

/-- What a verification does last: it refuses a product that is not the product of the primes. -/
def verifyProduct (sample : Sample) : Draw τ PrimeError Unit :=
  if sample.n = sample.p * sample.q then pure () else Draw.fail (.verification .wrongProduct)

omit [Source τ] in
theorem verifySize_of_size (h : bitLength (sample.get which) = sample.bitSize) :
    (sample.verifySize which : Draw τ PrimeError Unit) = pure () := by
  rw [verifySize]
  exact if_pos h

/-- Where the sizes are as promised, a verification is the check of the two primes and the look at
the product. -/
theorem verify_of_size (hsize : ∀ which, bitLength (sample.get which) = sample.bitSize)
    (fuel rounds : Nat) :
    (sample.verify fuel rounds : Draw τ PrimeError Unit)
      = sample.verifyPrime fuel rounds .p >>= fun _ =>
          sample.verifyPrime fuel rounds .q >>= fun _ => sample.verifyProduct := by
  have hpass (which : Drawn) : (sample.verifySize which : Draw τ PrimeError Unit) = pure () :=
    verifySize_of_size (hsize which)
  rw [verify, hpass, hpass, hpass]
  rfl

omit [Source τ] in
/-- A size is as promised, or its number is refused. -/
theorem verifySize_cases (sample : Sample) (which : Drawn) :
    bitLength (sample.get which) = sample.bitSize
        ∧ (sample.verifySize which : Draw τ PrimeError Unit) = pure ()
      ∨ ∃ cause, (sample.verifySize which : Draw τ PrimeError Unit) = Draw.fail cause := by
  by_cases hsize : bitLength (sample.get which) = sample.bitSize
  · exact Or.inl ⟨hsize, verifySize_of_size hsize⟩
  · refine Or.inr ⟨.verification (.wrongSize which (bitLength (sample.get which)) sample.bitSize), ?_⟩
    rw [verifySize]
    exact if_neg hsize

/-- Where a size is not as promised, or without rounds, a verification fails and draws nothing. -/
theorem exists_verify_eq_fail
    (h : ¬ ((∀ which, bitLength (sample.get which) = sample.bitSize) ∧ rounds ≠ 0)) :
    ∃ cause, ∀ fuel, (sample.verify fuel rounds : Draw τ PrimeError Unit) = Draw.fail cause := by
  -- The sizes are looked at in the order of the numbers, and the first that is wrong is named.
  rcases verifySize_cases (τ := τ) sample .random with ⟨hrandom, hpassed⟩ | ⟨cause, hfail⟩
  swap
  · exact ⟨cause, fun fuel => by rw [verify, hfail, Draw.fail_bind]⟩
  rcases verifySize_cases (τ := τ) sample .p with ⟨hp, hpassed'⟩ | ⟨cause, hfail⟩
  swap
  · exact ⟨cause, fun fuel => by rw [verify, hpassed, hfail, Draw.fail_bind, pure_bind]⟩
  rcases verifySize_cases (τ := τ) sample .q with ⟨hq, hpassed''⟩ | ⟨cause, hfail⟩
  swap
  · exact ⟨cause, fun fuel => by
      rw [verify, hpassed, hpassed', hfail, Draw.fail_bind, pure_bind, pure_bind]⟩
  have hsize (which : Drawn) : bitLength (sample.get which) = sample.bitSize := by
    cases which with
    | random => exact hrandom
    | p => exact hp
    | q => exact hq
  obtain rfl : rounds = 0 := not_not.1 fun hrounds => h ⟨hsize, hrounds⟩
  refine ⟨.zeroRounds, fun fuel => ?_⟩
  rw [verify_of_size hsize, verifyPrime, Primality.check, if_pos rfl]
  simp only [Draw.fail_bind]

/-- **The verification of a sound sample is the check of its two primes**, and nothing else. -/
theorem Sound.verify_eq (hs : sample.Sound) (fuel rounds : Nat) :
    (sample.verify fuel rounds : Draw τ PrimeError Unit)
      = sample.verifyPrime fuel rounds .p >>= fun _ => sample.verifyPrime fuel rounds .q := by
  rw [verify_of_size hs.size, verifyProduct, if_pos hs.product]
  simp only [bind_pure_unit]

/-- A sound sample that is not accepted has a composite number among its primes, unless the source
has refused a request. -/
theorem Sound.refuses_or_composite_of_verify (hs : sample.Sound) (hrounds : rounds ≠ 0)
    {cause : PrimeError}
    (h : (sample.verify fuel rounds).runIn session = (.error (.error cause), session')) :
    Refuses session.source cause session'.source
      ∨ ∃ which, which ≠ .random ∧ cause = .verification (.composite which)
        ∧ ¬ (sample.get which).Prime := by
  rw [hs.verify_eq] at h
  rcases Draw.runIn_bind_eq_error.1 h with hp | ⟨accepted, mid, hp, hq⟩
  · rcases refuses_or_composite_of_verifyPrime hrounds hp with hrefuse | ⟨hcause, hcomposite⟩
    · exact Or.inl hrefuse
    · exact Or.inr ⟨.p, by decide, hcause, hcomposite⟩
  · rcases refuses_or_composite_of_verifyPrime hrounds hq with hrefuse | ⟨hcause, hcomposite⟩
    · exact Or.inl ((reaches_of_verifyPrime hrounds hp).refuses hrefuse)
    · exact Or.inr ⟨.q, by decide, hcause, hcomposite⟩

/-- The verification of a sample from `session` has no end, because the source serves numbers that
are too large for a witness of one of the primes, for ever. -/
def Stuck (sample : Sample) (rounds : Nat) (session : Session τ) : Prop :=
  Endless (fun fuel => sample.verify fuel rounds) session
    ∧ ∃ which, which ≠ .random ∧ ∃ mid : Session τ, Reaches session.source mid.source
      ∧ Endless (fun fuel => randomBelow fuel (sample.get which - 3)) mid

/-- A verification that goes on for ever is stuck, whatever the sample is and however many rounds
were asked for. -/
theorem stuck_of_endless (h : Endless (fun fuel => sample.verify fuel rounds) session) :
    sample.Stuck rounds session := by
  refine ⟨h, ?_⟩
  by_cases hchecked : (∀ which, bitLength (sample.get which) = sample.bitSize) ∧ rounds ≠ 0
  · obtain ⟨hsize, hrounds⟩ := hchecked
    simp only [verify_of_size hsize] at h
    have hlast : Steady fun _ => (sample.verifyProduct : Draw τ PrimeError Unit) :=
      Draw.steady_const _
    have hrest : Steady fun fuel => (sample.verifyPrime fuel rounds .q >>= fun _ =>
        sample.verifyProduct : Draw τ PrimeError Unit) :=
      (steady_verifyPrime sample rounds .q).bind fun _ => hlast
    rcases Draw.Endless.of_bind (steady_verifyPrime sample rounds .p) (fun _ => hrest) h with
      hp | ⟨accepted, mid, ⟨least, hp⟩, hq⟩
    · exact ⟨.p, by decide, exists_endless_of_verifyPrime hrounds hp⟩
    · have hreach := reaches_of_verifyPrime hrounds (hp least le_rfl)
      rcases Draw.Endless.of_bind (steady_verifyPrime sample rounds .q) (fun _ => hlast) hq with
        hq | ⟨accepted', after, -, hproduct⟩
      · obtain ⟨last, hlast, hendless⟩ := exists_endless_of_verifyPrime hrounds hq
        exact ⟨.q, by decide, last, hreach.trans hlast, hendless⟩
      · exact absurd (hproduct 0) (by rw [verifyProduct]; split <;> simp)
  · -- What fails at once has ended.
    obtain ⟨cause, hfail⟩ := exists_verify_eq_fail (τ := τ) hchecked
    exact absurd (h 0) (by simp [hfail])

/-- Where the sizes are as promised, a verification has no end when the check of `p` has none. -/
theorem endless_verify (hsize : ∀ which, bitLength (sample.get which) = sample.bitSize)
    (h : Endless (fun fuel => check fuel rounds sample.p) session) :
    Endless (fun fuel => sample.verify fuel rounds) session := by
  have hp : Endless (fun fuel => sample.verifyPrime fuel rounds .p) session := by
    unfold verifyPrime
    exact h.bind _
  simp only [verify_of_size hsize]
  exact hp.bind _

/-- Bytes of ones never verify a sample whose first prime is past the table. -/
theorem endless_verify_of_ones (hsize : ∀ which, bitLength (sample.get which) = sample.bitSize)
    (hrounds : rounds ≠ 0) (hopen : ¬ Primality.Settled sample.p) (checking : Session Ones) :
    Endless (fun fuel => sample.verify fuel rounds) checking :=
  endless_verify hsize (Primality.endless_check_of_ones hrounds hopen checking)

/-- Samples of 1009 twice have their sizes, whatever their product is said to be. -/
theorem size_1009 (n : Nat) (which : Drawn) :
    bitLength ((⟨10, 512, 1009, 1009, n⟩ : Sample).get which) = 10 := by
  have hrandom : bitLength 512 = 10 := by decide
  have hprime : bitLength 1009 = 10 := by decide
  cases which with
  | random => exact hrandom
  | p => exact hprime
  | q => exact hprime

/-! ## §4. A drawn sample verifies. -/

/-- How the verification of a sound sample ends where no request is refused: the sample is accepted,
or one of its primes is found composite and is, or one witness is drawn without end. -/
theorem Sound.verify_cases (hs : sample.Sound) (hrounds : rounds ≠ 0)
    (hserve : NeverRefuses session.source) :
    (∃ after, Ends (fun fuel => sample.verify fuel rounds) session (.ok ()) after)
      ∨ (∃ which after, which ≠ .random
        ∧ Ends (fun fuel => sample.verify fuel rounds) session
            (.error (.verification (.composite which))) after
        ∧ ¬ (sample.get which).Prime)
      ∨ sample.Stuck rounds session := by
  rcases (steady_verify sample rounds).ends_or_endless session with ⟨answer, after, hends⟩ | hendless
  · obtain ⟨least, hrun⟩ := id hends
    cases answer with
    | ok accepted => exact Or.inl ⟨after, hends⟩
    | error cause =>
      rcases hs.refuses_or_composite_of_verify hrounds (hrun least le_rfl) with
        hrefuse | ⟨which, hwhich, rfl, hcomposite⟩
      · exact absurd hrefuse (hserve cause after.source)
      · exact Or.inr (Or.inl ⟨which, after, hwhich, hends, hcomposite⟩)
  · exact Or.inr (Or.inr (stuck_of_endless hendless))

/-- **A drawn sample verifies.**  Its numbers have the size that was asked for, and its product is
twice as long or one bit shorter.  With at least one round and a source that refuses nothing, a
later verification accepts it, or says that `p` or `q` is composite, which is true then, and the
number has no small factor; or it is stuck in the draw of a witness.  Where `p` and `q` are prime
nothing is found composite, and at 19 bits or less they are. -/
theorem verify_of_draw {config : Config} {fuel : Nat} {session session' : Session σ}
    {sample : Sample} (h : (draw config fuel).runIn session = (.ok sample, session')) :
    (sample.bitSize = config.bitSize ∧ bitLength sample.random = config.bitSize
      ∧ bitLength sample.p = config.bitSize ∧ bitLength sample.q = config.bitSize
      ∧ sample.n = sample.p * sample.q
      ∧ (bitLength sample.n = 2 * config.bitSize - 1 ∨ bitLength sample.n = 2 * config.bitSize))
    ∧ ∀ rounds, 1 ≤ rounds → ∀ checking : Session τ, NeverRefuses checking.source →
      ((∃ after, Ends (fun fuel => sample.verify fuel rounds) checking (.ok ()) after)
        ∨ (∃ which after, (which = .p ∧ (Flaw.composite which).message = "p is composite"
              ∨ which = .q ∧ (Flaw.composite which).message = "q is composite")
          ∧ Ends (fun fuel => sample.verify fuel rounds) checking
              (.error (.verification (.composite which))) after
          ∧ ¬ (sample.get which).Prime ∧ ∀ r, r.Prime → r ∣ sample.get which → 997 < r)
        ∨ sample.Stuck rounds checking)
      ∧ (sample.p.Prime ∧ sample.q.Prime ∨ config.bitSize ≤ 19 →
        (∃ after, Ends (fun fuel => sample.verify fuel rounds) checking (.ok ()) after)
          ∨ sample.Stuck rounds checking) := by
  obtain ⟨hbits, hs⟩ := sound_of_draw h
  refine ⟨⟨hbits, hbits ▸ hs.size .random, hbits ▸ hs.size .p, hbits ▸ hs.size .q, hs.product,
    hbits ▸ hs.bitLength_product⟩, ?_⟩
  intro rounds hrounds checking hserve
  have hpositive : rounds ≠ 0 := by omega
  have hcases := hs.verify_cases hpositive hserve
  constructor
  · rcases hcases with haccepted | ⟨which, after, hwhich, hends, hcomposite⟩ | hendless
    · exact Or.inl haccepted
    · refine Or.inr (Or.inl ⟨which, after, ?_, hends, hcomposite, ?_⟩)
      · cases which with
        | random => exact absurd rfl hwhich
        | p => exact Or.inl ⟨rfl, rfl⟩
        | q => exact Or.inr ⟨rfl, rfl⟩
      · intro r hr hdvd
        exact (hs.passable which hwhich).lt_of_dvd hcomposite hr hdvd
    · exact Or.inr (Or.inr hendless)
  · intro hprimes
    rcases hcases with haccepted | ⟨which, after, hwhich, -, hcomposite⟩ | hendless
    · exact Or.inl haccepted
    · -- The number that is found composite would have to be prime.
      refine absurd ?_ hcomposite
      rcases hprimes with ⟨hp, hq⟩ | hfew
      · cases which with
        | random => exact absurd rfl hwhich
        | p => exact hp
        | q => exact hq
      · have hsize : bitLength (sample.get which) ≤ 19 := by
          rw [hs.size which, hbits]
          exact hfew
        exact prime_of_bitLength_le (hs.passable which hwhich) hsize
    · exact Or.inr hendless

/-- The least sample there is, of three times three, and a verification of it from a key stream. -/
theorem verify_of_draw_two_bits :
    (draw ⟨2, 1, none⟩ 1).runIn (Session.start (⟨[0, 0, 0]⟩ : Tape))
        = (.ok ⟨2, 2, 3, 3, 9⟩, ⟨⟨[]⟩, ⟨3, 3⟩, [found 2 1, found 2 1, drew 2 4]⟩)
      ∧ 1 ≤ 5 ∧ NeverRefuses (KeyStream.ofSeed 7)
      ∧ ∃ after, Ends (fun fuel => (⟨2, 2, 3, 3, 9⟩ : Sample).verify fuel 5)
          (Session.start (KeyStream.ofSeed 7)) (.ok ()) after := by
  have hrandom : (randomInteger 2).runIn (Session.start (⟨[0, 0, 0]⟩ : Tape))
      = (.ok 2, ⟨⟨[0, 0]⟩, ⟨1, 1⟩, []⟩) := rfl
  have hthree : integerOf 2 [0] ||| 1 = 3 := by decide
  have hp : (configuredPrime ⟨2, 1, none⟩ 1).runIn (⟨⟨[0, 0]⟩, ⟨1, 1⟩, []⟩ : Session Tape)
      = (.ok 3, ⟨⟨[0]⟩, ⟨2, 2⟩, [found 2 1]⟩) := by
    rw [configuredPrime, probablePrime, if_neg (by decide),
      runIn_searchFrom_of_small (by decide) (by decide) rfl rfl hthree (by decide),
      if_pos (by norm_num)]
    rfl
  have hq : (configuredPrime ⟨2, 1, none⟩ 1).runIn (⟨⟨[0]⟩, ⟨2, 2⟩, [found 2 1]⟩ : Session Tape)
      = (.ok 3, ⟨⟨[]⟩, ⟨3, 3⟩, [found 2 1, found 2 1]⟩) := by
    rw [configuredPrime, probablePrime, if_neg (by decide),
      runIn_searchFrom_of_small (by decide) (by decide) rfl rfl hthree (by decide),
      if_pos (by norm_num)]
    rfl
  have hdraw : (draw ⟨2, 1, none⟩ 1).runIn (Session.start (⟨[0, 0, 0]⟩ : Tape))
      = (.ok ⟨2, 2, 3, 3, 9⟩, ⟨⟨[]⟩, ⟨3, 3⟩, [found 2 1, found 2 1, drew 2 4]⟩) := by
    rw [draw, Draw.runIn_bind_of_ok hrandom, Draw.runIn_bind_of_ok hp, Draw.runIn_bind_of_ok hq]
    rfl
  have hserve : NeverRefuses (KeyStream.ofSeed 7) :=
    NeverRefuses.of_fill (fun count stream => ⟨_, rfl⟩) _
  refine ⟨hdraw, by decide, hserve, ?_⟩
  rcases ((verify_of_draw hdraw).2 5 (by decide) (Session.start (KeyStream.ofSeed 7)) hserve).2
    (Or.inr (by decide)) with haccepted | ⟨-, which, hwhich, mid, -, hendless⟩
  · exact haccepted
  · -- Below zero there is no witness to wait for.
    have hout := hendless 0
    cases which with
    | random => exact absurd rfl hwhich
    | p => cases hout
    | q => cases hout

/-- **Not every verification of a drawn sample returns**: of 1009 times 1009, which was drawn from a
tape, no verification with bytes of ones has an end. -/
theorem endless_verify_of_draw :
    (draw ⟨10, 1, none⟩ 1).runIn (Session.start (⟨[0, 0, 3, 241, 0, 0, 3, 241, 0, 0]⟩ : Tape))
        = (.ok ⟨10, 512, 1009, 1009, 1018081⟩,
          ⟨⟨[]⟩, ⟨5, 10⟩, [found 10 1, found 10 1, drew 10 20]⟩)
      ∧ Nat.Prime 1009 ∧ NeverRefuses (⟨⟩ : Ones)
      ∧ Endless (fun fuel => (⟨10, 512, 1009, 1009, 1018081⟩ : Sample).verify fuel 1)
          (Session.start (⟨⟩ : Ones))
      ∧ ¬ ∀ config fuel (session session' : Session Tape) sample,
        (draw config fuel).runIn session = (.ok sample, session') →
          ∀ rounds, 1 ≤ rounds → ∀ checking : Session Ones, NeverRefuses checking.source →
            (∃ after, Ends (fun fuel => sample.verify fuel rounds) checking (.ok ()) after)
              ∨ ∃ which after, Ends (fun fuel => sample.verify fuel rounds) checking
                  (.error (.verification (.composite which))) after := by
  -- Two bytes make the random integer; each prime takes two for itself and two for its witness.
  have hrandom : (randomInteger 10).runIn
      (Session.start (⟨[0, 0, 3, 241, 0, 0, 3, 241, 0, 0]⟩ : Tape))
      = (.ok 512, ⟨⟨[3, 241, 0, 0, 3, 241, 0, 0]⟩, ⟨1, 2⟩, []⟩) := rfl
  have hp : (configuredPrime ⟨10, 1, none⟩ 1).runIn
      (⟨⟨[3, 241, 0, 0, 3, 241, 0, 0]⟩, ⟨1, 2⟩, []⟩ : Session Tape)
      = (.ok 1009, ⟨⟨[3, 241, 0, 0]⟩, ⟨3, 6⟩, [found 10 1]⟩) := runIn_probablePrime_1009 0 _ _ _
  have hq : (configuredPrime ⟨10, 1, none⟩ 1).runIn
      (⟨⟨[3, 241, 0, 0]⟩, ⟨3, 6⟩, [found 10 1]⟩ : Session Tape)
      = (.ok 1009, ⟨⟨[]⟩, ⟨5, 10⟩, [found 10 1, found 10 1]⟩) := runIn_probablePrime_1009 0 _ _ _
  have hdraw : (draw ⟨10, 1, none⟩ 1).runIn
      (Session.start (⟨[0, 0, 3, 241, 0, 0, 3, 241, 0, 0]⟩ : Tape))
      = (.ok ⟨10, 512, 1009, 1009, 1018081⟩,
        ⟨⟨[]⟩, ⟨5, 10⟩, [found 10 1, found 10 1, drew 10 20]⟩) := by
    rw [draw, Draw.runIn_bind_of_ok hrandom, Draw.runIn_bind_of_ok hp, Draw.runIn_bind_of_ok hq]
    rfl
  have hendless := endless_verify_of_ones (size_1009 1018081) one_ne_zero Primality.not_settled_1009
    (Session.start ⟨⟩)
  refine ⟨hdraw, by norm_num, Ones.neverRefuses _, hendless, fun hall => ?_⟩
  rcases hall _ _ _ _ _ hdraw 1 le_rfl (Session.start ⟨⟩) (Ones.neverRefuses _) with
    ⟨_, hends⟩ | ⟨_, _, hends⟩
  · exact hends.not_endless hendless
  · exact hends.not_endless hendless

end ProbablePrime.Sample
