/-
  ProbablePrime.Proofs.Sample.Tampering — what a verification lets pass.

  A sample carries no seal.  What guards it is that its fields depend on each other: the sizes fix the
  size of the sample, the product fixes each factor by the other one, and an accepted factor is never
  zero.  So two samples that verifications accept, from whatever sources, do not differ in one field
  alone, unless that is the random integer, which nothing but its size ties to the rest.

  A verification may also wait for a witness for ever, which is neither acceptance nor an error; a
  sample is rejected when a verification ends with an error or is stuck in this way.  On a tape it is
  never stuck, and neither is it where a size is not as promised, since the sizes are looked at first.

  Main results:
    * `ends_verify_ok_iff` — when a sample is accepted;
    * `Sound.eq_random_of_differsIn` — sound samples that differ once differ in the random integer;
    * `verify_tight` — no other single change of an accepted sample is accepted.
-/
import ProbablePrime.Proofs.Draw.Termination

namespace ProbablePrime

open Entropy (Ones Source Tape)
open Number (bitLength)
open Primality (Passable check)
open Draw (Ends Endless)

variable {σ τ : Type} [Source σ] [Source τ]

/-! ## §1. When a sample is accepted. -/

namespace Sample

open Primality (Approves)

variable {sample : Sample} {which : Drawn} {rounds : Nat} {session after : Session σ}

/-- The verification of one prime accepts it exactly when a check approves of it. -/
theorem ends_verifyPrime_ok_iff :
    Ends (fun fuel => sample.verifyPrime fuel rounds which) session (.ok ()) after
      ↔ Approves rounds (sample.get which) session after := by
  unfold verifyPrime
  rw [Draw.ends_bind_ok_iff (Primality.steady_check rounds _)]
  constructor
  · rintro ⟨verdict, mid, hcheck, hrest⟩
    rw [Draw.ends_const_iff] at hrest
    by_cases hpass : verdict.probablePrime = true
    · rw [if_pos hpass] at hrest
      obtain ⟨-, rfl⟩ := Draw.runIn_pure_eq_ok.1 hrest
      exact ⟨verdict, hcheck, hpass⟩
    · rw [if_neg hpass] at hrest
      cases hrest
  · rintro ⟨verdict, hcheck, hpass⟩
    refine ⟨verdict, after, hcheck, Draw.Ends.of_const ?_⟩
    rw [if_pos hpass]
    rfl

omit [Source σ] in
theorem ends_verifyProduct_ok_iff :
    Ends (fun _ => sample.verifyProduct) session (.ok ()) after
      ↔ sample.n = sample.p * sample.q ∧ session = after := by
  rw [Draw.ends_const_iff, verifyProduct]
  by_cases hproduct : sample.n = sample.p * sample.q
  · rw [if_pos hproduct]
    simp [Except.mapError, hproduct]
  · rw [if_neg hproduct]
    simp [Except.mapError, hproduct]

/-- **A sample is accepted when it keeps its promises and a check approves of each of its primes**,
of `q` where the check of `p` has left the source.  There is no other way. -/
theorem ends_verify_ok_iff :
    Ends (fun fuel => sample.verify fuel rounds) session (.ok ()) after
      ↔ (∀ which, bitLength (sample.get which) = sample.bitSize) ∧ 1 ≤ rounds
        ∧ (∃ mid, Approves rounds sample.p session mid ∧ Approves rounds sample.q mid after)
        ∧ sample.n = sample.p * sample.q := by
  by_cases hchecked : (∀ which, bitLength (sample.get which) = sample.bitSize) ∧ rounds ≠ 0
  · obtain ⟨hsize, hrounds⟩ := hchecked
    have hp := steady_verifyPrime (τ := σ) sample rounds .p
    have hq := steady_verifyPrime (τ := σ) sample rounds .q
    simp only [verify_of_size hsize]
    constructor
    · intro h
      obtain ⟨_, mid, hpassed, h⟩ := (Draw.ends_bind_ok_iff hp).1 h
      obtain ⟨_, last, hpassed', h⟩ := (Draw.ends_bind_ok_iff hq).1 h
      obtain ⟨hproduct, rfl⟩ := ends_verifyProduct_ok_iff.1 h
      exact ⟨hsize, by omega,
        ⟨mid, ends_verifyPrime_ok_iff.1 hpassed, ends_verifyPrime_ok_iff.1 hpassed'⟩, hproduct⟩
    · rintro ⟨-, -, ⟨mid, hpassed, hpassed'⟩, hproduct⟩
      have hlast : Ends (fun _ => sample.verifyProduct) after (.ok ()) after :=
        ends_verifyProduct_ok_iff.2 ⟨hproduct, rfl⟩
      exact Ends.bind (ends_verifyPrime_ok_iff.2 hpassed)
        (Ends.bind (ends_verifyPrime_ok_iff.2 hpassed') hlast)
  · -- A verification that fails at once accepts nothing.
    obtain ⟨cause, hfail⟩ := exists_verify_eq_fail (τ := σ) hchecked
    constructor
    · rintro ⟨least, hrun⟩
      have hrefused := hrun least le_rfl
      simp only [hfail, Draw.runIn_fail] at hrefused
      cases hrefused
    · rintro ⟨hsize, hrounds, -, -⟩
      exact absurd ⟨hsize, by omega⟩ hchecked

/-- What a verification has accepted is sound. -/
theorem sound_of_verify
    (h : Ends (fun fuel => sample.verify fuel rounds) session (.ok ()) after) : sample.Sound := by
  obtain ⟨hsize, -, ⟨mid, hp, hq⟩, hproduct⟩ := ends_verify_ok_iff.1 h
  refine ⟨hsize, hproduct, fun which hwhich => ?_⟩
  cases which with
  | random => exact absurd rfl hwhich
  | p => exact hp.passable
  | q => exact hq.passable

/-! ## §2. Samples that differ in one field. -/

/-- The fields of a sample. -/
inductive Field where
  | bitSize
  | random
  | p
  | q
  | n
  deriving DecidableEq, Repr

/-- A field of a sample by its name. -/
def field (sample : Sample) : Field → Nat
  | .bitSize => sample.bitSize
  | .random => sample.random
  | .p => sample.p
  | .q => sample.q
  | .n => sample.n

/-- The other sample has another value in the given field, and the same values elsewhere. -/
def DiffersIn (changed : Field) (sample other : Sample) : Prop :=
  ∀ f, other.field f = sample.field f ↔ f ≠ changed

/-- A prime of a sound sample is no unit and not zero. -/
theorem Sound.two_le (hs : sample.Sound) (hwhich : which ≠ .random) : 2 ≤ sample.get which := by
  by_contra hlt
  have hprime := (hs.passable which hwhich).prime_of_lt (by omega)
  exact hlt hprime.two_le

/-- **Sound samples that differ in one field alone differ in the random integer.**  The size of the
sample is that of its numbers, and a factor that is not zero can be cancelled in the product. -/
theorem Sound.eq_random_of_differsIn {other : Sample} {changed : Field} (hs : sample.Sound)
    (ho : other.Sound) (h : DiffersIn changed sample other) : changed = .random := by
  have hkept (f : Field) (hf : f ≠ changed) : other.field f = sample.field f := (h f).2 hf
  have hchanged : other.field changed ≠ sample.field changed := fun heq => (h changed).1 heq rfl
  cases changed with
  | random => rfl
  | bitSize =>
    refine absurd ?_ hchanged
    have hrandom : other.random = sample.random := hkept .random (by decide)
    calc other.bitSize = bitLength other.random := (ho.size .random).symm
      _ = bitLength sample.random := by rw [hrandom]
      _ = sample.bitSize := hs.size .random
  | p =>
    refine absurd ?_ hchanged
    have hq : other.q = sample.q := hkept .q (by decide)
    have hn : other.n = sample.n := hkept .n (by decide)
    have hpositive : 0 < sample.q := by
      have htwo : 2 ≤ sample.get .q := hs.two_le (by decide)
      exact Nat.lt_of_lt_of_le (by decide) htwo
    have hmul : other.p * sample.q = sample.p * sample.q := by
      rw [← hs.product, ← hn, ho.product, hq]
    exact Nat.eq_of_mul_eq_mul_right hpositive hmul
  | q =>
    refine absurd ?_ hchanged
    have hp : other.p = sample.p := hkept .p (by decide)
    have hn : other.n = sample.n := hkept .n (by decide)
    have hpositive : 0 < sample.p := by
      have htwo : 2 ≤ sample.get .p := hs.two_le (by decide)
      exact Nat.lt_of_lt_of_le (by decide) htwo
    have hmul : sample.p * other.q = sample.p * sample.q := by
      rw [← hs.product, ← hn, ho.product, hp]
    exact Nat.eq_of_mul_eq_mul_left hpositive hmul
  | n =>
    refine absurd ?_ hchanged
    have hp : other.p = sample.p := hkept .p (by decide)
    have hq : other.q = sample.q := hkept .q (by decide)
    calc other.n = other.p * other.q := ho.product
      _ = sample.p * sample.q := by rw [hp, hq]
      _ = sample.n := hs.product.symm

/-! ## §3. Rejection. -/

/-- A verification from the session ends with an error, or is stuck in the draw of a witness. -/
def Rejects (sample : Sample) (rounds : Nat) (session : Session σ) : Prop :=
  (∃ cause after, Ends (fun fuel => sample.verify fuel rounds) session (.error cause) after)
    ∨ sample.Stuck rounds session

/-- What is not accepted is rejected. -/
theorem rejects_of_not_accepted
    (h : ∀ after, ¬ Ends (fun fuel => sample.verify fuel rounds) session (.ok ()) after) :
    sample.Rejects rounds session := by
  rcases (steady_verify sample rounds).ends_or_endless session with ⟨answer, after, hends⟩ | hendless
  · cases answer with
    | ok accepted => exact absurd hends (h after)
    | error cause => exact Or.inl ⟨cause, after, hends⟩
  · exact Or.inr (stuck_of_endless hendless)

/-- On a tape, what is rejected is rejected with an error. -/
theorem Rejects.exists_error {tape : Session Tape} (h : sample.Rejects rounds tape) :
    ∃ cause after, Ends (fun fuel => sample.verify fuel rounds) tape (.error cause) after := by
  rcases h with herror | ⟨hendless, -⟩
  · exact herror
  · -- Fuel for more turns than there are bytes is enough.
    have hended := (consuming_verify sample (tape.left + 1) rounds).ended (Nat.lt_succ_self tape.left)
    exact absurd (hendless _) hended

/-- Another size of a sample is not that of its numbers, so it is refused before anything is drawn. -/
theorem exists_error_of_differsIn_bitSize {other : Sample} (hs : sample.Sound)
    (hdiffers : DiffersIn .bitSize sample other) (rounds : Nat) :
    ∃ cause, ∀ checking : Session σ,
      Ends (fun fuel => other.verify fuel rounds) checking (.error cause) checking := by
  have hrandom : other.random = sample.random := (hdiffers .random).2 (by decide)
  have hwrong : ¬ ((∀ which, bitLength (other.get which) = other.bitSize) ∧ rounds ≠ 0) := by
    rintro ⟨hsize, -⟩
    refine (hdiffers .bitSize).1 ?_ rfl
    calc other.bitSize = bitLength other.random := (hsize .random).symm
      _ = bitLength sample.random := by rw [hrandom]
      _ = sample.bitSize := hs.size .random
  obtain ⟨cause, hfail⟩ := exists_verify_eq_fail (τ := σ) hwrong
  refine ⟨cause, fun checking => ?_⟩
  simp only [hfail]
  exact Draw.Ends.of_const rfl

/-- The random integer counts with its size alone. -/
theorem ends_verify_ok_of_differsIn_random {other : Sample}
    (h : Ends (fun fuel => sample.verify fuel rounds) session (.ok ()) after)
    (hdiffers : DiffersIn .random sample other) (after' : Session σ) :
    Ends (fun fuel => other.verify fuel rounds) session (.ok ()) after'
      ↔ bitLength other.random = sample.bitSize ∧ after' = after := by
  have hkept (f : Field) (hf : f ≠ .random) : other.field f = sample.field f := (hdiffers f).2 hf
  have hbits : other.bitSize = sample.bitSize := hkept .bitSize (by decide)
  have hp : other.p = sample.p := hkept .p (by decide)
  have hq : other.q = sample.q := hkept .q (by decide)
  have hn : other.n = sample.n := hkept .n (by decide)
  have hsame (hrandom : bitLength other.random = sample.bitSize) :
      Ends (fun fuel => other.verify fuel rounds) session (.ok ()) after := by
    obtain ⟨hsize, hrounds, hprimes, hproduct⟩ := ends_verify_ok_iff.1 h
    have hproduct' : other.n = other.p * other.q := by rw [hp, hq, hn, hproduct]
    refine ends_verify_ok_iff.2 ⟨fun which => ?_, hrounds, hp ▸ hq ▸ hprimes, hproduct'⟩
    rw [hbits]
    cases which with
    | random => exact hrandom
    | p => exact (congrArg bitLength hp).trans (hsize .p)
    | q => exact (congrArg bitLength hq).trans (hsize .q)
  constructor
  · intro haccepted
    have hrandom : bitLength other.random = sample.bitSize := by
      rw [← hbits]
      exact (ends_verify_ok_iff.1 haccepted).1 .random
    exact ⟨hrandom, (haccepted.unique (hsame hrandom)).2⟩
  · rintro ⟨hrandom, rfl⟩
    exact hsame hrandom

/-! ## §4. Tampering. -/

/-- **A verification is tight.**  It accepts a sample exactly when the three drawn numbers have the
size of the sample, there is at least one round, a check approves of `p` and another one, from where
that has left the source, of `q`, and the product is theirs.  Of a sample that was accepted once, no
single field but the random integer can be changed: from every source and with every number of
rounds the changed sample is rejected, which is with an error on a tape, and with another size of the
sample from every source.  With another random integer it is accepted from the same session exactly
when that has the size of the sample, at the same cost. -/
theorem verify_tight (sample : Sample) :
    (∀ rounds (session after : Session σ),
      Ends (fun fuel => sample.verify fuel rounds) session (.ok ()) after
        ↔ (bitLength sample.random = sample.bitSize ∧ bitLength sample.p = sample.bitSize
            ∧ bitLength sample.q = sample.bitSize)
          ∧ 1 ≤ rounds
          ∧ (∃ mid, Approves rounds sample.p session mid ∧ Approves rounds sample.q mid after)
          ∧ sample.n = sample.p * sample.q)
    ∧ ∀ rounds (session after : Session σ),
      Ends (fun fuel => sample.verify fuel rounds) session (.ok ()) after →
        ∀ changed other, DiffersIn changed sample other →
          (changed ≠ .random →
            (∀ rounds' (checking : Session τ), other.Rejects rounds' checking)
            ∧ (∀ rounds' (tape : Session Tape), ∃ cause after',
              Ends (fun fuel => other.verify fuel rounds') tape (.error cause) after')
            ∧ (changed = .bitSize → ∀ rounds', ∃ cause, ∀ checking : Session τ,
              Ends (fun fuel => other.verify fuel rounds') checking (.error cause) checking))
          ∧ (changed = .random → ∀ after',
            Ends (fun fuel => other.verify fuel rounds) session (.ok ()) after'
              ↔ bitLength other.random = sample.bitSize ∧ after' = after) := by
  constructor
  · intro rounds session after
    have hsizes : (∀ which, bitLength (sample.get which) = sample.bitSize)
        ↔ bitLength sample.random = sample.bitSize ∧ bitLength sample.p = sample.bitSize
          ∧ bitLength sample.q = sample.bitSize := by
      constructor
      · intro hsize
        exact ⟨hsize .random, hsize .p, hsize .q⟩
      · rintro ⟨hrandom, hp, hq⟩ which
        cases which with
        | random => exact hrandom
        | p => exact hp
        | q => exact hq
    rw [ends_verify_ok_iff, hsizes]
  · intro rounds session after haccepted changed other hdiffers
    have hs : sample.Sound := sound_of_verify haccepted
    constructor
    · intro hchanged
      have hrejected {υ : Type} [Source υ] (rounds' : Nat) (checking : Session υ) :
          other.Rejects rounds' checking :=
        rejects_of_not_accepted fun after' hother =>
          hchanged (hs.eq_random_of_differsIn (sound_of_verify hother) hdiffers)
      refine ⟨hrejected, fun rounds' tape => (hrejected rounds' tape).exists_error, ?_⟩
      rintro rfl
      exact exists_error_of_differsIn_bitSize hs hdiffers
    · rintro rfl after'
      exact ends_verify_ok_of_differsIn_random haccepted hdiffers after'

/-- Three times three is accepted without a byte.  With another product it is rejected, on a tape that
is longer and with more rounds too, and as a sample of three bits even with bytes of ones; with another
random integer of two bits it is not. -/
theorem verify_tight_of_nine :
    Ends (fun fuel => (⟨2, 2, 3, 3, 9⟩ : Sample).verify fuel 1) (Session.start (⟨[]⟩ : Tape))
        (.ok ()) (Session.start ⟨[]⟩)
      ∧ (DiffersIn .n ⟨2, 2, 3, 3, 9⟩ ⟨2, 2, 3, 3, 10⟩ ∧ Field.n ≠ .random
        ∧ ∃ cause after, Ends (fun fuel => (⟨2, 2, 3, 3, 10⟩ : Sample).verify fuel 40)
          (Session.start (⟨[1, 2, 3]⟩ : Tape)) (.error cause) after)
      ∧ (DiffersIn .bitSize ⟨2, 2, 3, 3, 9⟩ ⟨3, 2, 3, 3, 9⟩ ∧ Field.bitSize ≠ .random
        ∧ ∃ cause, Ends (fun fuel => (⟨3, 2, 3, 3, 9⟩ : Sample).verify fuel 40)
          (Session.start (⟨⟩ : Ones)) (.error cause) (Session.start ⟨⟩))
      ∧ DiffersIn .random ⟨2, 2, 3, 3, 9⟩ ⟨2, 3, 3, 3, 9⟩
        ∧ Ends (fun fuel => (⟨2, 3, 3, 3, 9⟩ : Sample).verify fuel 1) (Session.start (⟨[]⟩ : Tape))
          (.ok ()) (Session.start ⟨[]⟩) := by
  have hthree : Approves 1 3 (Session.start (⟨[]⟩ : Tape)) (Session.start ⟨[]⟩) :=
    .of_settled one_ne_zero (by norm_num) (Or.inl (by decide)) _
  have haccepted : Ends (fun fuel => (⟨2, 2, 3, 3, 9⟩ : Sample).verify fuel 1)
      (Session.start (⟨[]⟩ : Tape)) (.ok ()) (Session.start ⟨[]⟩) :=
    ends_verify_ok_iff.2 ⟨fun which => by cases which <;> decide, le_rfl, ⟨_, hthree, hthree⟩, rfl⟩
  have hproduct : DiffersIn .n ⟨2, 2, 3, 3, 9⟩ ⟨2, 2, 3, 3, 10⟩ := by
    intro f
    cases f <;> decide
  have hlonger : DiffersIn .bitSize ⟨2, 2, 3, 3, 9⟩ ⟨3, 2, 3, 3, 9⟩ := by
    intro f
    cases f <;> decide
  have hrandom : DiffersIn .random ⟨2, 2, 3, 3, 9⟩ ⟨2, 3, 3, 3, 9⟩ := by
    intro f
    cases f <;> decide
  have htight := (verify_tight (τ := Ones) ⟨2, 2, 3, 3, 9⟩).2 1 _ _ haccepted
  refine ⟨haccepted, ⟨hproduct, by decide, ?_⟩, ⟨hlonger, by decide, ?_⟩, hrandom, ?_⟩
  · exact ((htight .n _ hproduct).1 (by decide)).2.1 40 _
  · obtain ⟨cause, herror⟩ := ((htight .bitSize _ hlonger).1 (by decide)).2.2 rfl 40
    exact ⟨cause, herror _⟩
  · exact ((htight .random _ hrandom).2 rfl _).2 ⟨by decide, rfl⟩

/-- **Not every verification of a changed sample returns**: 1009 times 1009 is accepted from a tape,
and with 5 as its product no verification with bytes of ones has an end. -/
theorem endless_verify_of_differsIn :
    Ends (fun fuel => (⟨10, 512, 1009, 1009, 1018081⟩ : Sample).verify fuel 1)
        (Session.start (⟨[0, 0, 0, 0]⟩ : Tape)) (.ok ()) ⟨⟨[]⟩, ⟨2, 4⟩, []⟩
      ∧ DiffersIn .n ⟨10, 512, 1009, 1009, 1018081⟩ ⟨10, 512, 1009, 1009, 5⟩
      ∧ Endless (fun fuel => (⟨10, 512, 1009, 1009, 5⟩ : Sample).verify fuel 1)
          (Session.start (⟨⟩ : Ones))
      ∧ ¬ ∀ (sample : Sample) rounds (session after : Session Tape),
        Ends (fun fuel => sample.verify fuel rounds) session (.ok ()) after →
          ∀ changed other, DiffersIn changed sample other → changed ≠ .random →
            ∀ rounds' (checking : Session Ones), ∃ cause after',
              Ends (fun fuel => other.verify fuel rounds') checking (.error cause) after' := by
  have hp : Approves 1 1009 (Session.start (⟨[0, 0, 0, 0]⟩ : Tape)) ⟨⟨[0, 0]⟩, ⟨1, 2⟩, []⟩ :=
    ⟨_, (Primality.steady_check 1 1009).ends (Primality.runIn_check_1009 0 _ _ _), rfl⟩
  have hq : Approves 1 1009 (⟨⟨[0, 0]⟩, ⟨1, 2⟩, []⟩ : Session Tape) ⟨⟨[]⟩, ⟨2, 4⟩, []⟩ :=
    ⟨_, (Primality.steady_check 1 1009).ends (Primality.runIn_check_1009 0 _ _ _), rfl⟩
  have haccepted : Ends (fun fuel => (⟨10, 512, 1009, 1009, 1018081⟩ : Sample).verify fuel 1)
      (Session.start (⟨[0, 0, 0, 0]⟩ : Tape)) (.ok ()) ⟨⟨[]⟩, ⟨2, 4⟩, []⟩ :=
    ends_verify_ok_iff.2 ⟨size_1009 1018081, le_rfl, ⟨_, hp, hq⟩, rfl⟩
  have hdiffers : DiffersIn .n ⟨10, 512, 1009, 1009, 1018081⟩ ⟨10, 512, 1009, 1009, 5⟩ := by
    intro f
    cases f <;> decide
  -- The product is looked at behind the two checks, and the first of them has no end.
  have hendless := endless_verify_of_ones (size_1009 5) one_ne_zero Primality.not_settled_1009
    (Session.start ⟨⟩)
  refine ⟨haccepted, hdiffers, hendless, fun hall => ?_⟩
  obtain ⟨cause, after, hends⟩ :=
    hall _ 1 _ _ haccepted .n _ hdiffers (by decide) 1 (Session.start ⟨⟩)
  exact hends.not_endless hendless

end Sample

end ProbablePrime
