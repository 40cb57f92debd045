/-
  ProbablePrime.Proofs.Primality.MoreRounds — the same check with fewer and with more rounds.

  The number of rounds bounds a loop and nothing else.  As long as the witnesses are passed, a check
  with more rounds does what one with fewer rounds does, and then goes on; at the first witness that is
  not passed both stop, at the same place.  So on one stream the longer check accepts less, and what
  it has drawn when it accepts begins with what the shorter one has drawn.

  Both facts are about the loop: an acceptance splits after any number of its rounds, and a rejection
  does not depend on how many rounds there would have been.

  Main results:
    * `exists_ends_passesRounds_of_add` — an acceptance splits in two;
    * `ends_passesRounds_false_of_le` — a rejection stays one with more rounds;
    * `check_rounds_mono` — the check, on a tape with a record of its requests.
-/
import ProbablePrime.Proofs.Entropy.Recorded
import ProbablePrime.Proofs.Primality.StrongRounds

namespace ProbablePrime.Primality

open Entropy (Source Tape Recorded Consumed)
open Entropy.Source (Reaches)
open Draw (Ends)

variable {σ : Type} [Source σ] {n rounds rounds' : Nat} {parts : Decomposition}
  {session after after' : Session σ}

/-! ## §1. The rounds. -/

/-- **Rounds that accept have accepted after any number of them**, and the others follow. -/
theorem exists_ends_passesRounds_of_add {more : Nat}
    (h : Ends (fun fuel => passesRounds fuel n parts (rounds + more)) session (.ok true) after') :
    ∃ after, Ends (fun fuel => passesRounds fuel n parts rounds) session (.ok true) after
      ∧ Ends (fun fuel => passesRounds fuel n parts more) after (.ok true) after' := by
  induction rounds generalizing session with
  | zero =>
    rw [Nat.zero_add] at h
    exact ⟨session, ends_passesRounds_zero_iff.2 ⟨rfl, rfl⟩, h⟩
  | succ rounds ih =>
    rw [Nat.add_right_comm] at h
    obtain ⟨a, mid, hdraw, hrest⟩ := ends_passesRounds_succ_iff.1 h
    by_cases hpass : passesWitness n parts (a + 2) = true
    · rw [if_pos hpass] at hrest
      obtain ⟨after, hfirst, hmore⟩ := ih hrest
      refine ⟨after, ends_passesRounds_succ_iff.2 ⟨a, mid, hdraw, ?_⟩, hmore⟩
      rw [if_pos hpass]
      exact hfirst
    · -- A witness that is not passed would have ended the rounds with a rejection.
      rw [if_neg hpass] at hrest
      cases hrest.1

/-- **Rounds that reject reject at the same place if there are more of them.** -/
theorem ends_passesRounds_false_of_le (hle : rounds ≤ rounds')
    (h : Ends (fun fuel => passesRounds fuel n parts rounds) session (.ok false) after) :
    Ends (fun fuel => passesRounds fuel n parts rounds') session (.ok false) after := by
  obtain ⟨k, hk, passed, a, hdraws, hall, hfail⟩ := exists_of_ends_passesRounds_false h
  exact ends_passesRounds_false_of_drawWitnesses (by omega) hdraws hall hfail

/-- Where rounds end with an answer, their requests were served. -/
theorem reaches_of_ends_passesRounds (hn : 3 < n) {passed : Bool}
    (h : Ends (fun fuel => passesRounds fuel n parts rounds) session (.ok passed) after) :
    Reaches session.source after.source := by
  obtain ⟨least, hrun⟩ := h
  exact (faithful_passesRounds hn parts least rounds).reaches_of_ok (hrun least le_rfl)

/-! ## §2. The check. -/

/-- A settled number gets the same verdict from any number of rounds, and nothing is drawn. -/
theorem ends_check_iff_of_settled (hrounds : rounds ≠ 0) (hn : Settled n) {verdict : Verdict} :
    Ends (fun fuel => check fuel rounds n) session (.ok verdict) after
      ↔ verdict = ⟨decide n.Prime, decompose n⟩ ∧ session = after := by
  simp only [check_of_settled hrounds hn]
  rw [Draw.ends_const_iff]
  exact Draw.runIn_pure_eq_ok.trans (by rw [eq_comm])

/-- A check that accepts has accepted after fewer rounds, by requests that it went on from. -/
theorem exists_ends_check_of_le (hrounds : rounds ≠ 0) (hle : rounds ≤ rounds') {verdict : Verdict}
    (h : Ends (fun fuel => check fuel rounds' n) session (.ok verdict) after')
    (hpass : verdict.probablePrime = true) :
    ∃ after, Ends (fun fuel => check fuel rounds n) session (.ok verdict) after
      ∧ Reaches session.source after.source ∧ Reaches after.source after'.source := by
  have hrounds' : rounds' ≠ 0 := by omega
  by_cases hn : Settled n
  · obtain ⟨rfl, rfl⟩ := (ends_check_iff_of_settled hrounds' hn).1 h
    exact ⟨session, (ends_check_iff_of_settled hrounds hn).2 ⟨rfl, rfl⟩, Reaches.refl _,
      Reaches.refl _⟩
  · have hlarge : 3 < n := three_lt_of_not_settled hn
    have hparts := decompose_of_two_le (show 2 ≤ n by omega)
    obtain ⟨hdecomposition, hpassed⟩ := (ends_check_iff_of_not_settled hrounds' hn hparts).1 h
    rw [hpass, show rounds' = rounds + (rounds' - rounds) by omega] at hpassed
    obtain ⟨after, hfirst, hmore⟩ := exists_ends_passesRounds_of_add hpassed
    refine ⟨after, (ends_check_iff_of_not_settled hrounds hn hparts).2 ⟨hdecomposition, ?_⟩,
      reaches_of_ends_passesRounds hlarge hfirst, reaches_of_ends_passesRounds hlarge hmore⟩
    rw [hpass]
    exact hfirst

/-- A check that rejects rejects with more rounds too, in the same session. -/
theorem ends_check_of_le (hrounds : rounds ≠ 0) (hle : rounds ≤ rounds') {verdict : Verdict}
    (h : Ends (fun fuel => check fuel rounds n) session (.ok verdict) after)
    (hfail : verdict.probablePrime = false) :
    Ends (fun fuel => check fuel rounds' n) session (.ok verdict) after := by
  have hrounds' : rounds' ≠ 0 := by omega
  by_cases hn : Settled n
  · exact (ends_check_iff_of_settled hrounds' hn).2 ((ends_check_iff_of_settled hrounds hn).1 h)
  · have hlarge : 3 < n := three_lt_of_not_settled hn
    have hparts := decompose_of_two_le (show 2 ≤ n by omega)
    obtain ⟨hdecomposition, hrejected⟩ := (ends_check_iff_of_not_settled hrounds hn hparts).1 h
    refine (ends_check_iff_of_not_settled hrounds' hn hparts).2 ⟨hdecomposition, ?_⟩
    rw [hfail] at hrejected ⊢
    exact ends_passesRounds_false_of_le hle hrejected

/-- **More rounds on the same tape.**  A check that accepts has the same verdict with fewer rounds, at
least one, and then its requests and its bytes are the first ones of those of the longer check.  A
check that rejects ends with more rounds in the very same way: with the same verdict, the same
requests and the same bytes. -/
theorem check_rounds_mono {n rounds rounds' : Nat} (hrounds : 1 ≤ rounds) (hle : rounds ≤ rounds')
    (session : Session (Recorded Tape)) :
    (∀ verdict after', Ends (fun fuel => check fuel rounds' n) session (.ok verdict) after' →
      verdict.probablePrime = true →
        ∃ after, Ends (fun fuel => check fuel rounds n) session (.ok verdict) after
          ∧ ∃ requests used more extra, Consumed session.source after.source requests used
            ∧ Consumed session.source after'.source (requests ++ more) (used ++ extra))
    ∧ ∀ verdict after, Ends (fun fuel => check fuel rounds n) session (.ok verdict) after →
      verdict.probablePrime = false →
        Ends (fun fuel => check fuel rounds' n) session (.ok verdict) after := by
  have hpositive : rounds ≠ 0 := by omega
  constructor
  · intro verdict after' h hpass
    obtain ⟨after, hends, hfirst, hmore⟩ := exists_ends_check_of_le hpositive hle h hpass
    obtain ⟨requests, used, hused⟩ := Entropy.exists_consumed_of_reaches hfirst
    obtain ⟨more, extra, hextra⟩ := Entropy.exists_consumed_of_reaches hmore
    exact ⟨after, hends, requests, used, more, extra, hused, hused.trans hextra⟩
  · intro verdict after h hfail
    exact ends_check_of_le hpositive hle h hfail

/-- The prime 1009 passes two rounds with four zero bytes, so it passes one round with the first of
them.  The square of 1009 fails its first round, so three bytes are enough for one round and for forty. -/
theorem check_rounds_mono_1009 :
    1 ≤ 1 ∧ 1 ≤ 2 ∧ 1 ≤ 40
      ∧ (∃ after, Ends (fun fuel => check fuel 1 1009)
            (Session.start (Recorded.start (⟨[0, 0, 0, 0]⟩ : Tape))) (.ok ⟨true, some ⟨63, 4⟩⟩) after
          ∧ ∃ requests used more extra,
              Consumed (Recorded.start ⟨[0, 0, 0, 0]⟩) after.source requests used
              ∧ Consumed (Recorded.start ⟨[0, 0, 0, 0]⟩) ⟨⟨[]⟩, [2, 2]⟩ (requests ++ more)
                  (used ++ extra))
      ∧ Ends (fun fuel => check fuel 40 1018081)
          (Session.start (Recorded.start (⟨[0, 0, 0]⟩ : Tape))) (.ok ⟨false, some ⟨31815, 5⟩⟩)
          ⟨⟨⟨[]⟩, [3]⟩, ⟨1, 3⟩, []⟩ := by
  refine ⟨by decide, by decide, by decide, ?_, ?_⟩
  · have hopen : ¬ Settled 1009 := by
      rw [settled_iff, trialLimit]
      rintro (hsmall | ⟨p, hp, hlt, hdvd⟩)
      · omega
      · have hself : p = 1009 := (Nat.prime_dvd_prime_iff_eq hp (by norm_num)).1 hdvd
        omega
    have hparts : Decomposition.Of 1009 ⟨63, 4⟩ := ⟨by decide, by decide⟩
    have hpass : passesWitness 1009 ⟨63, 4⟩ (0 + 2) = true := by decide +kernel
    -- Each round takes two zero bytes, which stand for the witness two.
    have hdraw (rest : List UInt8) (requests : List Nat) (meter : Meter) :
        Ends (fun fuel => randomBelow fuel (1009 - 3))
          (⟨⟨⟨0 :: 0 :: rest⟩, requests⟩, meter, []⟩ : Session (Recorded Tape)) (.ok 0)
          ⟨⟨⟨rest⟩, requests ++ [2]⟩, meter.add 2, []⟩ := by
      have hserved : (Source.fill (attemptSize (1009 - 3))
          (⟨⟨⟨0 :: 0 :: rest⟩, requests⟩, meter, []⟩ : Session (Recorded Tape)).source).1
            = .ok [0, 0] := rfl
      exact ends_randomBelow_of_accepted hserved (by decide)
    have hrounds : Ends (fun fuel => passesRounds fuel 1009 ⟨63, 4⟩ 2)
        (Session.start (Recorded.start (⟨[0, 0, 0, 0]⟩ : Tape))) (.ok true)
        ⟨⟨⟨[]⟩, [2, 2]⟩, ⟨2, 4⟩, []⟩ := by
      refine ends_passesRounds_succ_iff.2 ⟨0, _, hdraw [0, 0] [] ⟨0, 0⟩, ?_⟩
      rw [if_pos hpass]
      refine ends_passesRounds_succ_iff.2 ⟨0, _, hdraw [] [2] ⟨1, 2⟩, ?_⟩
      rw [if_pos hpass]
      exact ends_passesRounds_zero_iff.2 ⟨rfl, rfl⟩
    have hcheck : Ends (fun fuel => check fuel 2 1009)
        (Session.start (Recorded.start (⟨[0, 0, 0, 0]⟩ : Tape))) (.ok ⟨true, some ⟨63, 4⟩⟩)
        ⟨⟨⟨[]⟩, [2, 2]⟩, ⟨2, 4⟩, []⟩ :=
      (ends_check_iff_of_not_settled (by decide) hopen hparts.decompose_eq).2 ⟨rfl, hrounds⟩
    exact (check_rounds_mono le_rfl (by decide) _).1 _ _ hcheck rfl
  · have hopen : ¬ Settled 1018081 := by
      rw [settled_iff, trialLimit]
      rintro (hsmall | ⟨p, hp, hlt, hdvd⟩)
      · omega
      · exact not_dvd_square_of_1009 hp hlt hdvd
    have hparts : Decomposition.Of 1018081 ⟨31815, 5⟩ := ⟨by decide, by decide⟩
    have hfail : ¬ passesWitness 1018081 ⟨31815, 5⟩ (0 + 2) = true := by decide +kernel
    have hserved : (Source.fill (attemptSize (1018081 - 3))
        (Session.start (Recorded.start (⟨[0, 0, 0]⟩ : Tape))).source).1 = .ok [0, 0, 0] := rfl
    have hround : Ends (fun fuel => passesRounds fuel 1018081 ⟨31815, 5⟩ 1)
        (Session.start (Recorded.start (⟨[0, 0, 0]⟩ : Tape))) (.ok false)
        ⟨⟨⟨[]⟩, [3]⟩, ⟨1, 3⟩, []⟩ := by
      refine ends_passesRounds_succ_iff.2
        ⟨0, _, ends_randomBelow_of_accepted hserved (by decide), ?_⟩
      rw [if_neg hfail]
      exact ⟨rfl, rfl⟩
    have hcheck : Ends (fun fuel => check fuel 1 1018081)
        (Session.start (Recorded.start (⟨[0, 0, 0]⟩ : Tape))) (.ok ⟨false, some ⟨31815, 5⟩⟩)
        ⟨⟨⟨[]⟩, [3]⟩, ⟨1, 3⟩, []⟩ :=
      (ends_check_iff_of_not_settled (by decide) hopen hparts.decompose_eq).2 ⟨rfl, hround⟩
    exact (check_rounds_mono le_rfl (by decide) _).2 _ _ hcheck rfl

end ProbablePrime.Primality
