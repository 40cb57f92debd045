/-
  ProbablePrime.Proofs.Primality.StrongRounds — the rounds of a check as the textbook test.

  The textbook test draws its witnesses and asks of each whether the number is a strong probable
  prime to it.  The rounds of a check take three short cuts: a witness whose odd power is one or minus
  one is not squared any more, the squarings stop at one, and the first witness that is not passed
  ends the rounds.  `passesWitness_iff` says that the first two change no answer for a witness; what
  is left is the loop.

  Where the rounds accept, they have drawn all their witnesses; where they reject, they have drawn
  the witnesses up to the first one that decides, and nothing behind it.  Both are inductions over the
  rounds, one draw at a time.

  Main results:
    * `ends_passesRounds_true_iff` and `ends_passesRounds_false_iff` — when the rounds end, and where;
    * `check_strong_iff` — the check of a number without small factors.
-/
import ProbablePrime.Proofs.Primality.Verdict

namespace ProbablePrime.Primality

open Entropy (Source Tape)
open Draw (Ends Steady)

variable {σ : Type} [Source σ]

/-! ## §1. Witnesses, drawn to their end. -/

theorem steady_drawWitnesses (n rounds : Nat) :
    Steady fun fuel => (drawWitnesses fuel n rounds : Draw σ PrimeError (List Nat)) := by
  induction rounds with
  | zero => exact Draw.steady_const _
  | succ rounds ih =>
    unfold drawWitnesses
    exact (steady_randomBelow (n - 3)).bind fun a => ih.bind fun rest => Draw.steady_const _

theorem ends_drawWitnesses_zero_iff {n : Nat} {session after : Session σ} {as : List Nat} :
    Ends (fun fuel => drawWitnesses fuel n 0) session (.ok as) after
      ↔ as = [] ∧ session = after := by
  simp only [drawWitnesses]
  rw [Draw.ends_const_iff]
  exact Draw.runIn_pure_eq_ok.trans (by rw [eq_comm])

/-- One witness more is one draw in front. -/
theorem ends_drawWitnesses_succ_iff {n rounds : Nat} {session after : Session σ} {as : List Nat} :
    Ends (fun fuel => drawWitnesses fuel n (rounds + 1)) session (.ok as) after
      ↔ ∃ a mid rest, Ends (fun fuel => randomBelow fuel (n - 3)) session (.ok a) mid
        ∧ Ends (fun fuel => drawWitnesses fuel n rounds) mid (.ok rest) after
        ∧ as = (a + 2) :: rest := by
  simp only [drawWitnesses]
  rw [Draw.ends_bind_ok_iff (steady_randomBelow (n - 3))]
  simp only [Draw.ends_bind_ok_iff (steady_drawWitnesses n rounds), Draw.ends_const_iff]
  constructor
  · rintro ⟨a, mid, hdraw, rest, last, hmore, hpure⟩
    obtain ⟨rfl, rfl⟩ := Draw.runIn_pure_eq_ok.1 hpure
    exact ⟨a, mid, rest, hdraw, hmore, rfl⟩
  · rintro ⟨a, mid, rest, hdraw, hmore, rfl⟩
    exact ⟨a, mid, hdraw, rest, after, hmore, rfl⟩

/-- A number that is drawn to its end below a bound is below it. -/
theorem lt_of_ends_randomBelow {bound a : Nat} {session mid : Session σ}
    (h : Ends (fun fuel => randomBelow fuel bound) session (.ok a) mid) : a < bound := by
  obtain ⟨least, hrun⟩ := h
  exact lt_of_randomBelow (hrun least le_rfl)

/-- As many witnesses are drawn as there are rounds, and they lie strictly between one and the
predecessor of the number. -/
theorem mem_range_of_ends_drawWitnesses {n rounds : Nat} {session after : Session σ} {as : List Nat}
    (h : Ends (fun fuel => drawWitnesses fuel n rounds) session (.ok as) after) :
    as.length = rounds ∧ ∀ a ∈ as, 2 ≤ a ∧ a ≤ n - 2 := by
  induction rounds generalizing session as with
  | zero =>
    obtain ⟨rfl, -⟩ := ends_drawWitnesses_zero_iff.1 h
    exact ⟨rfl, by simp⟩
  | succ rounds ih =>
    obtain ⟨a, mid, rest, hdraw, hmore, rfl⟩ := ends_drawWitnesses_succ_iff.1 h
    obtain ⟨hlength, hrange⟩ := ih hmore
    have hlt : a < n - 3 := lt_of_ends_randomBelow hdraw
    refine ⟨by rw [List.length_cons, hlength], fun b hb => ?_⟩
    rcases List.mem_cons.1 hb with rfl | hb
    · omega
    · exact hrange b hb

/-! ## §2. The rounds, drawn to their end. -/

variable {n rounds : Nat} {parts : Decomposition} {session after : Session σ}

/-- No rounds accept at once. -/
theorem ends_passesRounds_zero_iff {passed : Bool} :
    Ends (fun fuel => passesRounds fuel n parts 0) session (.ok passed) after
      ↔ passed = true ∧ session = after := by
  simp only [passesRounds]
  rw [Draw.ends_const_iff]
  exact Draw.runIn_pure_eq_ok.trans (by rw [eq_comm])

/-- Rounds that end with an answer have drawn one witness and stopped at it, or gone on. -/
theorem ends_passesRounds_succ_iff {passed : Bool} :
    Ends (fun fuel => passesRounds fuel n parts (rounds + 1)) session (.ok passed) after
      ↔ ∃ a mid, Ends (fun fuel => randomBelow fuel (n - 3)) session (.ok a) mid
        ∧ if passesWitness n parts (a + 2) = true
          then Ends (fun fuel => passesRounds fuel n parts rounds) mid (.ok passed) after
          else passed = false ∧ mid = after := by
  simp only [passesRounds]
  rw [Draw.ends_bind_ok_iff (steady_randomBelow (n - 3))]
  refine exists_congr fun a => exists_congr fun mid => and_congr_right fun _ => ?_
  -- A witness that is not passed ends the rounds without another draw.
  split
  · rfl
  · rw [Draw.ends_const_iff]
    exact Draw.runIn_pure_eq_ok.trans (by rw [eq_comm])

/-- **The rounds accept behind the draw of all their witnesses, if each of them is passed.** -/
theorem ends_passesRounds_true_iff :
    Ends (fun fuel => passesRounds fuel n parts rounds) session (.ok true) after
      ↔ ∃ as, Ends (fun fuel => drawWitnesses fuel n rounds) session (.ok as) after
        ∧ ∀ a ∈ as, passesWitness n parts a = true := by
  induction rounds generalizing session with
  | zero =>
    rw [ends_passesRounds_zero_iff]
    constructor
    · rintro ⟨-, rfl⟩
      exact ⟨[], ends_drawWitnesses_zero_iff.2 ⟨rfl, rfl⟩, by simp⟩
    · rintro ⟨as, hdraw, -⟩
      exact ⟨rfl, (ends_drawWitnesses_zero_iff.1 hdraw).2⟩
  | succ rounds ih =>
    rw [ends_passesRounds_succ_iff]
    constructor
    · rintro ⟨a, mid, hdraw, hrest⟩
      split at hrest
      · next hpass =>
        obtain ⟨as, hmore, hall⟩ := ih.1 hrest
        refine ⟨(a + 2) :: as, ends_drawWitnesses_succ_iff.2 ⟨a, mid, as, hdraw, hmore, rfl⟩, ?_⟩
        intro b hb
        rcases List.mem_cons.1 hb with rfl | hb
        · exact hpass
        · exact hall b hb
      · cases hrest.1
    · rintro ⟨as, hdraws, hall⟩
      obtain ⟨a, mid, rest, hdraw, hmore, rfl⟩ := ends_drawWitnesses_succ_iff.1 hdraws
      refine ⟨a, mid, hdraw, ?_⟩
      rw [if_pos (hall (a + 2) List.mem_cons_self)]
      exact ih.2 ⟨rest, hmore, fun b hb => hall b (List.mem_cons_of_mem _ hb)⟩

/-- Rounds that reject have drawn witnesses up to one that is not passed, and no others. -/
theorem exists_of_ends_passesRounds_false
    (h : Ends (fun fuel => passesRounds fuel n parts rounds) session (.ok false) after) :
    ∃ k < rounds, ∃ passed a,
      Ends (fun fuel => drawWitnesses fuel n (k + 1)) session (.ok (passed ++ [a])) after
        ∧ (∀ b ∈ passed, passesWitness n parts b = true) ∧ passesWitness n parts a = false := by
  induction rounds generalizing session with
  | zero =>
    cases (ends_passesRounds_zero_iff.1 h).1
  | succ rounds ih =>
    obtain ⟨w, mid, hdraw, hrest⟩ := ends_passesRounds_succ_iff.1 h
    split at hrest
    · next hpass =>
      obtain ⟨k, hk, passed, a, hmore, hall, hfail⟩ := ih hrest
      refine ⟨k + 1, by omega, (w + 2) :: passed, a, ?_, ?_, hfail⟩
      · exact ends_drawWitnesses_succ_iff.2 ⟨w, mid, passed ++ [a], hdraw, hmore, rfl⟩
      · intro b hb
        rcases List.mem_cons.1 hb with rfl | hb
        · exact hpass
        · exact hall b hb
    · next hfail =>
      -- The first witness decides, and no other is drawn.
      obtain ⟨-, rfl⟩ := hrest
      refine ⟨0, by omega, [], w + 2, ?_, by simp, Bool.eq_false_iff.2 hfail⟩
      exact ends_drawWitnesses_succ_iff.2
        ⟨w, mid, [], hdraw, ends_drawWitnesses_zero_iff.2 ⟨rfl, rfl⟩, rfl⟩

/-- Rounds reject behind a row of witnesses of which the last is the only one that is not passed. -/
theorem ends_passesRounds_false_of_drawWitnesses {k : Nat} {passed : List Nat} {a : Nat}
    (hk : k < rounds)
    (hdraws : Ends (fun fuel => drawWitnesses fuel n (k + 1)) session (.ok (passed ++ [a])) after)
    (hall : ∀ b ∈ passed, passesWitness n parts b = true) (hfail : passesWitness n parts a = false) :
    Ends (fun fuel => passesRounds fuel n parts rounds) session (.ok false) after := by
  induction rounds generalizing session k passed with
  | zero => omega
  | succ rounds ih =>
    obtain ⟨w, mid, rest, hdraw, hmore, hlist⟩ := ends_drawWitnesses_succ_iff.1 hdraws
    have hlength : rest.length = k := (mem_range_of_ends_drawWitnesses hmore).1
    refine ends_passesRounds_succ_iff.2 ⟨w, mid, hdraw, ?_⟩
    cases passed with
    | nil =>
      obtain ⟨rfl, rfl⟩ := List.cons.inj hlist
      subst hlength
      obtain ⟨-, rfl⟩ := ends_drawWitnesses_zero_iff.1 hmore
      rw [if_neg (Bool.eq_false_iff.1 hfail)]
      exact ⟨rfl, rfl⟩
    | cons first passed =>
      obtain ⟨rfl, rfl⟩ := List.cons.inj hlist
      rw [if_pos (hall _ List.mem_cons_self)]
      -- A second witness was drawn, so the number of the one that decides is not zero.
      have hsucc : k = passed.length + 1 := hlength.symm.trans List.length_append
      subst hsucc
      exact ih (by omega) hmore fun b hb => hall b (List.mem_cons_of_mem _ hb)

/-- **The rounds reject behind the draw of the first witness that is not passed.** -/
theorem ends_passesRounds_false_iff :
    Ends (fun fuel => passesRounds fuel n parts rounds) session (.ok false) after
      ↔ ∃ k < rounds, ∃ passed a,
        Ends (fun fuel => drawWitnesses fuel n (k + 1)) session (.ok (passed ++ [a])) after
          ∧ (∀ b ∈ passed, passesWitness n parts b = true) ∧ passesWitness n parts a = false := by
  constructor
  · exact exists_of_ends_passesRounds_false
  · rintro ⟨k, hk, passed, a, hdraws, hall, hfail⟩
    exact ends_passesRounds_false_of_drawWitnesses hk hdraws hall hfail

/-! ## §3. The check of a number without small factors. -/

/-- A check that meets the rounds ends as they do. -/
theorem ends_check_iff_of_not_settled (hrounds : rounds ≠ 0) (hn : ¬ Settled n)
    (hparts : decompose n = some parts) {verdict : Verdict} :
    Ends (fun fuel => check fuel rounds n) session (.ok verdict) after
      ↔ verdict.decomposition = some parts
        ∧ Ends (fun fuel => passesRounds fuel n parts rounds) session
            (.ok verdict.probablePrime) after := by
  simp only [check_of_not_settled hrounds hn hparts]
  rw [Draw.ends_bind_ok_iff (steady_passesRounds n parts rounds)]
  simp only [Draw.ends_const_iff]
  constructor
  · rintro ⟨passed, mid, hpassed, hpure⟩
    obtain ⟨rfl, rfl⟩ := Draw.runIn_pure_eq_ok.1 hpure
    exact ⟨rfl, hpassed⟩
  · rintro ⟨hdecomposition, hpassed⟩
    have hsame : (⟨verdict.probablePrime, some parts⟩ : Verdict) = verdict := by
      rw [← hdecomposition]
    exact ⟨verdict.probablePrime, after, hpassed, Draw.runIn_pure_eq_ok.2 ⟨hsame, rfl⟩⟩

/-- The square of the prime 1009 has no factor in the table, though it is composite. -/
theorem not_dvd_square_of_1009 {p : Nat} (hp : p.Prime) (hlt : p < 1000) : ¬ p ∣ 1018081 := by
  intro hdvd
  have hroot : p ∣ 1009 := hp.dvd_of_dvd_pow (show p ∣ 1009 ^ 2 from hdvd)
  have hself : p = 1009 := (Nat.prime_dvd_prime_iff_eq hp (by norm_num)).1 hroot
  omega

/-- **The rounds are the textbook test.**  For a number past the table without small factors, with
its predecessor `d * 2 ^ s` and `d` odd, the witnesses are drawn from `2` to `n - 2`.  A check with at
least one round finds the number prime exactly when all the witnesses of its rounds were drawn and
to each of them the number is a strong probable prime; it finds it composite exactly when it is not
one to some witness, and then the witnesses up to the first such one were drawn and no others. -/
theorem check_strong_iff {n d s rounds : Nat} (hlarge : 1000 < n)
    (hfree : ∀ p, p.Prime → p < 1000 → ¬ p ∣ n) (hd : d % 2 = 1) (hn : n = d * 2 ^ s + 1)
    (hrounds : 1 ≤ rounds) (session : Session σ) :
    (∀ k as after, Ends (fun fuel => drawWitnesses fuel n k) session (.ok as) after →
      as.length = k ∧ ∀ a ∈ as, 2 ≤ a ∧ a ≤ n - 2)
    ∧ (∀ verdict after, Ends (fun fuel => check fuel rounds n) session (.ok verdict) after →
      verdict.decomposition = some ⟨d, s⟩)
    ∧ (∀ after, Ends (fun fuel => check fuel rounds n) session (.ok ⟨true, some ⟨d, s⟩⟩) after
      ↔ ∃ as, Ends (fun fuel => drawWitnesses fuel n rounds) session (.ok as) after
        ∧ ∀ a ∈ as, StrongProbablePrime n ⟨d, s⟩ a)
    ∧ ∀ after, Ends (fun fuel => check fuel rounds n) session (.ok ⟨false, some ⟨d, s⟩⟩) after
      ↔ ∃ k < rounds, ∃ passed a,
        Ends (fun fuel => drawWitnesses fuel n (k + 1)) session (.ok (passed ++ [a])) after
          ∧ (∀ b ∈ passed, StrongProbablePrime n ⟨d, s⟩ b) ∧ ¬ StrongProbablePrime n ⟨d, s⟩ a := by
  have hpositive : rounds ≠ 0 := by omega
  have hopen : ¬ Settled n := by
    rw [settled_iff, trialLimit]
    rintro (hsmall | ⟨p, hp, hlt, hdvd⟩)
    · omega
    · exact hfree p hp hlt hdvd
  have hparts : Decomposition.Of n ⟨d, s⟩ := ⟨hd, hn⟩
  have hodd : n % 2 = 1 := by
    by_contra heven
    exact hfree 2 Nat.prime_two (by decide) (Nat.dvd_of_mod_eq_zero (by omega))
  have hstrong (a : Nat) : passesWitness n ⟨d, s⟩ a = true ↔ StrongProbablePrime n ⟨d, s⟩ a :=
    passesWitness_iff (by omega) (hparts.s_pos hodd) a
  have hcheck (verdict : Verdict) (after : Session σ) :
      Ends (fun fuel => check fuel rounds n) session (.ok verdict) after
        ↔ verdict.decomposition = some ⟨d, s⟩
          ∧ Ends (fun fuel => passesRounds fuel n ⟨d, s⟩ rounds) session
              (.ok verdict.probablePrime) after :=
    ends_check_iff_of_not_settled hpositive hopen hparts.decompose_eq
  refine ⟨fun k as after h => mem_range_of_ends_drawWitnesses h,
    fun verdict after h => ((hcheck verdict after).1 h).1, fun after => ?_, fun after => ?_⟩
  · rw [hcheck, ends_passesRounds_true_iff]
    simp only [hstrong, true_and]
  · rw [hcheck, ends_passesRounds_false_iff]
    simp only [hstrong, Bool.eq_false_iff, ne_eq, true_and]

/-- The square of 1009 is not a strong probable prime to the base two, so of forty rounds on a tape
with one witness the first one is enough. -/
theorem check_strong_iff_square_of_1009 :
    (∀ p, p.Prime → p < 1000 → ¬ p ∣ 1018081) ∧ 31815 % 2 = 1 ∧ 1018081 = 31815 * 2 ^ 5 + 1
      ∧ ¬ StrongProbablePrime 1018081 ⟨31815, 5⟩ 2
      ∧ Ends (fun fuel => check fuel 40 1018081) (Session.start (⟨[0, 0, 0]⟩ : Tape))
          (.ok ⟨false, some ⟨31815, 5⟩⟩) ⟨⟨[]⟩, ⟨1, 3⟩, []⟩ := by
  have hfree : ∀ p, p.Prime → p < 1000 → ¬ p ∣ 1018081 := fun p => not_dvd_square_of_1009
  have hparts : Decomposition.Of 1018081 ⟨31815, 5⟩ := ⟨by decide, by decide⟩
  have hfail : ¬ StrongProbablePrime 1018081 ⟨31815, 5⟩ 2 := by
    rw [← passesWitness_iff (by decide) (hparts.s_pos (by decide))]
    decide +kernel
  -- Of three zero bytes the number zero is drawn, which stands for the witness two.
  have hzero : Ends (fun fuel => randomBelow fuel (1018081 - 3))
      (Session.start (⟨[0, 0, 0]⟩ : Tape)) (.ok 0) ⟨⟨[]⟩, ⟨1, 3⟩, []⟩ := by
    have hserved : (Source.fill (attemptSize (1018081 - 3))
        (Session.start (⟨[0, 0, 0]⟩ : Tape)).source).1 = .ok [0, 0, 0] := rfl
    exact ends_randomBelow_of_accepted hserved (by decide)
  have hdraw : Ends (fun fuel => drawWitnesses fuel 1018081 1)
      (Session.start (⟨[0, 0, 0]⟩ : Tape)) (.ok [2]) ⟨⟨[]⟩, ⟨1, 3⟩, []⟩ :=
    ends_drawWitnesses_succ_iff.2
      ⟨0, _, [], hzero, ends_drawWitnesses_zero_iff.2 ⟨rfl, rfl⟩, rfl⟩
  refine ⟨hfree, by decide, by decide, hfail, ?_⟩
  obtain ⟨-, -, -, hcomposite⟩ :=
    check_strong_iff (by decide) hfree hparts.odd hparts.eq (show 1 ≤ 40 by decide)
      (Session.start (⟨[0, 0, 0]⟩ : Tape))
  exact (hcomposite _).2 ⟨0, by decide, [], 2, hdraw, by simp, hfail⟩

end ProbablePrime.Primality
