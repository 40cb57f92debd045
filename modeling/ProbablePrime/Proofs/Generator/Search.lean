/-
  ProbablePrime.Proofs.Generator.Search — searches for primes, candidate by candidate.

  A search draws a candidate and has it checked, again and again.  `Examines` is one such turn,
  `Discards` a row of turns whose candidates all fail, and `GoesOut` says how a search ends behind
  such a row: it has found a number, it has reached its cap, or it was broken off.  None of them
  mentions fuel.

  The count of failed candidates is the length of the row, and it never exceeds the cap, so a search
  that gives up does so at the cap and not past it.

  Main results:
    * `turn_cases` — what one turn of a search can do;
    * `goesOut_of_searchFrom` — every run of a search is a row of failures and one way to end;
    * `probablePrime_sound` — what is found is odd, of the right size and hardly ever composite, and
      no prime is ever passed over.
-/
import ProbablePrime.Proofs.Primality.Passing
import ProbablePrime.Proofs.Sampling.Sized

namespace ProbablePrime

open Entropy (Source Tape)
open Entropy.Source (Reaches Refuses)
open Number (bitLength bitLength_le_iff)
open Primality (Passable Verdict check)
open Draw (Ends Faithful)

variable {σ : Type} [Source σ]

/-! ## §1. One candidate. -/

/-- In the session `before` a candidate is drawn, and a check ends with the verdict whether it
passes, in the session `after`. -/
def Examines (rounds bits : Nat) (before : Session σ) (candidate : Nat) (passed : Bool)
    (after : Session σ) : Prop :=
  ∃ mid verdict, (randomCandidate bits).runIn before = (.ok candidate, mid)
    ∧ Ends (fun fuel => check fuel rounds candidate) mid (.ok verdict) after
    ∧ verdict.probablePrime = passed

variable {rounds bits candidate : Nat} {passed : Bool} {before after : Session σ}

theorem ne_zero_of_leastPrimeBits_le (hbits : leastPrimeBits ≤ bits) : bits ≠ 0 := by
  rw [leastPrimeBits] at hbits
  omega

theorem Examines.odd_and_bitLength (h : Examines rounds bits before candidate passed after) :
    candidate % 2 = 1 ∧ bitLength candidate = bits := by
  obtain ⟨mid, verdict, hdraw, -, -⟩ := h
  exact odd_and_bitLength_of_randomCandidate hdraw

theorem Examines.passable (h : Examines rounds bits before candidate true after) :
    Passable candidate := by
  obtain ⟨mid, verdict, -, ⟨least, hrun⟩, hpass⟩ := h
  exact Passable.of_check (hrun least le_rfl) hpass

/-- A number of two bits at least is no unit. -/
theorem two_le_of_bitLength {n : Nat} (hbits : leastPrimeBits ≤ bits) (hsize : bitLength n = bits) :
    2 ≤ n := by
  by_contra hlt
  have hshort : bitLength n ≤ 1 := bitLength_le_iff.2 (by omega)
  rw [leastPrimeBits] at hbits
  omega

/-- A candidate that fails is composite. -/
theorem Examines.composite (hbits : leastPrimeBits ≤ bits)
    (h : Examines rounds bits before candidate false after) : 1 < candidate ∧ ¬ candidate.Prime := by
  have hsize : bitLength candidate = bits := h.odd_and_bitLength.2
  obtain ⟨mid, verdict, -, ⟨least, hrun⟩, hfail⟩ := h
  exact ⟨two_le_of_bitLength hbits hsize, Primality.not_prime_of_failed (hrun least le_rfl) hfail⟩

theorem Examines.reaches (hbits : leastPrimeBits ≤ bits)
    (h : Examines rounds bits before candidate passed after) :
    Reaches before.source after.source := by
  obtain ⟨mid, verdict, hdraw, ⟨least, hrun⟩, -⟩ := h
  have hpositive : bits ≠ 0 := ne_zero_of_leastPrimeBits_le hbits
  have hrounds : rounds ≠ 0 := Primality.rounds_ne_zero_of_check (hrun least le_rfl)
  have hfirst := (faithful_randomCandidate hpositive).reaches_of_ok hdraw
  have hsecond := (Primality.faithful_check hrounds candidate least).reaches_of_ok (hrun least le_rfl)
  exact hfirst.trans hsecond

/-! ## §2. Rows of candidates that fail. -/

/-- From the session `before` to the session `after`, the candidates of the list are examined one
after another, and all of them fail. -/
inductive Discards (rounds bits : Nat) : (before : Session σ) → List Nat → (after : Session σ) → Prop
  /-- Nothing happens. -/
  | none (session : Session σ) : Discards rounds bits session [] session
  /-- One candidate fails, and then others do. -/
  | more {before mid after : Session σ} {candidate : Nat} {candidates : List Nat} :
    Examines rounds bits before candidate false mid → Discards rounds bits mid candidates after →
      Discards rounds bits before (candidate :: candidates) after

theorem Discards.composite {candidates : List Nat} (hbits : leastPrimeBits ≤ bits)
    (h : Discards rounds bits before candidates after) :
    ∀ c ∈ candidates, 1 < c ∧ ¬ c.Prime := by
  induction h with
  | none session =>
    intro c hc
    simp at hc
  | more hfirst _ ih =>
    intro c hc
    rcases List.mem_cons.1 hc with rfl | hc
    · exact hfirst.composite hbits
    · exact ih c hc

theorem Discards.reaches {candidates : List Nat} (hbits : leastPrimeBits ≤ bits)
    (h : Discards rounds bits before candidates after) : Reaches before.source after.source := by
  induction h with
  | none session => exact Reaches.refl _
  | more hfirst _ ih => exact (hfirst.reaches hbits).trans ih

/-! ## §3. The turns of a search. -/

/-- The settings with another cap. -/
def Config.capped (config : Config) (cap : Option Nat) : Config := { config with maxAttempts := cap }

@[simp] theorem Config.capped_rounds (config : Config) (cap : Option Nat) :
    (config.capped cap).rounds = config.rounds := rfl

@[simp] theorem Config.exhausted_capped_some (config : Config) (m attempts : Nat) :
    (config.capped (some m)).exhausted attempts = decide (m ≤ attempts) := rfl

/-- A turn whose candidate passes its check is the last one. -/
theorem runIn_searchFrom_of_passed {config : Config} {fuel turns attempts c : Nat}
    (hopen : config.exhausted attempts = false) {session mid after : Session σ} {verdict : Verdict}
    (hdraw : (randomCandidate bits).runIn session = (.ok c, mid))
    (hcheck : (check fuel config.rounds c).runIn mid = (.ok verdict, after))
    (hpass : verdict.probablePrime = true) :
    (searchFrom config fuel bits (turns + 1) attempts).runIn session
      = (.ok c, after.noted (found bits (attempts + 1))) := by
  rw [searchFrom, if_neg (by simp [hopen]), Draw.runIn_bind_of_ok hdraw,
    Draw.runIn_bind_of_ok hcheck, hpass, if_pos rfl]
  rfl

/-- **What one turn can do that is allowed.**  It is broken off, and where that is an error, the
source refused a request or no rounds were allowed, and no candidate has failed; or a candidate
passes; or one fails and the search goes on.  Which of them it is does not depend on the cap, nor on
the turns so far. -/
theorem turn_cases (config : Config) (fuel bits : Nat) (session : Session σ) :
    (∃ stop after,
      (∀ cause, stop = .error cause →
        (bits ≠ 0 → cause = .zeroRounds ∨ Refuses session.source cause after.source)
          ∧ ∀ c after', ¬ Examines config.rounds bits session c false after')
      ∧ ∀ cap turns attempts, (config.capped cap).exhausted attempts = false →
        (searchFrom (config.capped cap) fuel bits (turns + 1) attempts).runIn session
          = (.error stop, after))
    ∨ (∃ c after, Examines config.rounds bits session c true after
      ∧ ∀ cap turns attempts, (config.capped cap).exhausted attempts = false →
        (searchFrom (config.capped cap) fuel bits (turns + 1) attempts).runIn session
          = (.ok c, after.noted (found bits (attempts + 1))))
    ∨ ∃ c mid, Examines config.rounds bits session c false mid
      ∧ ∀ cap turns attempts, (config.capped cap).exhausted attempts = false →
        (searchFrom (config.capped cap) fuel bits (turns + 1) attempts).runIn session
          = (searchFrom (config.capped cap) fuel bits turns (attempts + 1)).runIn mid := by
  rcases hdraw : (randomCandidate bits).runIn session with ⟨drawn, mid⟩
  cases drawn with
  | error stop =>
    refine Or.inl ⟨stop, mid, ?_, ?_⟩
    · -- No candidate was drawn, so none can have failed.
      rintro cause rfl
      constructor
      · intro hpositive
        exact Or.inr ((faithful_randomCandidate hpositive).refuses_of_error hdraw)
      · intro c after' hfail
        obtain ⟨mid', verdict, hdraw', -, -⟩ := hfail
        rw [hdraw] at hdraw'
        cases hdraw'
    · intro cap turns attempts hopen
      rw [searchFrom, if_neg (by simp [hopen]), Draw.runIn_bind_of_error hdraw]
  | ok c =>
    rcases hcheck : (check fuel config.rounds c).runIn mid with ⟨checked, after⟩
    cases checked with
    | error stop =>
      refine Or.inl ⟨stop, after, ?_, ?_⟩
      · rintro cause rfl
        constructor
        · intro hpositive
          by_cases hrounds : config.rounds = 0
          · rw [check, if_pos hrounds, Draw.runIn_fail] at hcheck
            simp only [Prod.mk.injEq, Except.error.injEq, Stop.error.injEq] at hcheck
            exact Or.inl hcheck.1.symm
          · have hreach := (faithful_randomCandidate hpositive).reaches_of_ok hdraw
            have hrefuse := (Primality.faithful_check hrounds c fuel).refuses_of_error hcheck
            exact Or.inr (hreach.refuses hrefuse)
        · -- A check that stops with an error has ended, and without a verdict.
          intro c' after' hfail
          obtain ⟨mid', verdict, hdraw', hends, -⟩ := hfail
          rw [hdraw] at hdraw'
          obtain ⟨hc, rfl⟩ := Prod.mk.inj hdraw'
          obtain rfl : c = c' := Except.ok.inj hc
          have herror : Ends (fun fuel => check fuel config.rounds c) mid (.error cause) after :=
            (Primality.steady_check config.rounds c).ends hcheck
          cases (herror.unique hends).1
      · intro cap turns attempts hopen
        rw [searchFrom, if_neg (by simp [hopen]), Draw.runIn_bind_of_ok hdraw,
          Config.capped_rounds, Draw.runIn_bind_of_error hcheck]
    | ok verdict =>
      have hends : Ends (fun fuel => check fuel config.rounds c) mid (.ok verdict) after :=
        (Primality.steady_check config.rounds c).ends hcheck
      cases hverdict : verdict.probablePrime with
      | true =>
        refine Or.inr (Or.inl ⟨c, after, ⟨mid, verdict, hdraw, hends, hverdict⟩, ?_⟩)
        intro cap turns attempts hopen
        exact runIn_searchFrom_of_passed hopen hdraw hcheck hverdict
      | false =>
        refine Or.inr (Or.inr ⟨c, after, ⟨mid, verdict, hdraw, hends, hverdict⟩, ?_⟩)
        intro cap turns attempts hopen
        rw [searchFrom, if_neg (by simp [hopen]), Draw.runIn_bind_of_ok hdraw,
          Config.capped_rounds, Draw.runIn_bind_of_ok hcheck, hverdict, if_neg Bool.false_ne_true]

/-- How a search ends that has come to the session `last` after `failures` candidates have failed. -/
inductive GoesOut (config : Config) (bits failures : Nat) (last : Session σ) :
    Except (Stop PrimeError) Nat → Session σ → Prop
  /-- The next candidate is still allowed, and passes. -/
  | found {p : Nat} {after : Session σ} : config.exhausted failures = false →
    Examines config.rounds bits last p true after →
      GoesOut config bits failures last (.ok p) (after.noted (found bits (failures + 1)))
  /-- No further candidate is allowed. -/
  | gaveUp : config.maxAttempts = some failures →
      GoesOut config bits failures last (.error (.error (.attemptsExhausted bits failures)))
        (last.noted (gaveUp bits failures))
  /-- Something else ended the search: the source refused a request, no rounds were allowed, or the
  fuel was used up. -/
  | broke {stop : Stop PrimeError} {session' : Session σ} :
    (∀ cause, stop = .error cause → cause = .zeroRounds ∨ Refuses last.source cause session'.source) →
      GoesOut config bits failures last (.error stop) session'

theorem exhausted_eq_true_iff {config : Config} {attempts : Nat} :
    config.exhausted attempts = true ↔ ∃ cap, config.maxAttempts = some cap ∧ cap ≤ attempts := by
  rw [Config.exhausted]
  cases config.maxAttempts with
  | none => simp
  | some cap => simp

/-- A turn under a cap ends the search, or a candidate fails and the search goes on. -/
theorem searchFrom_turn {config : Config} {fuel turns attempts : Nat} (hbits : leastPrimeBits ≤ bits)
    (hopen : config.exhausted attempts = false) {session session' : Session σ}
    {result : Except (Stop PrimeError) Nat}
    (h : (searchFrom config fuel bits (turns + 1) attempts).runIn session = (result, session')) :
    GoesOut config bits attempts session result session'
      ∨ ∃ c mid, Examines config.rounds bits session c false mid
        ∧ (searchFrom config fuel bits turns (attempts + 1)).runIn mid = (result, session') := by
  rcases turn_cases config fuel bits session with
    ⟨stop, after, hstop, hrun⟩ | ⟨c, after, hpass, hrun⟩ | ⟨c, mid, hfail, hrun⟩
  · obtain ⟨rfl, rfl⟩ := Prod.mk.inj ((hrun config.maxAttempts turns attempts hopen).symm.trans h)
    refine Or.inl (.broke fun cause hcause => ?_)
    exact (hstop cause hcause).1 (ne_zero_of_leastPrimeBits_le hbits)
  · obtain ⟨rfl, rfl⟩ := Prod.mk.inj ((hrun config.maxAttempts turns attempts hopen).symm.trans h)
    exact Or.inl (.found hopen hpass)
  · exact Or.inr ⟨c, mid, hfail, (hrun config.maxAttempts turns attempts hopen).symm.trans h⟩

/-- **A run of a search is a row of candidates that fail, and one way to end behind it.**  The cap
bounds the length of the row, so it is where a search gives up. -/
theorem goesOut_of_searchFrom {config : Config} {fuel turns attempts : Nat}
    (hbits : leastPrimeBits ≤ bits)
    (hcap : ∀ cap, config.maxAttempts = some cap → attempts ≤ cap) {session session' : Session σ}
    {result : Except (Stop PrimeError) Nat}
    (h : (searchFrom config fuel bits turns attempts).runIn session = (result, session')) :
    ∃ candidates last, Discards config.rounds bits session candidates last
      ∧ GoesOut config bits (attempts + candidates.length) last result session' := by
  induction turns generalizing attempts session with
  | zero =>
    obtain ⟨rfl, rfl⟩ := Prod.mk.inj h
    refine ⟨[], session, .none session, .broke ?_⟩
    intro cause hcause
    cases hcause
  | succ turns ih =>
    cases hopen : config.exhausted attempts with
    | true =>
      rw [searchFrom, if_pos hopen] at h
      obtain ⟨rfl, rfl⟩ := Prod.mk.inj h
      -- So far the count has not passed the cap, and now it has reached it.
      obtain ⟨cap, hsome, hle⟩ := exhausted_eq_true_iff.1 hopen
      obtain rfl : attempts = cap := Nat.le_antisymm (hcap cap hsome) hle
      exact ⟨[], session, .none session, .gaveUp hsome⟩
    | false =>
      rcases searchFrom_turn hbits hopen h with hout | ⟨c, mid, hfail, hrest⟩
      · exact ⟨[], session, .none session, hout⟩
      · have hcap' : ∀ cap, config.maxAttempts = some cap → attempts + 1 ≤ cap := by
          intro cap hsome
          by_contra hgt
          have hreached : config.exhausted attempts = true :=
            exhausted_eq_true_iff.2 ⟨cap, hsome, by omega⟩
          rw [hopen] at hreached
          exact Bool.false_ne_true hreached
        obtain ⟨candidates, last, hdiscards, hout⟩ := ih hcap' hrest
        refine ⟨c :: candidates, last, .more hfail hdiscards, ?_⟩
        rw [List.length_cons, Nat.add_comm candidates.length, ← Nat.add_assoc]
        exact hout

/-- A turn whose candidate is below the limit of the table needs no witnesses: the candidate is the
answer if it is prime, and otherwise the search goes on behind the one request. -/
theorem runIn_searchFrom_of_small {config : Config} {fuel turns attempts : Nat} (hbits : bits ≠ 0)
    (hrounds : config.rounds ≠ 0) (hopen : config.exhausted attempts = false) {session : Session σ}
    {buffer : List UInt8} (h : (Source.fill (bufferSize bits) session.source).1 = .ok buffer)
    {c : Nat} (hc : integerOf bits buffer ||| 1 = c) (hsmall : c < Primality.trialLimit) :
    (searchFrom config fuel bits (turns + 1) attempts).runIn session
      = if c.Prime
        then (.ok c, (session.asked (bufferSize bits)).noted (found bits (attempts + 1)))
        else (searchFrom config fuel bits turns (attempts + 1)).runIn
          (session.asked (bufferSize bits)) := by
  subst hc
  rw [searchFrom, if_neg (by rw [hopen]; exact Bool.false_ne_true),
    Draw.runIn_bind_of_ok (runIn_randomCandidate_of_served hbits h),
    Primality.check_of_settled hrounds (Or.inl hsmall), pure_bind]
  by_cases hprime : (integerOf bits buffer ||| 1).Prime
  · simp only [decide_eq_true hprime, if_pos hprime]
    rfl
  · simp only [decide_eq_false hprime, if_neg hprime]
    rfl

/-- The first prime past the table takes four bytes of a tape, two that make it and two for a witness
that it passes. -/
theorem runIn_probablePrime_1009 (turns : Nat) (rest : List UInt8) (meter : Meter)
    (events : List Log.Event) :
    (probablePrime ⟨10, 1, none⟩ (turns + 1) 10).runIn
        (⟨⟨3 :: 241 :: 0 :: 0 :: rest⟩, meter, events⟩ : Session Tape)
      = (.ok 1009, ⟨⟨rest⟩, (meter.add 2).add 2, events ++ [found 10 1]⟩) := by
  have hdraw : (randomCandidate 10).runIn
      (⟨⟨3 :: 241 :: 0 :: 0 :: rest⟩, meter, events⟩ : Session Tape)
      = (.ok 1009, ⟨⟨0 :: 0 :: rest⟩, meter.add 2, events⟩) := by
    have hnumber : integerOf 10 [3, 241] ||| 1 = 1009 := by decide
    rw [runIn_randomCandidate_of_served (by decide) rfl, ← hnumber]
    rfl
  have hcheck := Primality.runIn_check_1009 turns rest (meter.add 2) events
  have hopen : (⟨10, 1, none⟩ : Config).exhausted 0 = false := rfl
  rw [probablePrime, if_neg (by decide)]
  exact runIn_searchFrom_of_passed hopen hdraw hcheck rfl

/-! ## §4. What a search finds. -/

/-- A search of too small a size is refused; any other is a row of failures and a way to end. -/
theorem probablePrime_cases {config : Config} {fuel : Nat} {session session' : Session σ}
    {result : Except (Stop PrimeError) Nat}
    (h : (probablePrime config fuel bits).runIn session = (result, session')) :
    result = .error (.error (.invalidBitSize bits leastPrimeBits))
      ∨ leastPrimeBits ≤ bits ∧ ∃ candidates last, Discards config.rounds bits session candidates last
        ∧ GoesOut config bits candidates.length last result session' := by
  unfold probablePrime at h
  split at h
  · obtain ⟨rfl, -⟩ := Prod.mk.inj h
    exact Or.inl rfl
  · next hsize =>
    have hbits : leastPrimeBits ≤ bits := Nat.le_of_not_lt hsize
    obtain ⟨candidates, last, hdiscards, hout⟩ :=
      goesOut_of_searchFrom hbits (fun cap _ => Nat.zero_le cap) h
    rw [Nat.zero_add] at hout
    exact Or.inr ⟨hbits, candidates, last, hdiscards, hout⟩

/-- A search that finds a number has discarded some candidates and then examined that number. -/
theorem examines_of_probablePrime {config : Config} {fuel p : Nat} {session session' : Session σ}
    (h : (probablePrime config fuel bits).runIn session = (.ok p, session')) :
    leastPrimeBits ≤ bits ∧ ∃ candidates last after,
      Discards config.rounds bits session candidates last
        ∧ Examines config.rounds bits last p true after
        ∧ session' = after.noted (found bits (candidates.length + 1)) := by
  rcases probablePrime_cases h with hrefused | ⟨hbits, candidates, last, hdiscards, hout⟩
  · cases hrefused
  · cases hout with
    | found _ hpass => exact ⟨hbits, candidates, last, _, hdiscards, hpass, rfl⟩

/-- A number that a search for a prime of `bits` bits can find. -/
structure OfSize (bits p : Nat) : Prop where
  /-- The search was not refused. -/
  least : leastPrimeBits ≤ bits
  /-- The number is odd. -/
  odd : p % 2 = 1
  /-- The number has the size that was asked for. -/
  size : bitLength p = bits
  /-- The number can pass a check. -/
  passable : Passable p

theorem OfSize.of_probablePrime {config : Config} {fuel p : Nat} {session session' : Session σ}
    (h : (probablePrime config fuel bits).runIn session = (.ok p, session')) : OfSize bits p := by
  obtain ⟨hleast, candidates, last, after, -, hpass, -⟩ := examines_of_probablePrime h
  exact ⟨hleast, hpass.odd_and_bitLength.1, hpass.odd_and_bitLength.2, hpass.passable⟩

theorem OfSize.two_le {p : Nat} (h : OfSize bits p) : 2 ≤ p := two_le_of_bitLength h.least h.size

/-- A passable number of few bits is prime. -/
theorem prime_of_bitLength_le {p : Nat} (hp : Passable p) (hsize : bitLength p ≤ 19) : p.Prime := by
  have hlt : p < 2 ^ 19 := bitLength_le_iff.1 hsize
  exact hp.prime_of_lt (by omega)

/-- **What a search finds, and what it passes over.**  A search that finds `p` has discarded only
composite candidates before it, and `p` is odd, has exactly the size that was asked for, and is
prime unless it is a large number without small factors.  A search that gives up does so at its cap,
and all the candidates up to there were composite.  The one other way to the same error is that it is
no report of the search at all: a source may refuse a request with whatever error it likes, this one
too, and the search passes on what the source has answered. -/
theorem probablePrime_sound (config : Config) (bits : Nat) (session : Session σ) :
    (∀ fuel p session', (probablePrime config fuel bits).runIn session = (.ok p, session') →
      ∃ candidates last after,
        Discards config.rounds bits session candidates last
        ∧ Examines config.rounds bits last p true after
        ∧ session' = after.noted (found bits (candidates.length + 1))
        ∧ (∀ c ∈ candidates, 1 < c ∧ ¬ c.Prime)
        ∧ p % 2 = 1 ∧ bitLength p = bits
        ∧ (p.Prime ∧ p < 1000 ∨ ∀ r, r.Prime → r < 1000 → ¬ r ∣ p)
        ∧ (p < 1018081 → p.Prime) ∧ (bits ≤ 19 → p.Prime))
    ∧ ∀ fuel size attempts session',
      (probablePrime config fuel bits).runIn session
          = (.error (.error (.attemptsExhausted size attempts)), session') →
        Refuses session.source (.attemptsExhausted size attempts) session'.source
        ∨ size = bits ∧ config.maxAttempts = some attempts
          ∧ ∃ candidates last,
            Discards config.rounds bits session candidates last
            ∧ session' = last.noted (gaveUp bits attempts)
            ∧ candidates.length = attempts ∧ ∀ c ∈ candidates, 1 < c ∧ ¬ c.Prime := by
  constructor
  · intro fuel p session' h
    obtain ⟨hbits, candidates, last, after, hdiscards, hpass, hnoted⟩ := examines_of_probablePrime h
    obtain ⟨hodd, hsize⟩ := hpass.odd_and_bitLength
    have hp : Passable p := hpass.passable
    refine ⟨candidates, last, after, hdiscards, hpass, hnoted, hdiscards.composite hbits, hodd, hsize,
      hp.small, hp.prime_of_lt, ?_⟩
    intro hfew
    exact prime_of_bitLength_le hp (by omega)
  · intro fuel size attempts session' h
    rcases probablePrime_cases h with hrefused | ⟨hbits, candidates, last, hdiscards, hout⟩
    · cases hrefused
    · cases hout with
      | gaveUp hcap =>
        exact Or.inr ⟨rfl, hcap, candidates, last, hdiscards, rfl, rfl, hdiscards.composite hbits⟩
      | broke hcause =>
        rcases hcause _ rfl with hzero | hrefuse
        · cases hzero
        · exact Or.inl ((hdiscards.reaches hbits).refuses hrefuse)

/-- Of four bits, the tape holds 9, 15 and 11.  Without a cap the search finds 11 behind two
composite candidates, and with a cap of two it gives up behind them. -/
theorem probablePrime_sound_four_bits :
    ((probablePrime ⟨4, 1, none⟩ 3 4).runIn (Session.start (⟨[0, 6, 2]⟩ : Tape))
        = (.ok 11, ⟨⟨[]⟩, ⟨3, 3⟩, [found 4 3]⟩)
      ∧ ∃ candidates last, Discards 1 4 (Session.start (⟨[0, 6, 2]⟩ : Tape)) candidates last
        ∧ (∀ c ∈ candidates, 1 < c ∧ ¬ c.Prime) ∧ (4 ≤ 19 → Nat.Prime 11))
    ∧ (probablePrime ⟨4, 1, some 2⟩ 3 4).runIn (Session.start (⟨[0, 6, 2]⟩ : Tape))
        = (.error (.error (.attemptsExhausted 4 2)), ⟨⟨[2]⟩, ⟨2, 2⟩, [gaveUp 4 2]⟩)
      ∧ (Refuses (⟨[0, 6, 2]⟩ : Tape) (.attemptsExhausted 4 2) ⟨[2]⟩
        ∨ 4 = 4 ∧ some 2 = some 2 ∧ ∃ candidates last,
          Discards 1 4 (Session.start (⟨[0, 6, 2]⟩ : Tape)) candidates last
          ∧ candidates.length = 2 ∧ ∀ c ∈ candidates, 1 < c ∧ ¬ c.Prime) := by
  have hnine : integerOf 4 [0] ||| 1 = 9 := by decide
  have hfifteen : integerOf 4 [6] ||| 1 = 15 := by decide
  have heleven : integerOf 4 [2] ||| 1 = 11 := by decide
  have hfound : (probablePrime ⟨4, 1, none⟩ 3 4).runIn (Session.start (⟨[0, 6, 2]⟩ : Tape))
      = (.ok 11, ⟨⟨[]⟩, ⟨3, 3⟩, [found 4 3]⟩) := by
    rw [probablePrime, if_neg (by decide),
      runIn_searchFrom_of_small (by decide) (by decide) rfl rfl hnine (by decide),
      if_neg (by norm_num),
      runIn_searchFrom_of_small (by decide) (by decide) rfl rfl hfifteen (by decide),
      if_neg (by norm_num),
      runIn_searchFrom_of_small (by decide) (by decide) rfl rfl heleven (by decide),
      if_pos (by norm_num)]
    rfl
  have hgaveUp : (probablePrime ⟨4, 1, some 2⟩ 3 4).runIn (Session.start (⟨[0, 6, 2]⟩ : Tape))
      = (.error (.error (.attemptsExhausted 4 2)), ⟨⟨[2]⟩, ⟨2, 2⟩, [gaveUp 4 2]⟩) := by
    rw [probablePrime, if_neg (by decide),
      runIn_searchFrom_of_small (by decide) (by decide) rfl rfl hnine (by decide),
      if_neg (by norm_num),
      runIn_searchFrom_of_small (by decide) (by decide) rfl rfl hfifteen (by decide),
      if_neg (by norm_num)]
    rfl
  refine ⟨⟨hfound, ?_⟩, hgaveUp, ?_⟩
  · obtain ⟨candidates, last, after, hdiscards, -, -, hcomposite, -, -, -, -, hprime⟩ :=
      (probablePrime_sound _ _ _).1 _ _ _ hfound
    exact ⟨candidates, last, hdiscards, hcomposite, hprime⟩
  · rcases (probablePrime_sound _ _ _).2 _ _ _ _ hgaveUp with hrefuse | ⟨hsize, hcap, hrow⟩
    · exact Or.inl hrefuse
    · obtain ⟨candidates, last, hdiscards, -, hlength, hcomposite⟩ := hrow
      exact Or.inr ⟨hsize, hcap, candidates, last, hdiscards, hlength, hcomposite⟩

end ProbablePrime
