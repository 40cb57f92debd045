/-
  ProbablePrime.Proofs.Generator.Cap — one search under different caps.

  Two searches that differ in their caps alone draw the same bytes and check the same candidates, as
  long as neither of them is at its cap.  `turn_cases` says what one such turn can do, for all caps at
  once, and everything else is an induction on the turns.

  `Needs` counts the candidates that a search begins, the last one included.  A cap below this count
  ends the search where it is reached; a cap from there on is never noticed.

  Main results:
    * `steady_probablePrime` — more fuel only lets a search go on;
    * `Needs.ends_capped` — a cap that is large enough changes nothing;
    * `Needs.ends_exhausted` — a cap that is too small is what the search reports;
    * `ends_probablePrime_of_looser` — what is found under a cap is found under a looser one.
-/
import ProbablePrime.Proofs.Generator.Search

namespace ProbablePrime

open Entropy (Source)
open Draw (Ends Extends Steady)

variable {σ : Type} [Source σ]

/-! ## §1. Caps. -/

/-- The cap `cap'` allows at least as many candidates as the cap `cap`. -/
def Looser (cap cap' : Option Nat) : Prop := ∀ m', cap' = some m' → ∃ m, cap = some m ∧ m ≤ m'

variable {config : Config} {cap cap' : Option Nat} {bits fuel turns attempts count : Nat}
  {session session' : Session σ}

/-- A search that is at the looser cap is at the other one too. -/
theorem Looser.exhausted (hcap : Looser cap cap') (config : Config)
    (h : (config.capped cap').exhausted attempts = true) :
    (config.capped cap).exhausted attempts = true := by
  obtain ⟨m', hm', hle'⟩ := exhausted_eq_true_iff.1 h
  obtain ⟨m, hm, hle⟩ := hcap m' hm'
  exact exhausted_eq_true_iff.2 ⟨m, hm, by omega⟩

/-! ## §2. Turns under caps. -/

/-- A candidate and its verdict are settled by the session. -/
theorem Examines.unique {rounds c c' : Nat} {passed passed' : Bool} {before after after' : Session σ}
    (h : Examines rounds bits before c passed after)
    (h' : Examines rounds bits before c' passed' after') :
    c = c' ∧ passed = passed' ∧ after = after' := by
  obtain ⟨mid, verdict, hdraw, hends, rfl⟩ := h
  obtain ⟨mid', verdict', hdraw', hends', rfl⟩ := h'
  rw [hdraw] at hdraw'
  obtain ⟨hc, rfl⟩ := Prod.mk.inj hdraw'
  obtain rfl : c = c' := Except.ok.inj hc
  obtain ⟨hverdict, rfl⟩ := hends.unique hends'
  obtain rfl : verdict = verdict' := Except.ok.inj hverdict
  exact ⟨rfl, rfl, rfl⟩

/-- At its cap a search gives up, without a draw. -/
theorem runIn_searchFrom_of_exhausted (h : config.exhausted attempts = true) :
    (searchFrom config fuel bits (turns + 1) attempts).runIn session
      = (.error (.error (.attemptsExhausted bits attempts)),
          session.noted (gaveUp bits attempts)) := by
  rw [searchFrom, if_pos h]
  rfl

/-! ## §3. Fuel. -/

/-- More turns and more fuel do not change a search that has ended. -/
theorem searchFrom_extends {fuel' turns' : Nat} (hfuel : fuel ≤ fuel') (hturns : turns ≤ turns') :
    Extends (searchFrom config fuel bits turns attempts : Draw σ PrimeError Nat)
      (searchFrom config fuel' bits turns' attempts) := by
  induction turns generalizing turns' attempts with
  | zero => exact Extends.of_outOfFuel _
  | succ turns ih =>
    obtain ⟨turns', rfl⟩ : ∃ k, turns' = k + 1 := ⟨turns' - 1, by omega⟩
    unfold searchFrom
    split
    · exact Extends.refl _
    · -- The candidate is drawn without fuel, and the check only needs enough of it.
      refine (Extends.refl _).bind fun c => ?_
      refine Extends.bind (Primality.steady_check config.rounds c hfuel) fun verdict => ?_
      split
      · exact Extends.refl _
      · exact ih (by omega)

/-- **More fuel only lets a search go on.** -/
theorem steady_probablePrime (config : Config) (bits : Nat) :
    Steady fun fuel => (probablePrime config fuel bits : Draw σ PrimeError Nat) := by
  unfold probablePrime
  split
  · exact Draw.steady_const _
  · intro fuel fuel' hle
    exact searchFrom_extends hle hle

/-! ## §4. The candidates that a search begins. -/

/-- From `session` on, all candidates fail up to number `count`, which does not. -/
inductive Takes (rounds bits : Nat) : (session : Session σ) → (count : Nat) → Prop
  /-- The next candidate does not fail: it passes, or it is not drawn or checked to its end. -/
  | last {session : Session σ} : (∀ c after, ¬ Examines rounds bits session c false after) →
      Takes rounds bits session 1
  /-- The next candidate fails. -/
  | more {session mid : Session σ} {c count : Nat} : Examines rounds bits session c false mid →
      Takes rounds bits mid count → Takes rounds bits session (count + 1)

/-- A search from `session` needs `count` candidates.  A search of too small a size needs none, for
it is refused. -/
def Needs (rounds bits : Nat) (session : Session σ) (count : Nat) : Prop :=
  if bits < leastPrimeBits then count = 0 else Takes rounds bits session count

/-- A search that ends without a cap has begun some number of candidates. -/
theorem exists_takes {result : Except (Stop PrimeError) Nat}
    (h : (searchFrom (config.capped none) fuel bits turns attempts).runIn session = (result, session'))
    (hended : result ≠ .error .outOfFuel) : ∃ count, Takes config.rounds bits session count := by
  induction turns generalizing attempts session with
  | zero =>
    obtain ⟨rfl, -⟩ := Prod.mk.inj h
    exact absurd rfl hended
  | succ turns ih =>
    rcases turn_cases config fuel bits session with
      ⟨stop, after, hstop, hrun⟩ | ⟨c, after, hpass, hrun⟩ | ⟨c, mid, hfail, hrun⟩
    · rw [hrun none turns attempts rfl] at h
      obtain ⟨rfl, -⟩ := Prod.mk.inj h
      cases stop with
      | outOfFuel => exact absurd rfl hended
      | error cause => exact ⟨1, .last (hstop cause rfl).2⟩
    · refine ⟨1, .last fun c' after' hfail => ?_⟩
      exact Bool.false_ne_true (hfail.unique hpass).2.1
    · rw [hrun none turns attempts rfl] at h
      obtain ⟨count, htakes⟩ := ih h
      exact ⟨count + 1, .more hfail htakes⟩

/-- A search goes the same way under a cap that it does not come to. -/
theorem runIn_searchFrom_of_takes {m : Nat} {result : Except (Stop PrimeError) Nat}
    (h : (searchFrom (config.capped none) fuel bits turns attempts).runIn session = (result, session'))
    (hended : result ≠ .error .outOfFuel) (htakes : Takes config.rounds bits session count)
    (hle : attempts + count ≤ m) :
    (searchFrom (config.capped (some m)) fuel bits turns attempts).runIn session
      = (result, session') := by
  -- With every turn there is one attempt more and one candidate less to come, so the bound stays.
  induction turns generalizing attempts session count with
  | zero =>
    obtain ⟨rfl, -⟩ := Prod.mk.inj h
    exact absurd rfl hended
  | succ turns ih =>
    have hopen : (config.capped (some m)).exhausted attempts = false := by
      have hpos : 0 < count := by cases htakes <;> omega
      rw [Config.exhausted_capped_some]
      exact decide_eq_false (by omega)
    rcases turn_cases config fuel bits session with
      ⟨stop, after, -, hrun⟩ | ⟨c, after, -, hrun⟩ | ⟨c, mid, hfail, hrun⟩
    · rw [hrun none turns attempts rfl] at h
      rw [hrun (some m) turns attempts hopen, h]
    · rw [hrun none turns attempts rfl] at h
      rw [hrun (some m) turns attempts hopen, h]
    · rw [hrun none turns attempts rfl] at h
      rw [hrun (some m) turns attempts hopen]
      cases htakes with
      | last hnone => exact absurd hfail (hnone c mid)
      | more hfail' hrest =>
        obtain ⟨-, -, rfl⟩ := hfail.unique hfail'
        exact ih h hrest (by omega)

/-- A search that would go past its cap gives up there. -/
theorem runIn_searchFrom_of_takes_lt {m : Nat} {result : Except (Stop PrimeError) Nat}
    (h : (searchFrom (config.capped none) fuel bits turns attempts).runIn session = (result, session'))
    (hended : result ≠ .error .outOfFuel) (htakes : Takes config.rounds bits session count)
    (hle : attempts ≤ m) (hlt : m < attempts + count) :
    ∃ candidates last, Discards config.rounds bits session candidates last
      ∧ attempts + candidates.length = m
      ∧ (searchFrom (config.capped (some m)) fuel bits turns attempts).runIn session
        = (.error (.error (.attemptsExhausted bits m)), last.noted (gaveUp bits m)) := by
  induction turns generalizing attempts session count with
  | zero =>
    obtain ⟨rfl, -⟩ := Prod.mk.inj h
    exact absurd rfl hended
  | succ turns ih =>
    by_cases hreached : m = attempts
    · -- The cap is reached, and this turn only says so.
      subst hreached
      have hexhausted : (config.capped (some m)).exhausted m = true := by simp
      exact ⟨[], session, .none session, rfl, runIn_searchFrom_of_exhausted hexhausted⟩
    · have hopen : (config.capped (some m)).exhausted attempts = false := by
        rw [Config.exhausted_capped_some]
        exact decide_eq_false (by omega)
      cases htakes with
      -- A search with one candidate left goes past its cap only where the cap is reached already.
      | last hnone => omega
      | more hfail hrest =>
        rename_i mid c count
        rcases turn_cases config fuel bits session with
          ⟨stop, after, hstop, hrun⟩ | ⟨c', after, hpass, hrun⟩ | ⟨c', mid', hfail', hrun⟩
        · rw [hrun none turns attempts rfl] at h
          obtain ⟨rfl, -⟩ := Prod.mk.inj h
          cases stop with
          | outOfFuel => exact absurd rfl hended
          | error cause => exact absurd hfail ((hstop cause rfl).2 c mid)
        · exact absurd (hfail.unique hpass).2.1 Bool.false_ne_true
        · obtain ⟨-, -, rfl⟩ := hfail.unique hfail'
          rw [hrun none turns attempts rfl] at h
          rw [hrun (some m) turns attempts hopen]
          obtain ⟨candidates, last, hdiscards, hlength, hgave⟩ := ih h hrest (by omega) (by omega)
          refine ⟨c :: candidates, last, .more hfail hdiscards, ?_, hgave⟩
          rw [List.length_cons]
          omega

/-! ## §5. Whole searches. -/

/-- A search of a size that has primes is its loop. -/
theorem probablePrime_of_size (hsize : ¬ bits < leastPrimeBits) (config : Config) (fuel : Nat) :
    (probablePrime config fuel bits : Draw σ PrimeError Nat) = searchFrom config fuel bits fuel 0 := by
  rw [probablePrime, if_neg hsize]

/-- A search that ends without a cap has needed some number of candidates. -/
theorem exists_needs {answer : Except PrimeError Nat}
    (h : Ends (fun fuel => probablePrime (config.capped none) fuel bits) session answer session') :
    ∃ count, Needs config.rounds bits session count := by
  unfold Needs
  split
  · exact ⟨0, rfl⟩
  · next hsize =>
    simp only [probablePrime_of_size hsize] at h
    obtain ⟨least, hrun⟩ := h
    exact exists_takes (hrun least le_rfl) (Draw.mapError_ne_outOfFuel answer)

/-- **A cap that is large enough changes nothing**, neither the answer nor the session. -/
theorem Needs.ends_capped {answer : Except PrimeError Nat} {m : Nat}
    (hneeds : Needs config.rounds bits session count)
    (h : Ends (fun fuel => probablePrime (config.capped none) fuel bits) session answer session')
    (hle : count ≤ m) :
    Ends (fun fuel => probablePrime (config.capped (some m)) fuel bits) session answer session' := by
  unfold Needs at hneeds
  by_cases hsize : bits < leastPrimeBits
  · simp only [probablePrime, if_pos hsize] at h ⊢
    exact h
  · rw [if_neg hsize] at hneeds
    simp only [probablePrime_of_size hsize] at h ⊢
    obtain ⟨least, hrun⟩ := h
    refine ⟨least, fun fuel hfuel => ?_⟩
    exact runIn_searchFrom_of_takes (hrun fuel hfuel) (Draw.mapError_ne_outOfFuel answer) hneeds
      (by omega)

/-- **A cap that is too small is what the search reports**, after as many candidates as it allows. -/
theorem Needs.ends_exhausted {answer : Except PrimeError Nat} {m : Nat}
    (hneeds : Needs config.rounds bits session count)
    (h : Ends (fun fuel => probablePrime (config.capped none) fuel bits) session answer session')
    (hlt : m < count) :
    ∃ after, Ends (fun fuel => probablePrime (config.capped (some m)) fuel bits) session
      (.error (.attemptsExhausted bits m)) after := by
  unfold Needs at hneeds
  by_cases hsize : bits < leastPrimeBits
  · rw [if_pos hsize] at hneeds
    omega
  · rw [if_neg hsize] at hneeds
    simp only [probablePrime_of_size hsize] at h
    obtain ⟨least, hrun⟩ := h
    obtain ⟨candidates, last, -, -, hgave⟩ := runIn_searchFrom_of_takes_lt (hrun least le_rfl)
      (Draw.mapError_ne_outOfFuel answer) hneeds (Nat.zero_le m) (by omega)
    have hend : (probablePrime (config.capped (some m)) least bits).runIn session
        = (.error (.error (.attemptsExhausted bits m)), last.noted (gaveUp bits m)) := by
      rw [probablePrime_of_size hsize]
      exact hgave
    exact ⟨last.noted (gaveUp bits m), (steady_probablePrime _ bits).ends hend⟩

/-- What a search finds under a cap, it finds under a looser one. -/
theorem runIn_searchFrom_of_looser (hcap : Looser cap cap') {p : Nat}
    (h : (searchFrom (config.capped cap) fuel bits turns attempts).runIn session
      = (.ok p, session')) :
    (searchFrom (config.capped cap') fuel bits turns attempts).runIn session = (.ok p, session') := by
  induction turns generalizing attempts session with
  | zero => cases h
  | succ turns ih =>
    cases hopen : (config.capped cap).exhausted attempts with
    | true =>
      rw [runIn_searchFrom_of_exhausted hopen] at h
      cases h
    | false =>
      -- The one search is allowed this turn, and so is the other, and they make the same of it.
      have hopen' : (config.capped cap').exhausted attempts = false := by
        by_contra hreached
        rw [Bool.not_eq_false] at hreached
        rw [hcap.exhausted config hreached] at hopen
        cases hopen
      rcases turn_cases config fuel bits session with
        ⟨stop, after, -, hrun⟩ | ⟨c, after, -, hrun⟩ | ⟨c, mid, -, hrun⟩
      · rw [hrun cap turns attempts hopen] at h
        cases h
      · rw [hrun cap turns attempts hopen] at h
        rw [hrun cap' turns attempts hopen', h]
      · rw [hrun cap turns attempts hopen] at h
        rw [hrun cap' turns attempts hopen']
        exact ih h

/-- **Raising the cap keeps what was found.** -/
theorem ends_probablePrime_of_looser (hcap : Looser cap cap') {p : Nat}
    (h : Ends (fun fuel => probablePrime (config.capped cap) fuel bits) session (.ok p) session') :
    Ends (fun fuel => probablePrime (config.capped cap') fuel bits) session (.ok p) session' := by
  by_cases hsize : bits < leastPrimeBits
  · simp only [probablePrime, if_pos hsize] at h ⊢
    exact h
  · simp only [probablePrime_of_size hsize] at h ⊢
    obtain ⟨least, hrun⟩ := h
    exact ⟨least, fun fuel hfuel => runIn_searchFrom_of_looser hcap (hrun fuel hfuel)⟩

end ProbablePrime
