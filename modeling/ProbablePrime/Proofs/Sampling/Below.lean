/-
  ProbablePrime.Proofs.Sampling.Below — draws below a bound.

  Main results:
    * `lt_of_randomBelow` — a number that is drawn below a bound is below it;
    * `steady_randomBelow` — more fuel only lets the draw try more often;
    * `faithful_randomBelow` — below a positive bound, only the source can fail.
-/
import ProbablePrime.Sampling
import ProbablePrime.Proofs.Draw.Ending
import ProbablePrime.Proofs.Draw.Refusal

namespace ProbablePrime

open Entropy (Source)
open Number (bitLength)
open Draw (Ends Steady Faithful)

variable {σ : Type} [Source σ]

/-! ## §1. Numbers of a given size. -/

theorem faithful_randomBits (bits : Nat) :
    Faithful (randomBits bits : Draw σ PrimeError Nat) := by
  unfold randomBits
  split
  · exact Draw.faithful_pure 0
  · exact (Draw.faithful_bytes _).bind fun _ => Draw.faithful_pure _

/-- How a draw of a positive size runs: one request, cut to size. -/
theorem runIn_randomBits {bits : Nat} (hbits : bits ≠ 0) (session : Session σ) :
    (randomBits bits : Draw σ PrimeError Nat).runIn session
      = (((Source.fill (bufferSize bits) session.source).1.map (ofBuffer bits)).mapError Stop.error,
          session.asked (bufferSize bits)) := by
  rw [randomBits, if_neg hbits, Draw.runIn_bind, Draw.runIn_bytes]
  cases (Source.fill (bufferSize bits) session.source).1 with
  | ok buffer => rfl
  | error cause => rfl

/-- A positive bound has bits to draw. -/
theorem bitLength_ne_zero {n : Nat} (hn : 0 < n) : bitLength n ≠ 0 := by
  rw [bitLength, if_neg (by omega)]
  omega

/-! ## §2. The loop. -/

/-- The number of bytes that each attempt of a draw below `bound` asks for. -/
def attemptSize (bound : Nat) : Nat := bufferSize (bitLength bound)

/-- One turn of the loop: a number that is too large is thrown away and the loop goes on. -/
theorem runIn_randomBelowLoop_succ (bound fuel : Nat) (session : Session σ) :
    (randomBelowLoop bound (fuel + 1) : Draw σ PrimeError Nat).runIn session
      = match (randomBits (bitLength bound) : Draw σ PrimeError Nat).runIn session with
        | (.ok v, session') =>
          if v < bound then (.ok v, session')
          else (randomBelowLoop bound fuel).runIn session'
        | (.error stop, session') => (.error stop, session') := by
  rw [randomBelowLoop, Draw.runIn_bind]
  rcases (randomBits (bitLength bound) : Draw σ PrimeError Nat).runIn session with ⟨result, session'⟩
  cases result with
  | error stop => rfl
  | ok v =>
    by_cases hv : v < bound
    · simp [hv]
    · simp [hv]

/-- One turn where the request is served: the number in the buffer is the answer, or it is too large
and the loop goes on. -/
theorem runIn_randomBelowLoop_of_served {bound : Nat} (hbound : 0 < bound) (fuel : Nat)
    {session : Session σ} {buffer : List UInt8}
    (h : (Source.fill (attemptSize bound) session.source).1 = .ok buffer) :
    (randomBelowLoop bound (fuel + 1) : Draw σ PrimeError Nat).runIn session
      = if ofBuffer (bitLength bound) buffer < bound
        then (.ok (ofBuffer (bitLength bound) buffer), session.asked (attemptSize bound))
        else (randomBelowLoop bound fuel).runIn (session.asked (attemptSize bound)) := by
  rw [runIn_randomBelowLoop_succ, runIn_randomBits (bitLength_ne_zero hbound), ← attemptSize, h]
  rfl

/-- One turn where the request is refused. -/
theorem runIn_randomBelowLoop_of_refused {bound : Nat} (hbound : 0 < bound) (fuel : Nat)
    {session : Session σ} {cause : PrimeError}
    (h : (Source.fill (attemptSize bound) session.source).1 = .error cause) :
    (randomBelowLoop bound (fuel + 1) : Draw σ PrimeError Nat).runIn session
      = (.error (.error cause), session.asked (attemptSize bound)) := by
  rw [runIn_randomBelowLoop_succ, runIn_randomBits (bitLength_ne_zero hbound), ← attemptSize, h]
  rfl

theorem lt_of_randomBelowLoop {bound fuel v : Nat} {session session' : Session σ}
    (h : (randomBelowLoop bound fuel : Draw σ PrimeError Nat).runIn session = (.ok v, session')) :
    v < bound := by
  induction fuel generalizing session with
  | zero => simp [randomBelowLoop] at h
  | succ fuel ih =>
    rw [randomBelowLoop, Draw.runIn_bind_eq_ok] at h
    obtain ⟨candidate, mid, -, hrest⟩ := h
    split at hrest
    · next hlt =>
      rw [Draw.runIn_pure_eq_ok] at hrest
      rw [← hrest.1]
      exact hlt
    · exact ih hrest

theorem steady_randomBelowLoop (bound : Nat) :
    Steady (randomBelowLoop bound : Nat → Draw σ PrimeError Nat) := by
  -- Without fuel the loop has not ended; with some, it either ends in this turn or goes on with less.
  intro fuel
  induction fuel with
  | zero =>
    intro fuel' _ session hended
    exact absurd rfl hended
  | succ fuel ih =>
    intro fuel' hle session hended
    obtain ⟨fuel', rfl⟩ : ∃ k, fuel' = k + 1 := ⟨fuel' - 1, by omega⟩
    rw [runIn_randomBelowLoop_succ] at hended
    rw [runIn_randomBelowLoop_succ, runIn_randomBelowLoop_succ]
    rcases hfirst : (randomBits (bitLength bound) : Draw σ PrimeError Nat).runIn session
      with ⟨result, session'⟩
    rw [hfirst] at hended
    cases result with
    | error stop => rfl
    | ok v =>
      by_cases hv : v < bound
      · simp only [if_pos hv]
      · simp only [if_neg hv] at hended ⊢
        exact ih (by omega) session' hended

theorem faithful_randomBelowLoop (bound fuel : Nat) :
    Faithful (randomBelowLoop bound fuel : Draw σ PrimeError Nat) := by
  induction fuel with
  | zero => exact Draw.faithful_outOfFuel
  | succ fuel ih =>
    refine (faithful_randomBits _).bind fun candidate => ?_
    split
    · exact Draw.faithful_pure candidate
    · exact ih

/-! ## §3. Draws below a bound. -/

/-- Below a positive bound, a draw is its loop. -/
theorem randomBelow_of_pos {bound : Nat} (hbound : 0 < bound) :
    (fun fuel => (randomBelow fuel bound : Draw σ PrimeError Nat)) = randomBelowLoop bound := by
  funext fuel
  rw [randomBelow, if_neg (by omega)]

/-- **No number at or above the bound is ever drawn.** -/
theorem lt_of_randomBelow {fuel bound v : Nat} {session session' : Session σ}
    (h : (randomBelow fuel bound : Draw σ PrimeError Nat).runIn session = (.ok v, session')) :
    v < bound := by
  unfold randomBelow at h
  split at h
  · simp at h
  · exact lt_of_randomBelowLoop h

theorem steady_randomBelow (bound : Nat) :
    Steady fun fuel => (randomBelow fuel bound : Draw σ PrimeError Nat) := by
  unfold randomBelow
  split
  · exact Draw.steady_const _
  · exact steady_randomBelowLoop bound

theorem faithful_randomBelow {bound : Nat} (hbound : 0 < bound) (fuel : Nat) :
    Faithful (randomBelow fuel bound : Draw σ PrimeError Nat) := by
  rw [congrFun (randomBelow_of_pos hbound) fuel]
  exact faithful_randomBelowLoop bound fuel

/-! ## §4. Ends, turn by turn. -/

/-- A first number that falls below the bound is the answer. -/
theorem ends_randomBelow_of_accepted {bound : Nat} {session : Session σ} {buffer : List UInt8}
    (h : (Source.fill (attemptSize bound) session.source).1 = .ok buffer)
    (hlt : ofBuffer (bitLength bound) buffer < bound) :
    Ends (fun fuel => randomBelow fuel bound) session (.ok (ofBuffer (bitLength bound) buffer))
      (session.asked (attemptSize bound)) := by
  have hbound : 0 < bound := Nat.zero_lt_of_lt hlt
  rw [randomBelow_of_pos hbound]
  refine ⟨1, fun fuel hfuel => ?_⟩
  obtain ⟨fuel, rfl⟩ : ∃ k, fuel = k + 1 := ⟨fuel - 1, by omega⟩
  rw [runIn_randomBelowLoop_of_served hbound fuel h, if_pos hlt]
  rfl

/-- After a first number that is too large, the draw ends as it would have from there. -/
theorem ends_randomBelow_of_rejected {bound : Nat} (hbound : 0 < bound) {session : Session σ}
    {buffer : List UInt8}
    (h : (Source.fill (attemptSize bound) session.source).1 = .ok buffer)
    (hge : ¬ ofBuffer (bitLength bound) buffer < bound) {answer : Except PrimeError Nat}
    {session' : Session σ}
    (hends : Ends (fun fuel => randomBelow fuel bound)
      (session.asked (attemptSize bound)) answer session') :
    Ends (fun fuel => randomBelow fuel bound) session answer session' := by
  rw [randomBelow_of_pos hbound] at hends ⊢
  obtain ⟨least, hrun⟩ := hends
  refine ⟨least + 1, fun fuel hfuel => ?_⟩
  obtain ⟨fuel, rfl⟩ : ∃ k, fuel = k + 1 := ⟨fuel - 1, by omega⟩
  rw [runIn_randomBelowLoop_of_served hbound fuel h, if_neg hge, hrun fuel (by omega)]

end ProbablePrime
