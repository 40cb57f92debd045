/-
  ProbablePrime.Proofs.Primality.Guarded — the check with its arithmetic guarded.

  A difference needs a number that is large enough, a remainder a divisor that is not zero, a power a
  modulus of two at least, and a draw a span with a number in it.  The rounds are made for odd numbers
  above the limit of trial division.  `Guarded.check` is the check that looks at each of these
  conditions wherever it comes to the operation, and stops where one does not hold.

  It never stops there: it is the same program as `Primality.check`, for every number and every number
  of rounds.  All that the library computes of a number it asks of this check, so no caller can bring
  a number that is not provided for.

  Main results:
    * `hasFactorIn_smallPrimes`, `passesWitness_eq` and `passesRounds_eq` — the parts of the check;
    * `check_eq` — the check.
-/
import ProbablePrime.Proofs.Primality.Verdict

namespace ProbablePrime.Primality.Guarded

open Entropy (Source)

/-! ## §1. Guarded operations. -/

/-- What arithmetic cannot do. -/
inductive Trap where
  /-- The difference of `n` and a larger `k`. -/
  | belowZero (n k : Nat)
  /-- The remainder of `n` by zero. -/
  | byZero (n : Nat)
  /-- A power by a modulus below two. -/
  | noModulus (modulus : Nat)
  /-- A draw from no number. -/
  | emptySpan
  /-- Rounds for a number that is even, or small enough to be looked up. -/
  | unfit (n : Nat)
  deriving DecidableEq, Repr

/-- The difference of `n` and `k`. -/
def minus (n k : Nat) : Except Trap Nat :=
  if k ≤ n then .ok (n - k) else .error (.belowZero n k)

/-- The remainder of `n` by `m`. -/
def remainder (n m : Nat) : Except Trap Nat := if 0 < m then .ok (n % m) else .error (.byZero n)

/-- The remainder of `base ^ exponent` by `modulus`. -/
def powMod (base exponent modulus : Nat) : Except Trap Nat :=
  if 2 ≤ modulus then .ok (Number.powMod base exponent modulus) else .error (.noModulus modulus)

/-- A number that is fit for the rounds. -/
def demand (n : Nat) : Except Trap Unit :=
  if n % 2 = 1 ∧ trialLimit < n then .ok () else .error (.unfit n)

theorem minus_of_le {n k : Nat} (h : k ≤ n) : minus n k = .ok (n - k) := if_pos h

theorem remainder_of_pos {m : Nat} (n : Nat) (h : 0 < m) : remainder n m = .ok (n % m) := if_pos h

theorem powMod_of_two_le {modulus : Nat} (base exponent : Nat) (h : 2 ≤ modulus) :
    powMod base exponent modulus = .ok (Number.powMod base exponent modulus) := if_pos h

theorem demand_of_fit {n : Nat} (hodd : n % 2 = 1) (hlarge : trialLimit < n) :
    demand n = .ok () := if_pos ⟨hodd, hlarge⟩

/-! ## §2. What is computed of a number. -/

/-- The decomposition of `n`. -/
def decompose (n : Nat) : Except Trap (Option Decomposition) :=
  if n < 2 then
    return none
  else do
    let top ← minus n 1
    return some ⟨oddPart top, twos top⟩

/-- Whether a number of the table other than `n` divides `n`. -/
def hasFactorIn (n : Nat) : (table : List Nat) → Except Trap Bool
  | [] => return false
  | p :: table => do
    if n = p then
      hasFactorIn n table
    else if (← remainder n p) = 0 then
      return true
    else
      hasFactorIn n table

/-- Squares `x` modulo `n` up to `k` times in search of `top`. -/
def reachesTop (n top : Nat) : (k x : Nat) → Except Trap Bool
  | 0, _ => return false
  | k + 1, x => do
    let square ← remainder (x * x) n
    if square = top then return true
    else if square = 1 then return false
    else reachesTop n top k square

/-- Whether `n`, whose predecessor is `top`, behaves like a prime for the witness `a`. -/
def passesWitness (n top : Nat) (parts : Decomposition) (a : Nat) : Except Trap Bool := do
  let x ← powMod a parts.d n
  if x = 1 ∨ x = top then return true else reachesTop n top (parts.s - 1) x

theorem decompose_eq (n : Nat) : decompose n = .ok (Primality.decompose n) := by
  unfold decompose Primality.decompose
  by_cases hsmall : n < 2
  · rw [if_pos hsmall, if_pos hsmall]
    rfl
  · rw [if_neg hsmall, if_neg hsmall, minus_of_le (by omega)]
    rfl

theorem hasFactorIn_of_pos {table : List Nat} (n : Nat) (h : ∀ p ∈ table, 0 < p) :
    hasFactorIn n table = .ok (table.any fun p => n != p && n % p == 0) := by
  induction table with
  | nil => rfl
  | cons p table ih =>
    have hrest := ih fun q hq => h q (List.mem_cons_of_mem p hq)
    rw [hasFactorIn, List.any_cons]
    by_cases heq : n = p
    · rw [if_pos heq, hrest, heq, bne_self_eq_false, Bool.false_and, Bool.false_or]
    · rw [if_neg heq, remainder_of_pos n (h p List.mem_cons_self), bne_iff_ne.2 heq]
      by_cases hzero : n % p = 0
      · simp [hzero, bind, Except.bind, pure, Except.pure]
      · simp [hzero, hrest, bind, Except.bind]

/-- **No remainder by zero is met in trial division.** -/
theorem hasFactorIn_smallPrimes (n : Nat) :
    hasFactorIn n smallPrimes = .ok (hasSmallFactor n) := by
  refine hasFactorIn_of_pos n fun p hp => ?_
  exact (mem_smallPrimes.1 hp).2.pos

theorem reachesTop_eq {n : Nat} (hn : 0 < n) (k x : Nat) :
    reachesTop n (n - 1) k x = .ok (reachesMinusOne n k x) := by
  induction k generalizing x with
  | zero => rfl
  | succ k ih =>
    rw [reachesTop, remainder_of_pos (x * x) hn]
    show (if x * x % n = n - 1 then .ok true
      else if x * x % n = 1 then .ok false else reachesTop n (n - 1) k (x * x % n)) = _
    rw [ih, reachesMinusOne]
    split
    · rfl
    · split
      · rfl
      · rfl

/-- **A witness is tested with a modulus of two at least.** -/
theorem passesWitness_eq {n : Nat} (hn : 2 ≤ n) (parts : Decomposition) (a : Nat) :
    passesWitness n (n - 1) parts a = .ok (Primality.passesWitness n parts a) := by
  rw [passesWitness, powMod_of_two_le a parts.d hn]
  show (if Number.powMod a parts.d n = 1 ∨ Number.powMod a parts.d n = n - 1 then .ok true
    else reachesTop n (n - 1) (parts.s - 1) (Number.powMod a parts.d n)) = _
  rw [reachesTop_eq (by omega), Primality.passesWitness]
  by_cases hone : Number.powMod a parts.d n = 1
  · simp [hone]
  · by_cases htop : Number.powMod a parts.d n = n - 1
    · simp [htop]
    · simp [hone, htop]

/-! ## §3. The guarded check. -/

/-- Why a guarded check ended without a verdict. -/
inductive Fault where
  /-- A condition did not hold. -/
  | trap (trap : Trap)
  /-- An error, as it is reported. -/
  | prime (cause : PrimeError)
  deriving DecidableEq, Repr

variable {σ α : Type}

/-- Goes on with what was computed. -/
def lift (value : Except Trap α) : Draw σ Fault α := Draw.ofExcept (value.mapError .trap)

theorem lift_ok (a : α) : (lift (.ok a) : Draw σ Fault α) = pure a := rfl

variable [Source σ]

/-- A number below `span`. -/
def draw (fuel span : Nat) : Draw σ Fault Nat :=
  if 1 ≤ span then (randomBelow fuel span).widen .prime else Draw.fail (.trap .emptySpan)

/-- Whether `n` passes `rounds` witnesses, each of them two more than a number below `span`. -/
def passesDrawn (fuel n top span : Nat) (parts : Decomposition) :
    (rounds : Nat) → Draw σ Fault Bool
  | 0 => pure true
  | rounds + 1 => do
    let a ← draw fuel span
    if ← lift (passesWitness n top parts (a + 2)) then passesDrawn fuel n top span parts rounds
    else return false

/-- Whether `n` passes `rounds` witnesses. -/
def passesRounds (fuel n : Nat) (parts : Decomposition) (rounds : Nat) : Draw σ Fault Bool := do
  lift (demand n)
  let top ← lift (minus n 1)
  let span ← lift (minus n 3)
  passesDrawn fuel n top span parts rounds

/-- Classifies `n` with `rounds` rounds. -/
def check (fuel rounds n : Nat) : Draw σ Fault Verdict :=
  if rounds = 0 then
    Draw.fail (.prime .zeroRounds)
  else do
    match ← lift (decompose n) with
    | none => return ⟨false, none⟩
    | some parts =>
      if n < trialLimit then
        return ⟨smallPrimes.contains n, some parts⟩
      else if ← lift (hasFactorIn n smallPrimes) then
        return ⟨false, some parts⟩
      else
        return ⟨← passesRounds fuel n parts rounds, some parts⟩

/-! ## §4. It is the check. -/

theorem draw_of_pos {span : Nat} (fuel : Nat) (h : 1 ≤ span) :
    (draw fuel span : Draw σ Fault Nat) = (randomBelow fuel span).widen .prime := if_pos h

theorem passesDrawn_eq {n : Nat} (hn : 3 < n) (fuel : Nat) (parts : Decomposition) (rounds : Nat) :
    (passesDrawn fuel n (n - 1) (n - 3) parts rounds : Draw σ Fault Bool)
      = (Primality.passesRounds fuel n parts rounds).widen .prime := by
  induction rounds with
  | zero => rfl
  | succ rounds ih =>
    rw [passesDrawn, Primality.passesRounds, Draw.widen_bind, draw_of_pos fuel (by omega)]
    refine bind_congr fun a => ?_
    rw [passesWitness_eq (by omega), lift_ok, pure_bind]
    split
    · exact ih
    · rfl

/-- A number that trial division does not settle is fit for the rounds. -/
theorem fit_of_not_settled {n : Nat} (hn : ¬ Settled n) : n % 2 = 1 ∧ trialLimit < n := by
  rw [settled_iff, not_or, not_exists] at hn
  have hodd : ¬ 2 ∣ n := fun hdvd => hn.2 2 ⟨Nat.prime_two, by decide, hdvd⟩
  have hlimit := hn.1
  rw [trialLimit] at hlimit ⊢
  omega

/-- **The rounds are made for numbers that are fit for them.** -/
theorem passesRounds_eq {n : Nat} (hn : ¬ Settled n) (fuel : Nat) (parts : Decomposition)
    (rounds : Nat) :
    (passesRounds fuel n parts rounds : Draw σ Fault Bool)
      = (Primality.passesRounds fuel n parts rounds).widen .prime := by
  obtain ⟨hodd, hlarge⟩ := fit_of_not_settled hn
  have hthree : 3 < n := three_lt_of_not_settled hn
  unfold passesRounds
  rw [demand_of_fit hodd hlarge, minus_of_le (by omega), minus_of_le (by omega)]
  simp only [lift_ok, pure_bind]
  exact passesDrawn_eq hthree fuel parts rounds

/-- **No operation of a check is met where it is not defined.** -/
theorem check_eq (fuel rounds n : Nat) :
    (check fuel rounds n : Draw σ Fault Verdict) = (Primality.check fuel rounds n).widen .prime := by
  unfold check Primality.check
  by_cases hrounds : rounds = 0
  · rw [if_pos hrounds, if_pos hrounds]
    rfl
  · rw [if_neg hrounds, if_neg hrounds, decompose_eq, lift_ok, pure_bind]
    cases Primality.decompose n with
    | none => rfl
    | some parts =>
      dsimp only
      by_cases hsmall : n < trialLimit
      · rw [if_pos hsmall, if_pos hsmall]
        rfl
      · rw [if_neg hsmall, if_neg hsmall, hasFactorIn_smallPrimes, lift_ok, pure_bind]
        by_cases hfactor : hasSmallFactor n = true
        · rw [if_pos hfactor, if_pos hfactor]
          rfl
        · have hn : ¬ Settled n := not_or.2 ⟨hsmall, hfactor⟩
          rw [if_neg hfactor, if_neg hfactor, passesRounds_eq hn, Draw.widen_bind]
          rfl

end ProbablePrime.Primality.Guarded
