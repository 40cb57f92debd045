/-
  ProbablePrime.Proofs.Primality.Rounds — the rounds of a check and the witnesses they draw.

  `drawWitnesses` makes the draws of the rounds and tests nothing.  Where it yields a list, the rounds
  accept exactly when every witness of the list is passed: that they stop at the first witness that
  is not passed saves draws and changes no answer.

  Main results:
    * `passesRounds_of_drawWitnesses` — the rounds answer what the drawn witnesses decide;
    * `passesRounds_ne_false_of_prime` — no stream of witnesses makes the rounds reject a prime;
    * `endless_passesRounds_iff` — rounds without end are stuck in the draw of one witness.
-/
import ProbablePrime.Proofs.Primality.StrongTest
import ProbablePrime.Proofs.Sampling.Below

namespace ProbablePrime.Primality

open Entropy (Source)
open Entropy.Source (Reaches)
open Draw (Ends Endless Steady Faithful)

variable {σ : Type} [Source σ]

/-! ## §1. The witnesses. -/

/-- The witnesses of `rounds` rounds, drawn one after the other from `2` to `n - 2`. -/
def drawWitnesses (fuel n : Nat) : (rounds : Nat) → Draw σ PrimeError (List Nat)
  | 0 => pure []
  | rounds + 1 => do
    let a ← randomBelow fuel (n - 3)
    return (a + 2) :: (← drawWitnesses fuel n rounds)

/-- Drawing one more witness draws it first. -/
theorem runIn_drawWitnesses_succ_eq_ok {fuel n rounds : Nat} {session session'' : Session σ}
    {as : List Nat} :
    (drawWitnesses fuel n (rounds + 1)).runIn session = (.ok as, session'')
      ↔ ∃ a session' rest, (randomBelow fuel (n - 3)).runIn session = (.ok a, session')
          ∧ (drawWitnesses fuel n rounds).runIn session' = (.ok rest, session'')
          ∧ as = (a + 2) :: rest := by
  rw [drawWitnesses, Draw.runIn_bind_eq_ok]
  constructor
  · intro h
    obtain ⟨a, session', hdraw, hrest⟩ := h
    obtain ⟨rest, mid, hmore, hpure⟩ := Draw.runIn_bind_eq_ok.1 hrest
    rw [Draw.runIn_pure_eq_ok] at hpure
    obtain ⟨rfl, rfl⟩ := hpure
    exact ⟨a, session', rest, hdraw, hmore, rfl⟩
  · intro h
    obtain ⟨a, session', rest, hdraw, hmore, rfl⟩ := h
    refine ⟨a, session', hdraw, ?_⟩
    rw [Draw.runIn_bind_of_ok hmore, Draw.runIn_pure]

/-- One round: draw a witness, then stop at it or go on. -/
theorem runIn_passesRounds_succ (fuel n rounds : Nat) (parts : Decomposition)
    {session session' : Session σ} {a : Nat}
    (h : (randomBelow fuel (n - 3)).runIn session = (.ok a, session')) :
    (passesRounds fuel n parts (rounds + 1)).runIn session
      = if passesWitness n parts (a + 2) then (passesRounds fuel n parts rounds).runIn session'
        else (.ok false, session') := by
  rw [passesRounds, Draw.runIn_bind_of_ok h]
  split
  · rfl
  · rfl

/-- **The rounds answer what the drawn witnesses decide.** -/
theorem passesRounds_of_drawWitnesses {fuel n rounds : Nat} (parts : Decomposition)
    {session session' : Session σ} {as : List Nat}
    (h : (drawWitnesses fuel n rounds).runIn session = (.ok as, session')) :
    ((passesRounds fuel n parts rounds).runIn session).1
      = .ok (as.all (passesWitness n parts)) := by
  induction rounds generalizing session as with
  | zero =>
    rw [drawWitnesses, Draw.runIn_pure_eq_ok] at h
    rw [← h.1]
    rfl
  | succ rounds ih =>
    obtain ⟨a, mid, rest, hdraw, hmore, rfl⟩ := runIn_drawWitnesses_succ_eq_ok.1 h
    rw [runIn_passesRounds_succ fuel n rounds parts hdraw, List.all_cons]
    by_cases hpass : passesWitness n parts (a + 2) = true
    · rw [if_pos hpass, ih hmore, hpass, Bool.true_and]
    · rw [if_neg hpass, Bool.eq_false_iff.2 hpass, Bool.false_and]

/-! ## §2. Fuel and refusals. -/

theorem steady_passesRounds (n : Nat) (parts : Decomposition) (rounds : Nat) :
    Steady fun fuel => (passesRounds fuel n parts rounds : Draw σ PrimeError Bool) := by
  induction rounds with
  | zero => exact Draw.steady_const _
  | succ rounds ih =>
    unfold passesRounds
    refine (steady_randomBelow (n - 3)).bind fun a => ?_
    split
    · exact ih
    · exact Draw.steady_const _

theorem faithful_passesRounds {n : Nat} (hn : 3 < n) (parts : Decomposition) (fuel rounds : Nat) :
    Faithful (passesRounds fuel n parts rounds : Draw σ PrimeError Bool) := by
  induction rounds with
  | zero => exact Draw.faithful_pure true
  | succ rounds ih =>
    refine (faithful_randomBelow (by omega) fuel).bind fun a => ?_
    split
    · exact ih
    · exact Draw.faithful_pure false

/-- Rounds that begin in one session draw a witness in another: the witnesses in front of it are drawn
and passed. -/
inductive DrawsIn (n : Nat) (parts : Decomposition) :
    (rounds : Nat) → (session drawing : Session σ) → Prop
  /-- The first witness is drawn at once. -/
  | first {rounds : Nat} {session : Session σ} : DrawsIn n parts (rounds + 1) session session
  /-- Behind a witness that is passed come the rounds that are left. -/
  | later {rounds a : Nat} {session mid drawing : Session σ} :
      Ends (fun fuel => randomBelow fuel (n - 3)) session (.ok a) mid →
      passesWitness n parts (a + 2) = true → DrawsIn n parts rounds mid drawing →
      DrawsIn n parts (rounds + 1) session drawing

theorem DrawsIn.reaches {n rounds : Nat} (hn : 3 < n) {parts : Decomposition}
    {session drawing : Session σ} (h : DrawsIn n parts rounds session drawing) :
    Reaches session.source drawing.source := by
  induction h with
  | first => exact Reaches.refl _
  | later hdraw _ _ ih =>
    obtain ⟨least, hrun⟩ := hdraw
    exact ((faithful_randomBelow (by omega) least).reaches_of_ok (hrun least le_rfl)).trans ih

/-- **Rounds that go on for ever are stuck in the draw of one witness**, and only these go on for
ever. -/
theorem endless_passesRounds_iff {n : Nat} {parts : Decomposition} {rounds : Nat}
    {session : Session σ} :
    Endless (fun fuel => passesRounds fuel n parts rounds) session
      ↔ ∃ drawing, DrawsIn n parts rounds session drawing
        ∧ Endless (fun fuel => randomBelow fuel (n - 3)) drawing := by
  induction rounds generalizing session with
  | zero =>
    constructor
    · intro h
      exact absurd (h 0) (by simp [passesRounds])
    · rintro ⟨drawing, hin, -⟩
      cases hin
  | succ rounds ih =>
    have hsteady (a : Nat) : Steady fun fuel =>
        if passesWitness n parts (a + 2) then passesRounds fuel n parts rounds
        else (return false : Draw σ PrimeError Bool) := by
      split
      · exact steady_passesRounds n parts rounds
      · exact Draw.steady_const _
    unfold passesRounds
    rw [Draw.endless_bind_iff (steady_randomBelow (n - 3)) hsteady]
    constructor
    · rintro (hdraw | ⟨a, mid, hdraw, hrest⟩)
      · exact ⟨session, .first, hdraw⟩
      · split at hrest
        · next hpass =>
          obtain ⟨drawing, hin, hendless⟩ := ih.1 hrest
          exact ⟨drawing, .later hdraw hpass hin, hendless⟩
        · exact absurd (hrest 0) (by simp)
    · rintro ⟨drawing, hin, hendless⟩
      cases hin with
      | first => exact Or.inl hendless
      | later hdraw hpass hin =>
        refine Or.inr ⟨_, _, hdraw, ?_⟩
        simp only [hpass, if_true]
        exact ih.2 ⟨drawing, hin, hendless⟩

/-! ## §3. Primes. -/

/-- **No stream of witnesses makes the rounds reject a prime.** -/
theorem passesRounds_ne_false_of_prime {n : Nat} (hn : n.Prime) (hlarge : 3 < n)
    {parts : Decomposition} (hparts : Decomposition.Of n parts) {fuel rounds : Nat}
    {session session' : Session σ} :
    (passesRounds fuel n parts rounds).runIn session ≠ (.ok false, session') := by
  have hodd : n % 2 = 1 := hn.mod_two_eq_one_iff_ne_two.2 (by omega)
  induction rounds generalizing session with
  | zero => simp [passesRounds]
  | succ rounds ih =>
    intro h
    rw [passesRounds, Draw.runIn_bind_eq_ok] at h
    obtain ⟨a, mid, hdraw, hrest⟩ := h
    -- The witness `a + 2` lies strictly between one and the prime, which does not divide it then.
    have hlt : a < n - 3 := lt_of_randomBelow hdraw
    have hpass : passesWitness n parts (a + 2) = true := by
      rw [passesWitness_iff (by omega) (hparts.s_pos hodd)]
      refine StrongProbablePrime.of_prime hn hparts fun hdvd => ?_
      have := Nat.le_of_dvd (by omega) hdvd
      omega
    rw [if_pos hpass] at hrest
    exact ih hrest

end ProbablePrime.Primality
