/-
  ProbablePrime.Proofs.Draw.Refusal — draws that fail only where their source does.

  A source moves from state to state by serving requests until it refuses one.  A draw is faithful
  when an error it stops with is the cause of such a refusal and nothing was asked after it; the
  draw invents no errors and hides none.

  Main results:
    * `Faithful.bind` — a sequence of faithful draws is faithful;
    * `faithful_bytes` — a single request is.
-/
import ProbablePrime.Proofs.Draw.Run

namespace ProbablePrime

/-! ## §1. What a source goes through. -/

namespace Entropy.Source

variable {σ : Type} [Source σ]

/-- A source in the state `before` serves a request and is then in the state `after`. -/
def Serves (before after : σ) : Prop :=
  ∃ count buffer, Source.fill count before = (.ok buffer, after)

/-- A source comes from the state `before` to the state `after` by serving requests. -/
def Reaches (before after : σ) : Prop := Relation.ReflTransGen Serves before after

/-- A source that was in the state `start` serves requests, then refuses one for the given cause,
and is left in the state `after`. -/
def Refuses (start : σ) (cause : PrimeError) (after : σ) : Prop :=
  ∃ before count, Reaches start before ∧ Source.fill count before = (.error cause, after)

theorem Reaches.refl (s : σ) : Reaches s s := Relation.ReflTransGen.refl

theorem Reaches.trans {s s' s'' : σ} (h : Reaches s s') (h' : Reaches s' s'') : Reaches s s'' :=
  Relation.ReflTransGen.trans h h'

theorem Reaches.refuses {start mid after : σ} {cause : PrimeError} (h : Reaches start mid)
    (h' : Refuses mid cause after) : Refuses start cause after := by
  obtain ⟨before, count, hreach, hfill⟩ := h'
  exact ⟨before, count, h.trans hreach, hfill⟩

/-- A source that never refuses a request. -/
def NeverRefuses (start : σ) : Prop := ∀ cause after, ¬ Refuses start cause after

/-- A source whose states all serve all requests never refuses one. -/
theorem NeverRefuses.of_fill (h : ∀ count (s : σ), ∃ buffer, (Source.fill count s).1 = .ok buffer)
    (start : σ) : NeverRefuses start := by
  intro cause after hrefuse
  obtain ⟨before, count, -, hfill⟩ := hrefuse
  obtain ⟨buffer, hserved⟩ := h count before
  rw [hfill] at hserved
  cases hserved

end Entropy.Source

/-! ## §2. Faithful draws. -/

open Entropy (Source)
open Entropy.Source (Reaches Refuses)

namespace Draw

variable {σ α β : Type} [Source σ]

/-- A draw that stops with an error only when its source refuses a request, with the cause of the
refusal and at once. -/
structure Faithful (draw : Draw σ PrimeError α) : Prop where
  /-- A value is reached by requests that were all served. -/
  reaches_of_ok : ∀ {session session' : Session σ} {a : α},
    draw.runIn session = (.ok a, session') → Reaches session.source session'.source
  /-- An error is the cause of the first refusal. -/
  refuses_of_error : ∀ {session session' : Session σ} {cause : PrimeError},
    draw.runIn session = (.error (.error cause), session') →
      Refuses session.source cause session'.source

theorem faithful_pure (a : α) : Faithful (pure a : Draw σ PrimeError α) where
  reaches_of_ok h := by
    rw [runIn_pure_eq_ok] at h
    rw [← h.2]
    exact Reaches.refl _
  refuses_of_error h := by
    simp at h

theorem faithful_outOfFuel : Faithful (outOfFuel : Draw σ PrimeError α) where
  reaches_of_ok h := by simp at h
  refuses_of_error h := by simp at h

/-- A request ends as its source answers it. -/
theorem faithful_bytes (count : Nat) :
    Faithful (bytes count : Draw σ PrimeError (List UInt8)) where
  reaches_of_ok {session session' buffer} h := by
    rw [runIn_bytes] at h
    rcases hfill : Source.fill count session.source with ⟨answer, after⟩
    cases answer with
    | error cause => simp [hfill, Except.mapError] at h
    | ok buffer' =>
      obtain ⟨-, rfl⟩ := Prod.mk.inj h
      refine Relation.ReflTransGen.single ⟨count, buffer', ?_⟩
      rw [hfill, Session.asked, hfill]
  refuses_of_error {session session' cause} h := by
    rw [runIn_bytes] at h
    rcases hfill : Source.fill count session.source with ⟨answer, after⟩
    cases answer with
    | ok buffer => simp [hfill, Except.mapError] at h
    | error cause' =>
      obtain ⟨hcause, rfl⟩ := Prod.mk.inj h
      refine ⟨session.source, count, Reaches.refl _, ?_⟩
      obtain rfl : cause' = cause := by simpa [hfill, Except.mapError] using hcause
      rw [hfill, Session.asked, hfill]

/-- A sequence of faithful draws is faithful. -/
theorem Faithful.bind {draw : Draw σ PrimeError α} {next : α → Draw σ PrimeError β}
    (hdraw : Faithful draw) (hnext : ∀ a, Faithful (next a)) : Faithful (draw >>= next) where
  reaches_of_ok h := by
    obtain ⟨a, session', hfirst, hsecond⟩ := runIn_bind_eq_ok.1 h
    exact (hdraw.reaches_of_ok hfirst).trans ((hnext a).reaches_of_ok hsecond)
  refuses_of_error h := by
    rcases runIn_bind_eq_error.1 h with hfirst | ⟨a, session', hfirst, hsecond⟩
    · exact hdraw.refuses_of_error hfirst
    · exact (hdraw.reaches_of_ok hfirst).refuses ((hnext a).refuses_of_error hsecond)

end Draw

end ProbablePrime
