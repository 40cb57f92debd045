/-
  ProbablePrime.Proofs.Draw.Run — how a draw runs in a session, piece by piece.

  A request changes the session by `Session.asked` whatever the answer is.  A sequence of two draws
  runs the second where the first has ended with a value, and stops where the first stops.

  Main results:
    * `runIn_bytes` — a request answers what its source answers;
    * `runIn_note` — an event is added and nothing else changes;
    * `runIn_bind_eq_ok` and `runIn_bind_eq_error` — how a sequence can have ended;
    * `forall₂_of_runIn_mapM` — draws for a list yield a list of the same length and order.
-/
import Mathlib
import ProbablePrime.Draw

namespace ProbablePrime

open Entropy (Source)

variable {σ ε α β : Type}

/-! ## §1. Requests and events. -/

/-- The session after a request for `count` bytes. -/
def Session.asked [Source σ] (session : Session σ) (count : Nat) : Session σ :=
  { session with
    source := (Source.fill count session.source).2
    meter := session.meter.add count }

/-- The session after an event. -/
def Session.noted (session : Session σ) (event : Log.Event) : Session σ :=
  { session with events := session.events ++ [event] }

namespace Draw

/-! ## §2. Single steps. -/

@[simp] theorem runIn_pure (a : α) (session : Session σ) :
    (pure a : Draw σ ε α).runIn session = (.ok a, session) := rfl

theorem runIn_pure_eq_ok {a b : α} {session session' : Session σ} :
    (pure a : Draw σ ε α).runIn session = (.ok b, session') ↔ a = b ∧ session = session' := by
  rw [runIn_pure, Prod.mk.injEq, Except.ok.injEq]

@[simp] theorem runIn_fail (cause : ε) (session : Session σ) :
    (fail cause : Draw σ ε α).runIn session = (.error (.error cause), session) := rfl

@[simp] theorem runIn_outOfFuel (session : Session σ) :
    (outOfFuel : Draw σ ε α).runIn session = (.error .outOfFuel, session) := rfl

@[simp] theorem runIn_note (event : Log.Event) (session : Session σ) :
    (note event : Draw σ ε Unit).runIn session = (.ok (), session.noted event) := rfl

/-- A draw whose errors are seen as other errors runs as before. -/
theorem runIn_widen {ε' : Type} (f : ε → ε') (draw : Draw σ ε α) (session : Session σ) :
    (draw.widen f).runIn session
      = ((draw.runIn session).1.mapError (Stop.map f), (draw.runIn session).2) := by
  show (ExceptT.adapt (Stop.map f) draw).run.run session = _
  rw [ExceptT.adapt]
  rfl

/-- A request answers what the source answers, and the session goes on behind it. -/
theorem runIn_bytes [Source σ] (count : Nat) (session : Session σ) :
    (bytes count : Draw σ PrimeError (List UInt8)).runIn session
      = ((Source.fill count session.source).1.mapError Stop.error, session.asked count) := by
  show (ofExcept (Source.fill count session.source).1).runIn (session.asked count) = _
  cases (Source.fill count session.source).1 with
  | ok buffer => rfl
  | error cause => rfl

/-! ## §3. Sequences. -/

theorem runIn_bind (draw : Draw σ ε α) (next : α → Draw σ ε β) (session : Session σ) :
    (draw >>= next).runIn session
      = match draw.runIn session with
        | (.ok a, session') => (next a).runIn session'
        | (.error stop, session') => (.error stop, session') := by
  unfold runIn
  rw [ExceptT.run_bind, StateT.run_bind]
  rcases StateT.run (ExceptT.run draw) session with ⟨result, session'⟩
  cases result with
  | ok a => rfl
  | error stop => rfl

theorem runIn_bind_of_ok {draw : Draw σ ε α} {session session' : Session σ} {a : α}
    (h : draw.runIn session = (.ok a, session')) (next : α → Draw σ ε β) :
    (draw >>= next).runIn session = (next a).runIn session' := by
  rw [runIn_bind, h]

theorem runIn_bind_of_error {draw : Draw σ ε α} {session session' : Session σ} {stop : Stop ε}
    (h : draw.runIn session = (.error stop, session')) (next : α → Draw σ ε β) :
    (draw >>= next).runIn session = (.error stop, session') := by
  rw [runIn_bind, h]

/-- A stop is handled in the session in which it happened. -/
theorem runIn_tryCatch (draw : Draw σ ε α) (handle : Stop ε → Draw σ ε α) (session : Session σ) :
    (tryCatch draw handle).runIn session
      = match draw.runIn session with
        | (.ok a, session') => (.ok a, session')
        | (.error stop, session') => (handle stop).runIn session' := by
  unfold runIn
  rw [ExceptT.run_tryCatch, StateT.run_bind]
  rcases StateT.run (ExceptT.run draw) session with ⟨result, session'⟩
  cases result with
  | ok a => rfl
  | error stop => rfl

/-- What comes after a failure does not happen. -/
theorem fail_bind (cause : ε) (next : α → Draw σ ε β) :
    (fail cause : Draw σ ε α) >>= next = fail cause := rfl

/-- The errors of a sequence are seen as others part by part. -/
theorem widen_bind {ε' : Type} (f : ε → ε') (draw : Draw σ ε α) (next : α → Draw σ ε β) :
    (draw >>= next).widen f = draw.widen f >>= fun a => (next a).widen f := by
  funext session
  show ((draw >>= next).widen f).runIn session
    = (draw.widen f >>= fun a => (next a).widen f).runIn session
  rw [runIn_widen, runIn_bind, runIn_bind, runIn_widen]
  rcases draw.runIn session with ⟨result, session'⟩
  cases result with
  | ok a => exact (runIn_widen f (next a) session').symm
  | error stop => rfl

/-- A sequence that ends with a value has drawn a first value and gone on from there. -/
theorem runIn_bind_eq_ok {draw : Draw σ ε α} {next : α → Draw σ ε β}
    {session session'' : Session σ} {b : β} :
    (draw >>= next).runIn session = (.ok b, session'')
      ↔ ∃ a session', draw.runIn session = (.ok a, session')
          ∧ (next a).runIn session' = (.ok b, session'') := by
  rw [runIn_bind]
  obtain ⟨result, session'⟩ := draw.runIn session
  cases result with
  | ok a => simp
  | error stop => simp

/-- A sequence that stops has stopped in its first part or, after a value, in its second. -/
theorem runIn_bind_eq_error {draw : Draw σ ε α} {next : α → Draw σ ε β}
    {session session'' : Session σ} {stop : Stop ε} :
    (draw >>= next).runIn session = (.error stop, session'')
      ↔ draw.runIn session = (.error stop, session'')
        ∨ ∃ a session', draw.runIn session = (.ok a, session')
          ∧ (next a).runIn session' = (.error stop, session'') := by
  rw [runIn_bind]
  obtain ⟨result, session'⟩ := draw.runIn session
  cases result with
  | ok a => simp
  | error stop' => simp

/-- Draws for the elements of a list that all end with values yield one value for each element, in
the same order. -/
theorem forall₂_of_runIn_mapM {f : α → Draw σ ε β} {as : List α} {bs : List β}
    {session session' : Session σ} (h : (as.mapM f).runIn session = (.ok bs, session')) :
    List.Forall₂ (fun a b => ∃ before after, (f a).runIn before = (.ok b, after)) as bs := by
  induction as generalizing session session' bs with
  | nil =>
    rw [List.mapM_nil, runIn_pure_eq_ok] at h
    rw [← h.1]
    exact .nil
  | cons a as ih =>
    rw [List.mapM_cons] at h
    obtain ⟨b, mid, hfirst, h⟩ := runIn_bind_eq_ok.1 h
    obtain ⟨rest, last, hrest, h⟩ := runIn_bind_eq_ok.1 h
    rw [runIn_pure_eq_ok] at h
    rw [← h.1]
    exact .cons ⟨session, mid, hfirst⟩ (ih hrest)

/-- A computation that draws nothing ends with its value. -/
theorem runIn_ofExcept_eq_ok {value : Except ε α} {a : α} {session session' : Session σ} :
    (ofExcept value).runIn session = (.ok a, session') ↔ value = .ok a ∧ session = session' := by
  cases value with
  | ok b => rw [ofExcept, runIn_pure_eq_ok, Except.ok.injEq]
  | error cause => simp [ofExcept]

/-- A draw whose errors are seen as others ends with a value where it did before. -/
theorem runIn_widen_eq_ok {ε' : Type} {f : ε → ε'} {draw : Draw σ ε α} {a : α}
    {session session' : Session σ} :
    (draw.widen f).runIn session = (.ok a, session') ↔ draw.runIn session = (.ok a, session') := by
  rw [runIn_widen]
  rcases draw.runIn session with ⟨result, after⟩
  cases result with
  | ok b => simp [Except.mapError]
  | error stop => simp [Except.mapError]

/-- It ends with an error where it did before, and the error is the former one seen as another. -/
theorem runIn_widen_eq_error {ε' : Type} {f : ε → ε'} {draw : Draw σ ε α} {cause : ε'}
    {session session' : Session σ} :
    (draw.widen f).runIn session = (.error (.error cause), session')
      ↔ ∃ inner, f inner = cause ∧ draw.runIn session = (.error (.error inner), session') := by
  rw [runIn_widen]
  rcases draw.runIn session with ⟨result, after⟩
  match result with
  | .ok a => simp [Except.mapError]
  | .error (.error inner) => simp [Except.mapError, Stop.map]
  | .error .outOfFuel => simp [Except.mapError, Stop.map]

end Draw

end ProbablePrime
