/-
  ProbablePrime.Proofs.Draw.Past — draws that do not look back.

  A session carries what has happened in it: the requests that were metered and the events that were
  noted.  A draw adds to them and never reads them, so it goes the same way whatever has happened
  before, as long as the source is the same.

  Main results:
    * `Oblivious.bind` — a sequence of draws that do not look back does not look back;
    * `Oblivious.of_composed` — operations do not look back;
    * `Ends.behind` — what is known of a draw from the start of a session holds in every session.
-/
import ProbablePrime.Proofs.Draw.Composed
import ProbablePrime.Proofs.Draw.Ending

namespace ProbablePrime

open Entropy (Source)

variable {σ ε ε' α β : Type}

/-! ## §1. Sessions with a past. -/

/-- The session as it is with the requests and the events of another one in front of its own. -/
def Session.behind (session past : Session σ) : Session σ where
  source := session.source
  meter := ⟨past.meter.calls + session.meter.calls, past.meter.bytes + session.meter.bytes⟩
  events := past.events ++ session.events

/-- Every session is one that has just begun, with its own past. -/
theorem Session.start_behind (session : Session σ) :
    (Session.start session.source).behind session = session := by
  simp [behind, start]

namespace Draw

/-- The draw goes the same way whatever has happened before, and adds to it. -/
def Oblivious (draw : Draw σ ε α) : Prop :=
  ∀ session past : Session σ,
    draw.runIn (session.behind past)
      = ((draw.runIn session).1, (draw.runIn session).2.behind past)

/-! ## §2. Single steps and sequences. -/

theorem oblivious_pure (a : α) : Oblivious (pure a : Draw σ ε α) := fun _ _ => rfl

theorem oblivious_fail (cause : ε) : Oblivious (fail cause : Draw σ ε α) := fun _ _ => rfl

theorem oblivious_outOfFuel : Oblivious (outOfFuel : Draw σ ε α) := fun _ _ => rfl

theorem oblivious_note (event : Log.Event) : Oblivious (note event : Draw σ ε Unit) := by
  intro session past
  simp only [runIn_note, Session.noted, Session.behind, List.append_assoc]

theorem oblivious_bytes [Source σ] (count : Nat) :
    Oblivious (bytes count : Draw σ PrimeError (List UInt8)) := by
  intro session past
  simp only [runIn_bytes, Session.asked, Session.behind, Meter.add, Nat.add_assoc]

/-- **A sequence of draws that do not look back does not look back.** -/
theorem Oblivious.bind {draw : Draw σ ε α} {next : α → Draw σ ε β} (hdraw : Oblivious draw)
    (hnext : ∀ a, Oblivious (next a)) : Oblivious (draw >>= next) := by
  intro session past
  rcases hfirst : draw.runIn session with ⟨result, mid⟩
  have hfirst' : draw.runIn (session.behind past) = (result, mid.behind past) := by
    rw [hdraw session past, hfirst]
  cases result with
  | ok a => rw [runIn_bind_of_ok hfirst, runIn_bind_of_ok hfirst', hnext a mid past]
  | error stop => rw [runIn_bind_of_error hfirst, runIn_bind_of_error hfirst']

/-- **What is composed of single steps does not look back.** -/
theorem Oblivious.of_composed [Source σ] {draw : Draw σ PrimeError α} (h : Composed draw) :
    Oblivious draw := by
  induction h with
  | pure a => exact oblivious_pure a
  | fail cause => exact oblivious_fail cause
  | outOfFuel => exact oblivious_outOfFuel
  | note event => exact oblivious_note event
  | bytes count => exact oblivious_bytes count
  | bind _ _ hdraw hnext => exact hdraw.bind hnext

/-- A draw that ends at the start of a session ends in the same way in every session with the same
source. -/
theorem Ends.behind {draw : Nat → Draw σ ε α} {session session' : Session σ} {answer : Except ε α}
    (hdraw : ∀ fuel, Oblivious (draw fuel)) (h : Ends draw session answer session')
    (past : Session σ) : Ends draw (session.behind past) answer (session'.behind past) := by
  obtain ⟨least, hrun⟩ := h
  refine ⟨least, fun fuel hle => ?_⟩
  rw [hdraw fuel, hrun fuel hle]

theorem Endless.behind {draw : Nat → Draw σ ε α} {session : Session σ}
    (hdraw : ∀ fuel, Oblivious (draw fuel)) (h : Endless draw session) (past : Session σ) :
    Endless draw (session.behind past) := by
  intro fuel
  rw [hdraw fuel]
  exact h fuel

end Draw

end ProbablePrime
