/-
  ProbablePrime.Draw — computations that draw on a source of random bytes.

  A `Draw` runs in a session: the source, a meter of what was asked of it, and the events noted so
  far.  It ends with a value or it stops, and what happened before it stopped stays in the session.

  A search has no bound of its own, since a source may withhold what the search waits for.  Every
  loop of that kind therefore takes fuel, the number of turns it may make, and running out is a way
  to stop of its own, apart from the errors.
-/
import ProbablePrime.Entropy.Source
import ProbablePrime.Log.Event

namespace ProbablePrime

open Entropy (Source)

/-! ## §1. Sessions. -/

/-- What was asked of a source so far, served or not. -/
structure Meter where
  /-- The number of requests. -/
  calls : Nat
  /-- The number of bytes that the requests named. -/
  bytes : Nat
  deriving DecidableEq, Repr

/-- A request for `count` bytes, metered. -/
def Meter.add (count : Nat) (meter : Meter) : Meter := ⟨meter.calls + 1, meter.bytes + count⟩

/-- The state in which drawing goes on. -/
structure Session (σ : Type) where
  /-- The source of random bytes. -/
  source : σ
  /-- What was asked of the source. -/
  meter : Meter
  /-- The events, in the order in which they happened. -/
  events : List Log.Event
  deriving Repr

/-- The session in which nothing has happened yet. -/
def Session.start {σ : Type} (source : σ) : Session σ := ⟨source, ⟨0, 0⟩, []⟩

/-! ## §2. Draws. -/

/-- Why a draw ended without a value. -/
inductive Stop (ε : Type) where
  /-- It ran into an error. -/
  | error (cause : ε)
  /-- A loop used up its fuel. -/
  | outOfFuel
  deriving DecidableEq, Repr

/-- The same stop with its cause seen as another kind of error. -/
def Stop.map {ε ε' : Type} (f : ε → ε') : Stop ε → Stop ε'
  | .error cause => .error (f cause)
  | .outOfFuel => .outOfFuel

/-- A computation over a source `σ` that may stop with an error `ε`. -/
abbrev Draw (σ ε α : Type) := ExceptT (Stop ε) (StateM (Session σ)) α

namespace Draw

variable {σ ε ε' α : Type}

/-- Runs a draw in a session. -/
def runIn (draw : Draw σ ε α) (session : Session σ) : Except (Stop ε) α × Session σ :=
  draw.run.run session

/-- Stops with an error. -/
def fail (cause : ε) : Draw σ ε α := throw (.error cause)

/-- Stops because a loop has no turn left. -/
def outOfFuel : Draw σ ε α := throw .outOfFuel

/-- Goes on with the value of a computation that draws nothing, or stops with its error. -/
def ofExcept : Except ε α → Draw σ ε α
  | .ok a => pure a
  | .error cause => fail cause

/-- The same draw with its errors seen as another kind of error. -/
def widen (f : ε → ε') (draw : Draw σ ε α) : Draw σ ε' α :=
  draw.adapt (Stop.map f)

/-- Adds an event to the session. -/
def note (event : Log.Event) : Draw σ ε Unit :=
  modify fun session => { session with events := session.events ++ [event] }

/-- Asks the source for `count` bytes. -/
def bytes [Source σ] (count : Nat) : Draw σ PrimeError (List UInt8) := do
  let session ← get
  -- The request is metered whether or not it is served.
  let (answer, source) := Source.fill count session.source
  set { session with source, meter := session.meter.add count }
  ofExcept answer

end Draw

end ProbablePrime
