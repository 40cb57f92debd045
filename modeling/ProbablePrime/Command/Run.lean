/-
  ProbablePrime.Command.Run — runs of the program.

  A run reads its filter first.  Then it draws all that it needs and decides how it ends: with a
  text to print, or with a text to save.  Nothing is printed or saved before that, so a run that
  fails leaves no trace but its error and its events.

  With a seed a run draws from the stream of the seed, which serves every request.  Without one it
  draws from a source that the system provides, and of that nothing is known: it may give any bytes,
  and it may refuse a request.
-/
import ProbablePrime.Command.Options
import ProbablePrime.Entropy.KeyStream
import ProbablePrime.Log.Filter
import ProbablePrime.Sample.Report
import ProbablePrime.Vectors.Encoding

namespace ProbablePrime.Command

open Entropy (KeyStream Source)
open Vectors (Inputs TestVectors VectorError)

/-! ## §1. Events of a run. -/

/-- Where the events of a run come from. -/
def target : String := "primegen"

/-- The run can be repeated by everyone who knows the seed. -/
def seeded (seed : Nat) : Log.Event :=
  ⟨.warn, target, s!"Using seeded RNG ({seed}) - output is reproducible, not secret"⟩

/-- A sample is going to be drawn. -/
def generating (bits : Nat) : Log.Event := ⟨.info, target, s!"Generating {bits}-bit sample"⟩

/-- The sample was verified. -/
def verified : Log.Event := ⟨.info, target, "Sample verified"⟩

/-- The test vectors were saved. -/
def wrote (path : String) : Log.Event := ⟨.info, target, s!"Wrote test vectors to {path}"⟩

/-- Where the events of the system's source come from. -/
def systemTarget : String := "primegen_core::env"

/-- The system refused a request for random bytes. -/
def refused (reason : String) : Log.Event :=
  ⟨.error, systemTarget, s!"getrandom failed: {reason}"⟩

/-! ## §2. What a run comes to. -/

/-- What is left to do when a run has drawn all that it needs. -/
inductive Action where
  /-- Print a text. -/
  | print (text : String)
  /-- Save a text in a file. -/
  | save (path text : String)
  deriving DecidableEq, Repr

section

variable {σ : Type} [Source σ]

/-- Draws a sample, verifies it if that is wanted, and prints it. -/
def runSample (config : Config) (fuel : Nat) (verify : Bool) : Draw σ VectorError Action := do
  Draw.note (generating config.bitSize)
  let sample ← (Sample.draw config fuel).widen .prime
  if verify then
    (sample.verify fuel config.rounds).widen .prime
    Draw.note verified
  return .print sample.report

/-- The numbers that a source gives. -/
def inputsOf (config : Config) (fuel : Nat) (readText : String → Except FileFault String) :
    NumberSource → Draw σ VectorError Inputs
  | .directory path => Vectors.load readText path
  | .madeUp count => (Vectors.synthesize config fuel count config.bitSize).widen .prime

/-- Classifies the numbers of a source and saves their test vectors. -/
def runVectors (config : Config) (fuel : Nat) (readText : String → Except FileFault String)
    (source : NumberSource) (output : String) : Draw σ VectorError Action := do
  let inputs ← inputsOf config fuel readText source
  let vectors ← TestVectors.ofInputs fuel config.rounds inputs
  return .save output vectors.toJson

/-- Draws all that a task needs. -/
def runTask (config : Config) (fuel : Nat) (readText : String → Except FileFault String) :
    Task → Draw σ VectorError Action
  | .sample verify => runSample config fuel verify
  | .vectors source output => runVectors config fuel readText source output

/-- A draw from the source of the system, which notes a request that it refuses.  The refusal ends the
draw, so this is the last of its events. -/
def noteRefusal {α : Type} (draw : Draw σ VectorError α) : Draw σ VectorError α :=
  tryCatch draw fun
    | .error (.prime (.entropy reason)) => do
      Draw.note (refused reason)
      Draw.fail (.prime (.entropy reason))
    | stop => throw stop

/-- Draws all that a run needs: with a word of warning in front if it is seeded, and otherwise from
the source of the system. -/
def Options.plan (options : Options) (fuel : Nat) (readText : String → Except FileFault String) :
    Draw σ VectorError Action :=
  match options.seed with
  | some seed => do
    Draw.note (seeded seed)
    runTask options.config fuel readText options.task
  | none => noteRefusal (runTask options.config fuel readText options.task)

end

/-! ## §3. How a run ends. -/

/-- How a run ended. -/
structure Outcome where
  /-- The exit code. -/
  code : Nat
  /-- What was printed. -/
  printed : String
  /-- The error, if there was one. -/
  error : Option String
  /-- All events of the run, shown or not. -/
  events : List Log.Event
  deriving DecidableEq, Repr

/-- The wording of a stop. -/
def stopMessage : Stop VectorError → String
  | .error cause => cause.message
  | .outOfFuel => "search given up"

/-- The outcome of a run that stopped. -/
def Outcome.stopped (events : List Log.Event) (stop : Stop VectorError) : Outcome :=
  ⟨1, "", some (stopMessage stop), events⟩

/-- The outcome of a run that breaks off at its beginning, since it cannot read which events to
show. -/
def Outcome.aborted : Outcome := ⟨101, "", none, []⟩

/-- The outcome of a run whose last action was done; `saved` says how a text was saved, if one was
to be. -/
def Action.outcome (action : Action) (events : List Log.Event) (saved : Except FileFault Unit) :
    Outcome :=
  match action, saved with
  | .print text, _ => ⟨0, text, none, events⟩
  | .save path _, .ok () => ⟨0, "", none, events ++ [wrote path]⟩
  | .save path _, .error fault => .stopped events (.error (.io path fault))

/-! ## §4. Runs on a snapshot. -/

/-- What an action makes of a snapshot. -/
def Action.performOn (action : Action) (files : Files) : Except FileFault Files :=
  match action with
  | .print _ => .ok files
  | .save path text => files.write path text.toUTF8

/-- The filter of a run, if it can be read; `environment` is the one that the environment sets. -/
def Options.filter (options : Options) (environment : Option String) : Option Log.Filter :=
  Log.Filter.choose environment options.logLevel

section

variable {σ : Type} [Source σ]

/-- Runs the program on a snapshot with the bytes of a source, once its filter was read. -/
def Options.runFrom (options : Options) (fuel : Nat) (source : σ) (environment : Option String)
    (files : Files) : Outcome × Files :=
  match options.filter environment with
  | none => (.aborted, files)
  | some _ =>
    match (options.plan fuel files.readText).runIn (Session.start source) with
    | (.error stop, session) => (.stopped session.events stop, files)
    | (.ok action, session) =>
      match action.performOn files with
      | .ok files => (action.outcome session.events (.ok ()), files)
      | .error fault => (action.outcome session.events (.error fault), files)

/-- Runs the program on a snapshot: with the stream of the seed, if there is one, and otherwise with
the source `system`. -/
def Options.run (options : Options) (fuel : Nat) (system : σ) (environment : Option String)
    (files : Files) : Outcome × Files :=
  match options.seed with
  | some seed => options.runFrom fuel (KeyStream.ofSeed (UInt64.ofNat seed)) environment files
  | none => options.runFrom fuel system environment files

end

/-- The events of a run that its filter admits, as lines. -/
def Options.logLines (options : Options) (environment : Option String) (outcome : Outcome) :
    List String :=
  match options.filter environment with
  | none => []
  | some filter => (outcome.events.filter filter.admits).map Log.Event.line

/-- The answer to a question for the version. -/
def versionText : String := "primegen 0.1.0\n"

end ProbablePrime.Command
