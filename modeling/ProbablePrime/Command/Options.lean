/-
  ProbablePrime.Command.Options — what a run is asked to do.

  A setting behind the word `vectors` wins over one in front of it, and what is not set at all has a
  standard value.
-/
import ProbablePrime.Command.Line
import ProbablePrime.Generator

namespace ProbablePrime.Command

/-! ## §1. Options. -/

/-- Where the numbers of test vectors come from. -/
inductive NumberSource where
  /-- From the files of a directory. -/
  | directory (path : String)
  /-- From nowhere: `count` of them are made up for each list. -/
  | madeUp (count : Nat)
  deriving DecidableEq, Repr

/-- What a run is for. -/
inductive Task where
  /-- Printing a sample, verified first if that is wanted. -/
  | sample (verify : Bool)
  /-- Writing test vectors to a file. -/
  | vectors (source : NumberSource) (output : String)
  deriving DecidableEq, Repr

/-- What a run is asked to do, and how. -/
structure Options where
  /-- The settings of searches. -/
  config : Config
  /-- The seed, if the run can be repeated. -/
  seed : Option Nat
  /-- The filter of the log. -/
  logLevel : String
  /-- What the run is for. -/
  task : Task
  deriving DecidableEq, Repr

/-! ## §2. From settings to options. -/

/-- The file that test vectors are written to unless another is named. -/
def standardOutput : String := "tests.json"

/-- The filter of the log unless another is given. -/
def standardLogLevel : String := "warn"

/-- The task of a run without the word `vectors`. -/
def sampleTask (root : List Setting) : Task := .sample (root.contains .verify)

/-- The task of a run with the settings behind the word `vectors`. -/
def vectorsTask (settings : List Setting) : Task :=
  let path? : Setting → Option String
    | .inputDir path => some path
    | _ => none
  let count? : Setting → Option Nat
    | .synthesize count => some count
    | _ => none
  let output? : Setting → Option String
    | .output path => some path
    | _ => none
  let source := match settings.findSome? path? with
    | some path => .directory path
    | none => .madeUp ((settings.findSome? count?).getD 0)
  .vectors source ((settings.findSome? output?).getD standardOutput)

/-- The options that the settings of both sides make up. -/
def Options.ofSettings (root : List Setting) (vectors : Option (List Setting)) : Options :=
  let settings := vectors.getD [] ++ root
  let bits? : Setting → Option Nat
    | .bits n => some n
    | _ => none
  let rounds? : Setting → Option Nat
    | .rounds n => some n
    | _ => none
  let seed? : Setting → Option Nat
    | .seed n => some n
    | _ => none
  let maxAttempts? : Setting → Option Nat
    | .maxAttempts n => some n
    | _ => none
  let logLevel? : Setting → Option String
    | .logLevel text => some text
    | _ => none
  { config := {
      bitSize := (settings.findSome? bits?).getD Config.standard.bitSize
      rounds := (settings.findSome? rounds?).getD Config.standard.rounds
      maxAttempts := settings.findSome? maxAttempts? }
    seed := settings.findSome? seed?
    logLevel := (settings.findSome? logLevel?).getD standardLogLevel
    task := match vectors with
      | none => sampleTask root
      | some settings => vectorsTask settings }

end ProbablePrime.Command
