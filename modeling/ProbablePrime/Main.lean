/-
  ProbablePrime.Main — the program.

  All decisions are made elsewhere; here files are read and written, random bytes are fetched from
  the system, and texts are printed: the report on the standard output, everything else beside it.
-/
import ProbablePrime.Command.Run

namespace ProbablePrime.Program

open Command
open Entropy (KeyStream Source)
open Vectors (Category VectorError)

/-! ## §1. Files and random bytes. -/

/-- An error of the system as a fault of a file. -/
def faultOf : IO.Error → FileFault
  | .noFileOrDirectory .. => .notFound
  | .inappropriateType _ code _ => if code = 21 then .isDirectory else .notDirectory
  | .invalidArgument _ 36 _ => .nameTooLong
  | e => .other (toString e)

/-- The text of a file. -/
def readFile (path : String) : IO (Except FileFault String) := do
  try
    match String.fromUTF8? (← IO.FS.readBinFile path) with
    | some text => return .ok text
    | none => return .error .notText
  catch e => return .error (faultOf e)

/-- The texts of the files that a task may ask for. -/
def readFiles (task : Task) : IO (String → Except FileFault String) := do
  match task with
  | .vectors (.directory directory) _ =>
    let files ← Category.all.mapM fun category => do
      let path := Files.join directory category.fileName
      return (path, ← readFile path)
    return fun path => (files.lookup path).getD (.error .notFound)
  | _ => return fun _ => .error .notFound

/-- Random bytes that were fetched from the system. -/
structure Supply where
  /-- The bytes that are still to be read. -/
  bytes : List UInt8
  /-- Why a request is refused that they cannot serve. -/
  reason : String

/-- Reads the next `count` bytes of a supply. -/
def Supply.fill (count : Nat) (supply : Supply) : Except PrimeError (List UInt8) × Supply :=
  let served := supply.bytes.take count
  if served.length = count then
    (.ok served, { supply with bytes := supply.bytes.drop count })
  else
    (.error (.entropy supply.reason), supply)

instance : Source Supply where
  fill := Supply.fill
  length_of_fill {count supply bytes} h := by
    unfold Supply.fill at h
    dsimp only at h
    split at h
    · next hlength => exact Except.ok.inj h ▸ hlength
    · cases h

/-- Fetches `count` bytes from the system, or the reason why it gives none. -/
def fetch (count : Nat) : IO (Except String (List UInt8)) := do
  try
    return .ok (← IO.getRandomBytes (USize.ofNat count)).toList
  catch e => return .error (toString e)

/-- Draws from the system.  Where the bytes that were fetched do not suffice, more are fetched and the
draw begins anew: with the same bytes in front it goes the same way, and further. -/
def drawOnSystem {α : Type} (draw : Draw Supply VectorError α) :
    (turns : Nat) → (bytes : List UInt8) → IO (Except (Stop VectorError) α × Session Supply)
  | 0, bytes => return (.error .outOfFuel, Session.start ⟨bytes, ""⟩)
  | turns + 1, bytes => do
    match draw.runIn (Session.start ⟨bytes, ""⟩) with
    | (.error (.error (.prime (.entropy _))), _) =>
      match ← fetch (bytes.length + 0x10000) with
      | .ok more => drawOnSystem draw turns (bytes ++ more)
      | .error reason => return draw.runIn (Session.start ⟨bytes, reason⟩)
    | ended => return ended

/-- Saves what an action has to save. -/
def save : Action → IO (Except FileFault Unit)
  | .print _ => return .ok ()
  | .save path text => do
    try
      IO.FS.writeFile path text
      return .ok ()
    catch e => return .error (faultOf e)

/-! ## §2. The program. -/

/-- The number of turns that no loop of a run comes near to. -/
def fuel : Nat := 1 <<< 62

/-- What help consists of. -/
def helpText : String :=
  "Print a random integer, two probable primes and their product\n\n" ++
  "Usage: primegen [OPTIONS] [COMMAND]\n\n" ++
  "Commands:\n" ++
  "  vectors  Classify known primes and composites into Miller-Rabin test vectors\n" ++
  "  help     Print this message\n\n" ++
  "Options:\n" ++
  "      --bits <BITS>                  Bit size of every generated value [default: 4096]\n" ++
  "      --rounds <ROUNDS>              Miller-Rabin rounds per candidate [default: 40]\n" ++
  "      --seed <SEED>                  Seed for a reproducible run (not for keys)\n" ++
  "      --max-attempts <MAX_ATTEMPTS>  Give up after this many candidates per prime\n" ++
  "      --verify                       Re-check the sample before printing\n" ++
  "      --log-level <LOG_LEVEL>        Log level [default: warn]\n" ++
  "  -h, --help                         Print help\n" ++
  "  -V, --version                      Print version\n\n" ++
  "Options of vectors:\n" ++
  "      --input-dir <INPUT_DIR>        Directory holding the lists of numbers\n" ++
  "      --synthesize <SYNTHESIZE>      Generate this many entries per list\n" ++
  "  -o, --output <OUTPUT>              Where to write the vectors [default: tests.json]\n"

/-- How often more bytes are fetched at most; the supply doubles every time. -/
def fetches : Nat := 48

/-- Does what is left to do when a run has drawn all that it needs. -/
def finish {σ : Type} : Except (Stop VectorError) Action × Session σ → IO Outcome
  | (.error stop, session) => return .stopped session.events stop
  | (.ok action, session) => return action.outcome session.events (← save action)

/-- Draws what a run needs, and does what is left to do then. -/
def complete (options : Options) : IO Outcome := do
  let readText ← readFiles options.task
  match options.seed with
  | some seed =>
    finish ((options.plan fuel readText).runIn
      (Session.start (KeyStream.ofSeed (UInt64.ofNat seed))))
  | none => finish (← drawOnSystem (options.plan fuel readText) fetches [])

/-- Carries out a run, prints what it has to say, and gives its exit code. -/
def carryOut (options : Options) : IO UInt32 := do
  let environment ← IO.getEnv "RUST_LOG"
  let outcome ← if (options.filter environment).isNone then pure .aborted else complete options
  for line in options.logLines environment outcome do
    IO.eprintln line
  IO.print outcome.printed
  if let some error := outcome.error then
    IO.eprintln s!"error: {error}"
  return UInt32.ofNat outcome.code

/-- Answers a command line. -/
def answer (words : List String) : IO UInt32 := do
  match Line.ofWords words with
  | .error e =>
    IO.eprintln s!"error: {e.message}"
    return 2
  | .ok .help =>
    IO.print helpText
    return 0
  | .ok .version =>
    IO.print versionText
    return 0
  | .ok (.run root vectors) => carryOut (Options.ofSettings root vectors)

end ProbablePrime.Program

/-- Runs the program on the words of its command line. -/
def main (args : List String) : IO UInt32 := ProbablePrime.Program.answer args
