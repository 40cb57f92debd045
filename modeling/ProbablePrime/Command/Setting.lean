/-
  ProbablePrime.Command.Setting — what can be set on a command line.

  A setting is an option with its value.  Every option has a long name; which values it takes and on
  which side of the word `vectors` it may stand is said here, option by option.
-/
import ProbablePrime.Number.Size

namespace ProbablePrime.Command

/-! ## §1. Options. -/

/-- An option that sets something. -/
inductive Opt where
  /-- The size of what is drawn. -/
  | bits
  /-- The rounds of a primality check. -/
  | rounds
  /-- The seed of a run that can be repeated. -/
  | seed
  /-- The cap on the candidates for one prime. -/
  | maxAttempts
  /-- The filter of the log. -/
  | logLevel
  /-- Verifying the sample before it is printed. -/
  | verify
  /-- The directory that holds the lists of numbers. -/
  | inputDir
  /-- The length of made-up lists. -/
  | synthesize
  /-- The file that the test vectors are written to. -/
  | output
  deriving DecidableEq, Repr

/-- A side of the word `vectors`. -/
inductive Side where
  /-- In front of it, or a line without it. -/
  | root
  /-- Behind it. -/
  | vectors
  deriving DecidableEq, Repr

namespace Opt

/-- The options that may stand on either side. -/
def global : List Opt := [bits, rounds, seed, maxAttempts, logLevel]

/-- The options of a side. -/
def ofSide : Side → List Opt
  | .root => verify :: global
  | .vectors => [inputDir, synthesize, output] ++ global

/-- The name of an option behind two hyphens. -/
def name : Opt → String
  | bits => "bits"
  | rounds => "rounds"
  | seed => "seed"
  | maxAttempts => "max-attempts"
  | logLevel => "log-level"
  | verify => "verify"
  | inputDir => "input-dir"
  | synthesize => "synthesize"
  | output => "output"

/-- The option of a side that has a name. -/
def find? (side : Side) (name : List Char) : Option Opt :=
  (ofSide side).find? fun opt => opt.name.toList == name

end Opt

/-! ## §2. Settings. -/

/-- An option with its value. -/
inductive Setting where
  /-- The size of what is drawn, in bits. -/
  | bits (n : Nat)
  /-- The rounds of a primality check. -/
  | rounds (n : Nat)
  /-- The seed. -/
  | seed (n : Nat)
  /-- The cap on candidates. -/
  | maxAttempts (n : Nat)
  /-- The text of a log filter. -/
  | logLevel (text : String)
  /-- Verifying is wanted. -/
  | verify
  /-- The path of a directory. -/
  | inputDir (path : String)
  /-- The length of made-up lists. -/
  | synthesize (count : Nat)
  /-- The path of a file. -/
  | output (path : String)
  deriving DecidableEq, Repr

/-- The option of a setting. -/
def Setting.opt : Setting → Opt
  | .bits _ => .bits
  | .rounds _ => .rounds
  | .seed _ => .seed
  | .maxAttempts _ => .maxAttempts
  | .logLevel _ => .logLevel
  | .verify => .verify
  | .inputDir _ => .inputDir
  | .synthesize _ => .synthesize
  | .output _ => .output

/-! ## §3. Values. -/

/-- The number that a value denotes, from `least` up to `greatest`: an optional plus sign, and
digits only. -/
def numberBetween? (least greatest : Nat) (value : List Char) : Option Nat :=
  let digits := match value with
    | '+' :: digits => digits
    | digits => digits
  if digits.isEmpty || !digits.all Char.isDigit then
    none
  else
    let n := Nat.ofDigitChars 10 digits 0
    if least ≤ n ∧ n ≤ greatest then some n else none

/-- A number of 64 bits. -/
def word? (value : List Char) : Option Nat := numberBetween? 0 (Number.wordLimit - 1) value

/-- A path, which has at least one character. -/
def path? (value : List Char) : Option String :=
  if value.isEmpty then none else some (String.ofList value)

/-- The setting of an option with a value, if the option takes it. -/
def Opt.setTo? (opt : Opt) (value : List Char) : Option Setting :=
  match opt with
  | bits => (word? value).map .bits
  | rounds => (numberBetween? 1 0xffffffff value).map .rounds
  | seed => (word? value).map .seed
  | maxAttempts => (word? value).map .maxAttempts
  | logLevel => some (.logLevel (String.ofList value))
  | verify => none
  | inputDir => (path? value).map .inputDir
  | synthesize => (word? value).map .synthesize
  | output => (path? value).map .output

end ProbablePrime.Command
