/-
  ProbablePrime.Command.Line — command lines.

  The words of a line are taken one by one.  A word is an option, alone or with its value behind a
  sign, the value of the option in front of it, or one of the two words that are commands.  A value
  that is a word of its own does not begin with a hyphen, a lone hyphen excepted; apart from that
  any word behind an option that wants a value is its value.

  On each side of the word `vectors` an option stands at most once.
-/
import ProbablePrime.Command.Setting

namespace ProbablePrime.Command

/-! ## §1. What a line can be. -/

/-- Why a line is not understood. -/
inductive UsageError where
  /-- No option of this side is written like this. -/
  | unknownOption (word : String)
  /-- An option lacks its value. -/
  | noValue (opt : Opt)
  /-- An option does not take the value. -/
  | badValue (opt : Opt) (value : String)
  /-- An option that is set by its name alone was given a value. -/
  | unwantedValue (word : String)
  /-- An option stands twice on one side. -/
  | repeated (opt : Opt)
  /-- A word that is no option and no command. -/
  | stray (word : String)
  /-- Test vectors are wanted, and neither files nor a count is given to make them of. -/
  | noSource
  /-- Test vectors are wanted both of files and of made-up numbers. -/
  | twoSources
  deriving DecidableEq, Repr

/-- The wording of a usage error. -/
def UsageError.message : UsageError → String
  | .unknownOption word => s!"unexpected argument '{word}' found"
  | .noValue opt => s!"a value is required for '--{opt.name}' but none was supplied"
  | .badValue opt value => s!"invalid value '{value}' for '--{opt.name}'"
  | .unwantedValue word => s!"unexpected value in '{word}'"
  | .repeated opt => s!"the argument '--{opt.name}' cannot be used multiple times"
  | .stray word => s!"unrecognized argument '{word}'"
  | .noSource => "one of '--input-dir' and '--synthesize' is required"
  | .twoSources => "'--input-dir' cannot be used with '--synthesize'"

/-- A line that is understood. -/
inductive Line where
  /-- Help is wanted. -/
  | help
  /-- The version is wanted. -/
  | version
  /-- A run is wanted: the settings in front of the word `vectors`, and those behind it if it
  stands there, the last setting of a side first. -/
  | run (root : List Setting) (vectors : Option (List Setting))
  deriving DecidableEq, Repr

/-! ## §2. Words. -/

/-- What a word asks for, seen from one side of `vectors`. -/
inductive Word where
  /-- The end of the options. -/
  | endOfOptions
  /-- Help. -/
  | help
  /-- The version. -/
  | version
  /-- An option, with its value if the word holds one. -/
  | option (opt : Opt) (value : Option (List Char))
  /-- A word that is no option. -/
  | plain (word : String)
  deriving DecidableEq, Repr

/-- The part of a text in front of its first equality sign, and the part behind it. -/
def splitValue (text : List Char) : List Char × Option (List Char) :=
  (text.takeWhile (· != '='), (text.dropWhile (· != '=')).tail?)

/-- The word behind two hyphens. -/
def Word.ofLong (side : Side) (word : String) (text : List Char) : Except UsageError Word :=
  let (name, value) := splitValue text
  match Opt.find? side name with
  | some opt => .ok (.option opt value)
  | none =>
    if name = "help".toList then
      if value.isSome then .error (.unwantedValue word) else .ok .help
    else if name = "version".toList ∧ side = .root then
      if value.isSome then .error (.unwantedValue word) else .ok .version
    else
      .error (.unknownOption word)

/-- The word behind one hyphen: its first letter decides, and what follows the letter is a value,
with or without an equality sign in front. -/
def Word.ofShort (side : Side) (word : String) (letter : Char) (text : List Char) :
    Except UsageError Word :=
  if letter = 'h' then .ok .help
  else if letter = 'V' ∧ side = .root then .ok .version
  else if letter = 'o' ∧ side = .vectors then
    match text with
    | [] => .ok (.option .output none)
    | '=' :: value => .ok (.option .output (some value))
    | value => .ok (.option .output (some value))
  else .error (.unknownOption word)

/-- What a word asks for. -/
def Word.ofString (side : Side) (word : String) : Except UsageError Word :=
  match word.toList with
  | ['-', '-'] => .ok .endOfOptions
  | '-' :: '-' :: text => ofLong side word text
  | '-' :: letter :: text => ofShort side word letter text
  | _ => .ok (.plain word)

/-- Whether a word can be the value of the option in front of it. -/
def canBeValue (word : String) : Bool :=
  match word.toList with
  | '-' :: _ :: _ => false
  | _ => true

/-! ## §3. Lines. -/

/-- Adds a setting to those of a side. -/
def addSetting (settings : List Setting) (setting : Setting) : Except UsageError (List Setting) :=
  if settings.any (·.opt = setting.opt) then .error (.repeated setting.opt)
  else .ok (setting :: settings)

/-- Adds the setting of an option with a value. -/
def addValue (settings : List Setting) (opt : Opt) (value : List Char) :
    Except UsageError (List Setting) :=
  match opt.setTo? value with
  | none => .error (.badValue opt (String.ofList value))
  | some setting => addSetting settings setting

/-- What the words of a side come to. -/
inductive Taken where
  /-- Help is wanted. -/
  | help
  /-- The version is wanted. -/
  | version
  /-- The settings of the side, and a word that is no option with the words behind it. -/
  | settings (settings : List Setting) (rest : Option (String × List String))
  deriving DecidableEq, Repr

/-- Takes the words of a side up to the first that is no option, `settings` being what was set so
far. -/
def takeSide (side : Side) (settings : List Setting) (words : List String) :
    Except UsageError Taken :=
  match words with
  | [] => .ok (.settings settings none)
  | word :: words =>
    match Word.ofString side word with
    | .error e => .error e
    | .ok .help => .ok .help
    | .ok .version => .ok .version
    | .ok (.plain word) => .ok (.settings settings (some (word, words)))
    -- Behind the end of the options only plain words may stand, and no side takes one there.
    | .ok .endOfOptions =>
      match words with
      | [] => .ok (.settings settings none)
      | word :: _ => .error (.stray word)
    | .ok (.option .verify none) =>
      match addSetting settings .verify with
      | .error e => .error e
      | .ok settings => takeSide side settings words
    | .ok (.option .verify (some _)) => .error (.unwantedValue word)
    | .ok (.option opt (some value)) =>
      match addValue settings opt value with
      | .error e => .error e
      | .ok settings => takeSide side settings words
    | .ok (.option opt none) =>
      match words with
      | [] => .error (.noValue opt)
      | value :: words =>
        if canBeValue value then
          match addValue settings opt value.toList with
          | .error e => .error e
          | .ok settings => takeSide side settings words
        else
          .error (.noValue opt)

/-- Refuses settings that name no source of numbers, or two. -/
def checkSources (settings : List Setting) : Except UsageError Unit :=
  match settings.any (·.opt = .inputDir), settings.any (·.opt = .synthesize) with
  | true, true => .error .twoSources
  | false, false => .error .noSource
  | _, _ => .ok ()

/-- Takes the words behind `vectors`. -/
def takeVectors (root : List Setting) (words : List String) : Except UsageError Line :=
  match takeSide .vectors [] words with
  | .error e => .error e
  | .ok .help => .ok .help
  | .ok .version => .ok .version
  | .ok (.settings _ (some (word, _))) => .error (.stray word)
  | .ok (.settings settings none) =>
    match checkSources settings with
    | .error e => .error e
    | .ok () => .ok (.run root (some settings))

/-- Takes the words behind the command `help`, which may name a command. -/
def takeHelp : List String → Except UsageError Line
  | [] => .ok .help
  | ["vectors"] => .ok .help
  | ["help"] => .ok .help
  | word :: _ => .error (.stray word)

/-- The line that words make up. -/
def Line.ofWords (words : List String) : Except UsageError Line :=
  match takeSide .root [] words with
  | .error e => .error e
  | .ok .help => .ok .help
  | .ok .version => .ok .version
  | .ok (.settings settings none) => .ok (.run settings none)
  | .ok (.settings settings (some (word, words))) =>
    if word = "vectors" then takeVectors settings words
    else if word = "help" then takeHelp words
    else .error (.stray word)

end ProbablePrime.Command
