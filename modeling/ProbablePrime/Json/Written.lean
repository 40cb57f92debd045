/-
  ProbablePrime.Json.Written — JSON texts without any space.

  Texts are put between quotes as they are, so this is for texts that need no escape: keys of
  letters, and digits.
-/
namespace ProbablePrime.Json

/-- A text that needs no escape. -/
def writtenText (text : String) : String := "\"" ++ text ++ "\""

/-- A list of written values. -/
def writtenList (values : List String) : String := "[" ++ ",".intercalate values ++ "]"

/-- A member of an object: a key and a written value. -/
def writtenMember (key value : String) : String := writtenText key ++ ":" ++ value

/-- An object of written members. -/
def writtenObject (members : List String) : String :=
  "\x7b" ++ ",".intercalate members ++ "\x7d"

end ProbablePrime.Json
