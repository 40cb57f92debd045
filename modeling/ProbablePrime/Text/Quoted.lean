/-
  ProbablePrime.Text.Quoted — a text between double quotes, with every character visible.

  Characters that leave no mark and characters that would fuse with their neighbour are written by
  their code point; the quote and the backslash get a backslash in front.
-/
import ProbablePrime.Text.Combining
import ProbablePrime.Text.Unprintable

namespace ProbablePrime.Text

/-- A character by its code point, in as few hexadecimal digits as it takes. -/
def codePointEscape (c : Char) : List Char :=
  ['\\', 'u', '\x7b'] ++ Nat.toDigits 16 c.toNat ++ ['\x7d']

/-- A character as it is written between quotes. -/
def escapeChar (c : Char) : List Char :=
  match c with
  | '\x00' => ['\\', '0']
  | '\t' => ['\\', 't']
  | '\r' => ['\\', 'r']
  | '\n' => ['\\', 'n']
  | '"' => ['\\', '"']
  | '\\' => ['\\', '\\']
  | c => if isCombining c || isUnprintable c then codePointEscape c else [c]

/-- A text between quotes. -/
def quoted (text : String) : String :=
  String.ofList ('"' :: text.toList.flatMap escapeChar ++ ['"'])

end ProbablePrime.Text
