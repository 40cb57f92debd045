/-
  ProbablePrime.Text.Bytes — texts measured and cut in bytes.

  A character takes from one to four bytes.  A text can be cut where a character ends; a cut through
  a character has no result.
-/
namespace ProbablePrime.Text

/-- The number of bytes that a text takes. -/
def byteSize (text : List Char) : Nat := text.foldr (fun c size => c.utf8Size + size) 0

/-- The first `bytes` bytes of a text. -/
def takeBytes? : (bytes : Nat) → List Char → Option (List Char)
  | 0, _ => some []
  | _ + 1, [] => none
  | bytes + 1, c :: text =>
    if c.utf8Size ≤ bytes + 1 then (takeBytes? (bytes + 1 - c.utf8Size) text).map (c :: ·)
    else none

/-- The text behind its first `bytes` bytes. -/
def dropBytes? : (bytes : Nat) → List Char → Option (List Char)
  | 0, text => some text
  | _ + 1, [] => none
  | bytes + 1, c :: text =>
    if c.utf8Size ≤ bytes + 1 then dropBytes? (bytes + 1 - c.utf8Size) text else none

end ProbablePrime.Text
