/-
  ProbablePrime.Text.Blank — white space around a text.

  Blank characters are those that Unicode calls white space; `trim` takes them off both ends and
  leaves what stands between the first and the last character that is not blank.
-/
import ProbablePrime.Text.CharTable

namespace ProbablePrime.Text

/-- The ranges of white space. -/
def blankTable : CharTable :=
  [(0x9, 0xd), (0x20, 0x20), (0x85, 0x85), (0xa0, 0xa0), (0x1680, 0x1680), (0x2000, 0x200a),
    (0x2028, 0x2029), (0x202f, 0x202f), (0x205f, 0x205f), (0x3000, 0x3000)]

/-- Whether a character is white space. -/
def isBlank (c : Char) : Bool := blankTable.holds c

/-- The text without the white space at its beginning and at its end. -/
def trim (text : List Char) : List Char :=
  ((text.dropWhile isBlank).reverse.dropWhile isBlank).reverse

end ProbablePrime.Text
