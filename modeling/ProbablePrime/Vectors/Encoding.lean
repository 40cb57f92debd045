/-
  ProbablePrime.Vectors.Encoding — test vectors as JSON.

      {"smallPrimes":[{"n":"13","d":"3","s":2}],"largePrimes":[],…}

  Numbers of any size are written as texts of digits, the power of two as a number.  Reading takes
  what writing gives, and more: members in any order and besides the known ones, space between the
  tokens, and records written as lists.
-/
import ProbablePrime.Json.Reader
import ProbablePrime.Json.Written
import ProbablePrime.Vectors.TestVector

namespace ProbablePrime.Vectors

open Json (Reader writtenList writtenMember writtenObject writtenText)

/-! ## §1. Writing. -/

/-- A number as a text of its digits. -/
def writtenNumber (n : Nat) : String := writtenText (toString n)

/-- A test vector as an object. -/
def TestVector.toJson (vector : TestVector) : String :=
  writtenObject
    [writtenMember "n" (writtenNumber vector.n),
      writtenMember "d" (writtenNumber vector.d),
      writtenMember "s" (toString vector.s)]

/-- The test vectors of a category as a member of an object. -/
def TestVectors.member (vectors : TestVectors) (category : Category) : String :=
  writtenMember category.key (writtenList ((vectors.get category).map TestVector.toJson))

/-- Test vectors as an object with a list for every category. -/
def TestVectors.toJson (vectors : TestVectors) : String :=
  writtenObject (Category.all.map vectors.member)

/-! ## §2. Reading. -/

/-- The fields of a test vector. -/
def vectorRecord : Json.Record Nat 3 where
  name := "VectorRecord"
  fields := #v[⟨"n", .decimal⟩, ⟨"d", .decimal⟩, ⟨"s", .word⟩]

/-- Reads a test vector; its numbers need not fit each other. -/
def TestVector.reader : Reader TestVector :=
  vectorRecord.reader.map fun values => ⟨values[0], values[1], values[2]⟩

/-- The list of a category as a field. -/
def categoryField (category : Category) : Json.Field (List TestVector) :=
  ⟨category.key, TestVector.reader.list⟩

/-- The lists of the categories as the fields of a record. -/
def categoriesRecord : Json.Record (List TestVector) 4 where
  name := "TestVectors"
  fields := #v[categoryField .smallPrimes, categoryField .largePrimes,
    categoryField .smallComposites, categoryField .largeComposites]

/-- Reads test vectors. -/
def TestVectors.reader : Reader TestVectors :=
  categoriesRecord.reader.map fun lists => ⟨lists[0], lists[1], lists[2], lists[3]⟩

/-- The test vectors of a text. -/
def TestVectors.ofJson (json : String) : Except VectorError TestVectors :=
  match TestVectors.reader.readAll json.toList with
  | .error refusal => .error (.json refusal)
  | .ok vectors => .ok vectors

end ProbablePrime.Vectors
