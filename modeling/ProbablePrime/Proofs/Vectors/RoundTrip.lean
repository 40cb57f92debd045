/-
  ProbablePrime.Proofs.Vectors.RoundTrip — test vectors that are written and read again.

  Test vectors are written as records in lists in a record, in one of the many ways in which they may
  be written, and all of these are read.  The power of two is the one number with a bound: it is read as
  a number of 64 bits, and past them as a double.

  Main results:
    * `rendering_toJson` — what is written is a rendering of test vectors;
    * `ofJson_toJson` — it reads back, so no two test vectors are written alike.
-/
import ProbablePrime.Proofs.Json.Written
import ProbablePrime.Proofs.Vectors.Rendering

namespace ProbablePrime.Vectors

open Json (DecimalText ListOf ObjectOf Writes)

/-! ## §1. One test vector. -/

theorem decimalText_writtenNumber (n : Nat) : Writes DecimalText n (writtenNumber n).toList := by
  rw [writtenNumber, Json.toList_writtenText, Nat.toString_eq_repr, Nat.toList_repr]
  exact Json.decimalText_toDigits n

/-- **A test vector is written as an entry of a list**, whatever its numbers have to do with each
other. -/
theorem entryText_toJson {vector : TestVector} (hs : vector.s < 2 ^ 64) :
    Writes EntryText (some vector) vector.toJson.toList := by
  have hword : Writes Json.WordText vector.s (toString vector.s).toList := by
    rw [Nat.toString_eq_repr, Nat.toList_repr]
    exact Json.wordText_toDigits hs
  have hobject : Writes (ObjectOf ["n", "d", "s"] VectorMember)
      [some ("n", vector.n), some ("d", vector.d), some ("s", vector.s)]
      vector.toJson.toList := by
    refine Json.objectOf_writtenObject (.cons ?_ (.cons ?_ (.cons ?_ .nil)))
    · exact Json.member_writtenMember (by decide) (by decide) fun rest =>
        .n (decimalText_writtenNumber vector.n rest)
    · exact Json.member_writtenMember (by decide) (by decide) fun rest =>
        .d (decimalText_writtenNumber vector.d rest)
    · exact Json.member_writtenMember (by decide) (by decide) fun rest => .s (hword rest)
  intro rest
  exact .vector (hobject rest) (.refl _)

/-! ## §2. All test vectors. -/

/-- The vectors of a list are written as its entries. -/
theorem forall₂_toJson {vectors : List TestVector} (hs : ∀ vector ∈ vectors, vector.s < 2 ^ 64) :
    List.Forall₂ (fun entry text => Writes EntryText entry text.toList) (vectors.map some)
      (vectors.map TestVector.toJson) := by
  rw [List.forall₂_map_left_iff, List.forall₂_map_right_iff]
  exact List.forall₂_same.2 fun vector hvector => entryText_toJson (hs vector hvector)

/-- **What is written of test vectors is a way to write them.** -/
theorem rendering_toJson {vectors : TestVectors}
    (hs : ∀ category, ∀ vector ∈ vectors.get category, vector.s < 2 ^ 64) :
    Rendering vectors vectors.toJson.toList [] := by
  have hobject : Writes VectorsText
      (Category.all.map fun category => some (category.key, (vectors.get category).map some))
      vectors.toJson.toList := by
    refine Json.objectOf_writtenObject ?_
    rw [List.forall₂_map_left_iff, List.forall₂_map_right_iff]
    exact List.forall₂_same.2 fun category _ => writes_category category (forall₂_toJson (hs category))
  have htext := hobject []
  rw [List.append_nil] at htext
  exact ⟨_, _, Json.Space.refl _, htext, .refl _⟩

/-- Test vectors read back from what is written of them. -/
theorem ofJson_of_toJson {vectors : TestVectors}
    (hs : ∀ category, ∀ vector ∈ vectors.get category, vector.s < 2 ^ 64) :
    TestVectors.ofJson vectors.toJson = .ok vectors := by
  rw [ofJson_of_rendering (rendering_toJson hs)]
  rfl

/-- **What is written of test vectors reads back**, for lists of any length and numbers of any size,
as long as the powers of two fit 64 bits.  So no two such test vectors are written alike. -/
theorem ofJson_toJson {vectors : TestVectors}
    (hs : ∀ category, ∀ vector ∈ vectors.get category, vector.s < 2 ^ 64) :
    TestVectors.ofJson vectors.toJson = .ok vectors
      ∧ ∀ vectors' : TestVectors,
        (∀ category, ∀ vector ∈ vectors'.get category, vector.s < 2 ^ 64) →
          vectors.toJson = vectors'.toJson → vectors = vectors' := by
  refine ⟨ofJson_of_toJson hs, fun vectors' hs' hsame => ?_⟩
  have hread := ofJson_of_toJson hs
  rw [hsame, ofJson_of_toJson hs'] at hread
  exact (Except.ok.inj hread).symm

/-- One vector with the greatest power of two there is, whose numbers do not fit each other, and three
empty lists.  In another list the same vector is written otherwise. -/
theorem ofJson_toJson_greatest_word :
    (∀ category, ∀ vector ∈ (⟨[⟨0, 7, 2 ^ 64 - 1⟩], [], [], []⟩ : TestVectors).get category,
        vector.s < 2 ^ 64)
      ∧ TestVectors.ofJson (TestVectors.toJson ⟨[⟨0, 7, 2 ^ 64 - 1⟩], [], [], []⟩)
        = .ok ⟨[⟨0, 7, 2 ^ 64 - 1⟩], [], [], []⟩
      ∧ TestVectors.toJson ⟨[⟨0, 7, 2 ^ 64 - 1⟩], [], [], []⟩
        ≠ TestVectors.toJson ⟨[], [⟨0, 7, 2 ^ 64 - 1⟩], [], []⟩ := by
  have hwords : ∀ category,
      ∀ vector ∈ (⟨[⟨0, 7, 2 ^ 64 - 1⟩], [], [], []⟩ : TestVectors).get category,
        vector.s < 2 ^ 64 := by
    intro category vector hvector
    cases category <;> simp_all [PerCategory.get]
  have hwords' : ∀ category,
      ∀ vector ∈ (⟨[], [⟨0, 7, 2 ^ 64 - 1⟩], [], []⟩ : TestVectors).get category,
        vector.s < 2 ^ 64 := by
    intro category vector hvector
    cases category <;> simp_all [PerCategory.get]
  refine ⟨hwords, (ofJson_toJson hwords).1, fun hsame => ?_⟩
  exact absurd ((ofJson_toJson hwords).2 _ hwords' hsame) (by decide)

end ProbablePrime.Vectors
