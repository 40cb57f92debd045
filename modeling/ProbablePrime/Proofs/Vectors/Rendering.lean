/-
  ProbablePrime.Proofs.Vectors.Rendering — all the ways in which test vectors may be written.

  A test vector is written as an object, and the lists of the categories as the members of another
  one.  How they are laid out is left open: the members come in any order, with others among them,
  and there may be white space between any two tokens.  Decoding sees through all of this.  Where a
  member is missing, or there twice, nothing is decoded at all.

  A list may hold entries that are faulty in this way; such an entry stands for no vector.

  Main results:
    * `understands_vector` — one test vector;
    * `read_of_vectorsText` — all of them;
    * `ofJson_layout` — whole texts.
-/
import ProbablePrime.Proofs.Json.Container
import ProbablePrime.Proofs.Json.Written
import ProbablePrime.Vectors.Encoding

namespace ProbablePrime.Vectors

open Json (DecimalText ListOf Member ObjectOf QuotedText Reader Record Space Understands WordText Writes
  skipSpace writtenMember)

variable {text text' rest : List Char}

/-! ## §1. The grammar of test vectors. -/

/-- The value of a member of a test vector: a quoted number of any size, or a number of 64 bits. -/
inductive VectorMember : String → Nat → List Char → List Char → Prop
  /-- The number. -/
  | n {n : Nat} {text rest : List Char} : DecimalText n text rest → VectorMember "n" n text rest
  /-- The odd part of its predecessor. -/
  | d {d : Nat} {text rest : List Char} : DecimalText d text rest → VectorMember "d" d text rest
  /-- The power of two in its predecessor. -/
  | s {s : Nat} {text rest : List Char} : WordText s text rest → VectorMember "s" s text rest

/-- The entry of a list that should be a test vector. -/
inductive EntryText : Option TestVector → List Char → List Char → Prop
  /-- The members tell a test vector, each of its parts once and in any order. -/
  | vector {vector : TestVector} {members : List (Option (String × Nat))} {text rest : List Char} :
      ObjectOf ["n", "d", "s"] VectorMember members text rest →
        members.reduceOption.Perm [("n", vector.n), ("d", vector.d), ("s", vector.s)] →
          EntryText (some vector) text rest
  /-- A part is missing, or there is one more than once. -/
  | faulty {members : List (Option (String × Nat))} {text rest : List Char} :
      ObjectOf ["n", "d", "s"] VectorMember members text rest →
        ¬ (members.reduceOption.map Prod.fst).Perm ["n", "d", "s"] → EntryText none text rest

/-- An object whose members are lists of entries under the names of the categories, and others. -/
def VectorsText (members : List (Option (String × List (Option TestVector))))
    (text rest : List Char) : Prop :=
  ObjectOf (Category.all.map Category.key) (fun _ => ListOf EntryText) members text rest

/-- The members tell all test vectors: the list of each category once, in any order. -/
def Tells (members : List (Option (String × List (Option TestVector)))) (vectors : TestVectors) :
    Prop :=
  members.reduceOption.Perm
    (Category.all.map fun category => (category.key, (vectors.get category).map some))

/-- A list is missing, or there is one more than once, or an entry of a list is faulty. -/
def Faulty (members : List (Option (String × List (Option TestVector)))) : Prop :=
  ¬ (members.reduceOption.map Prod.fst).Perm (Category.all.map Category.key)
    ∨ ∃ member ∈ members.reduceOption, none ∈ member.2

/-! ## §2. One test vector. -/

theorem keys_vectorRecord : vectorRecord.keys = ["n", "d", "s"] := rfl

theorem understands_vectorMember (i : Fin 3) :
    Understands (vectorRecord.fields.get i).reader (VectorMember (vectorRecord.keyOf i)) Eq := by
  match i with
  | 0 =>
    refine Json.understands_decimal.of_element fun n text rest h => ?_
    generalize hkey : vectorRecord.keyOf 0 = key at h
    cases h with
    | n hn => exact hn
    | d _ => exact absurd hkey (by decide)
    | s _ => exact absurd hkey (by decide)
  | 1 =>
    refine Json.understands_decimal.of_element fun d text rest h => ?_
    generalize hkey : vectorRecord.keyOf 1 = key at h
    cases h with
    | n _ => exact absurd hkey (by decide)
    | d hd => exact hd
    | s _ => exact absurd hkey (by decide)
  | 2 =>
    refine Json.understands_word.of_element fun s text rest h => ?_
    generalize hkey : vectorRecord.keyOf 2 = key at h
    cases h with
    | n _ => exact absurd hkey (by decide)
    | d _ => exact absurd hkey (by decide)
    | s hs => exact hs

/-- The members of a test vector, as they are read. -/
theorem take_of_vectorObject {members : List (Option (String × Nat))} (hspace : Space text' text)
    (h : ObjectOf ["n", "d", "s"] VectorMember members text rest) :
    (∀ all : Vector Nat 3, members.reduceOption.Perm
          [("n", all.get 0), ("d", all.get 1), ("s", all.get 2)] →
        vectorRecord.take text' = .ok (all, rest))
      ∧ ((∀ all : Vector Nat 3, ¬ members.reduceOption.Perm
          [("n", all.get 0), ("d", all.get 1), ("s", all.get 2)]) →
        ∃ fault, vectorRecord.take text' = .error fault) := by
  have hkeys : vectorRecord.keys.Nodup := by rw [keys_vectorRecord]; decide
  rw [← keys_vectorRecord] at h
  exact Record.take_of_objectOf understands_vectorMember hkeys (fun _ _ => Iff.rfl) hspace h

/-- **A test vector is read however it is laid out**, and a faulty entry is refused. -/
theorem understands_vector :
    Understands TestVector.reader EntryText fun entry vector => entry = some vector where
  opens := by
    intro entry text rest h
    cases h with
    | vector hobject _ => exact hobject.opens
    | faulty hobject _ => exact hobject.opens
  ok := by
    rintro _ vector text' text rest hspace h - rfl
    cases h with
    | vector hobject htold =>
      have htake : vectorRecord.reader.read text' = .ok (#v[vector.n, vector.d, vector.s], rest) :=
        (take_of_vectorObject hspace hobject).1 #v[vector.n, vector.d, vector.s] htold
      exact Reader.map_read_ok htake
  error := by
    intro entry text' text rest hspace h _ hnothing
    cases h with
    | vector hobject htold => exact absurd rfl (hnothing _)
    | faulty hobject hfaulty =>
      obtain ⟨fault, htake⟩ := (take_of_vectorObject hspace hobject).2 fun all htold =>
        hfaulty (htold.map Prod.fst)
      exact ⟨fault, Reader.map_read_error htake⟩

/-! ## §3. All test vectors. -/

theorem keys_categoriesRecord : categoriesRecord.keys = Category.all.map Category.key := rfl

theorem understands_category (i : Fin 4) :
    Understands (categoriesRecord.fields.get i).reader (ListOf EntryText)
      (List.Forall₂ fun entry vector => entry = some vector) := by
  match i with
  | 0 | 1 | 2 | 3 => exact understands_vector.list

/-- Entries stand for vectors if none of them is faulty. -/
theorem forall₂_some_iff (entries : List (Option TestVector)) (vectors : List TestVector) :
    List.Forall₂ (fun entry vector => entry = some vector) entries vectors
      ↔ entries = vectors.map some := by
  rw [← List.forall₂_map_right_iff (R := Eq), List.forall₂_eq_eq_eq]

/-- **All test vectors are read, however they are laid out**, whatever stands behind them; where they
are faulty nothing is. -/
theorem read_of_vectorsText {members : List (Option (String × List (Option TestVector)))}
    (hspace : Space text' text) (h : VectorsText members text rest) :
    (∀ vectors, Tells members vectors → TestVectors.reader.read text' = .ok (vectors, rest))
      ∧ (Faulty members → ∃ fault, TestVectors.reader.read text' = .error fault) := by
  have hkeys : categoriesRecord.keys.Nodup := by rw [keys_categoriesRecord]; decide
  rw [VectorsText, ← keys_categoriesRecord] at h
  obtain ⟨hok, herror⟩ := Record.take_of_objectOf understands_category hkeys
    forall₂_some_iff hspace h
  constructor
  · intro vectors htold
    have htake : categoriesRecord.reader.read text' = .ok (#v[vectors.smallPrimes,
        vectors.largePrimes, vectors.smallComposites, vectors.largeComposites], rest) := hok _ htold
    exact Reader.map_read_ok htake
  · intro hfaulty
    obtain ⟨fault, htake⟩ := herror fun all htold => by
      rcases hfaulty with hnames | ⟨member, hmember, hnone⟩
      · exact hnames (htold.map Prod.fst)
      · obtain ⟨i, -, rfl⟩ := List.mem_map.1 (htold.subset hmember)
        simp at hnone
    exact ⟨fault, Reader.map_read_error htake⟩

/-! ## §4. Whole texts. -/

/-- The text is a way to write test vectors, with `rest` behind it. -/
def Rendering (vectors : TestVectors) (text rest : List Char) : Prop :=
  ∃ start members, Space text start ∧ VectorsText members start rest ∧ Tells members vectors

/-- The text is laid out as one that is a way to write test vectors, and it is faulty. -/
def FaultyRendering (text rest : List Char) : Prop :=
  ∃ start members, Space text start ∧ VectorsText members start rest ∧ Faulty members

/-- A text with a rendering at its beginning is decoded if nothing but white space follows. -/
theorem ofJson_of_rendering {json : String} {vectors : TestVectors}
    (h : Rendering vectors json.toList rest) :
    TestVectors.ofJson json = if skipSpace rest = [] then .ok vectors
      else .error (.json ((Json.Fault.behind (skipSpace rest) .trailingCharacters).refusal
        json.toList)) := by
  obtain ⟨start, members, hstart, htext, htold⟩ := h
  have hread := (read_of_vectorsText hstart htext).1 vectors htold
  rw [TestVectors.ofJson, Reader.readAll, hread]
  dsimp only
  cases skipSpace rest with
  | nil => rfl
  | cons c rest => rfl

/-- The list of a category, as it is written. -/
theorem writes_category (category : Category) {entries : List (Option TestVector)}
    {written : List String}
    (h : List.Forall₂ (fun entry text => Writes EntryText entry text.toList) entries written) :
    Writes (Member (Category.all.map Category.key) fun _ => ListOf EntryText)
      (some (category.key, entries)) (writtenMember category.key (Json.writtenList written)).toList := by
  refine Json.member_writtenMember (List.mem_map_of_mem (Category.mem_all category)) ?_
    (Json.listOf_writtenList h)
  cases category <;> decide

/-- A member that nobody asks for. -/
def unasked : String := "\"x\": null"

theorem writes_unasked {γ : Type} {names : List String} (hx : ['x'] ∉ names.map String.toList)
    (value : String → γ → List Char → List Char → Prop) :
    Writes (Member names value) none unasked.toList := by
  intro rest
  have hname : QuotedText ['x'] (unasked.toList ++ rest)
      (':' :: ' ' :: 'n' :: 'u' :: 'l' :: 'l' :: rest) :=
    ⟨_, rfl, .plain (by decide) (by decide) (by decide) .close⟩
  exact .other hx hname (Space.refl _) ⟨[' '], by simp [Json.IsBlank], rfl⟩ .nullWord

/-- The vector of 3, its last member first. -/
def turnedThree : String :=
  Json.writtenObject
    [writtenMember "s" "1", unasked, writtenMember "d" "\"1\"", writtenMember "n" "\"3\""]

theorem writes_turnedThree : Writes EntryText (some ⟨3, 1, 1⟩) turnedThree.toList := by
  have hs : Writes (Member ["n", "d", "s"] VectorMember) (some ("s", 1))
      (writtenMember "s" "1").toList :=
    Json.member_writtenMember (by decide) (by decide) fun rest =>
      .s (Json.wordText_toDigits (by decide : 1 < 2 ^ 64) rest)
  have hd : Writes (Member ["n", "d", "s"] VectorMember) (some ("d", 1))
      (writtenMember "d" "\"1\"").toList :=
    Json.member_writtenMember (by decide) (by decide) fun rest => .d (Json.decimalText_toDigits 1 rest)
  have hn : Writes (Member ["n", "d", "s"] VectorMember) (some ("n", 3))
      (writtenMember "n" "\"3\"").toList :=
    Json.member_writtenMember (by decide) (by decide) fun rest => .n (Json.decimalText_toDigits 3 rest)
  have hmembers := Json.objectOf_writtenObject
    (.cons hs (.cons (writes_unasked (by decide) _) (.cons hd (.cons hn .nil))))
  exact fun rest => .vector (hmembers rest) (by decide)

/-- One vector and three empty lists.  Their members stand in another order, with some among them that
nobody asked for. -/
def scatteredThree : String :=
  " \x7b\"smallComposites\":[],\"x\": null,\"largePrimes\":[],\"largeComposites\":[],"
    ++ "\"smallPrimes\":[\x7b\"s\":1,\"x\": null,\"d\":\"1\",\"n\":\"3\"\x7d]\x7d"

/-- The text is a way to write them, whatever stands behind it. -/
theorem rendering_scatteredThree (rest : List Char) :
    Rendering ⟨[⟨3, 1, 1⟩], [], [], []⟩ (scatteredThree.toList ++ rest) rest := by
  have hall := Json.objectOf_writtenObject
    (.cons (writes_category .smallComposites .nil) (.cons (writes_unasked (by decide) _)
      (.cons (writes_category .largePrimes .nil) (.cons (writes_category .largeComposites .nil)
        (.cons (writes_category .smallPrimes (.cons writes_turnedThree .nil)) .nil)))))
  have htext : scatteredThree = " " ++ Json.writtenObject
      [writtenMember "smallComposites" (Json.writtenList []), unasked,
        writtenMember "largePrimes" (Json.writtenList []),
        writtenMember "largeComposites" (Json.writtenList []),
        writtenMember "smallPrimes" (Json.writtenList [turnedThree])] := by
    decide +kernel
  -- White space in front of an object is all that is left to account for.
  rw [htext, String.toList_append, List.append_assoc]
  exact ⟨_, _, ⟨" ".toList, by simp [Json.IsBlank], rfl⟩, hall rest, by unfold Tells; decide⟩

/-- **Decoding does not depend on the layout and is never partial.**  A text that is a way to write test
vectors is decoded as these, and the only text that may stand behind it is white space.  A text in which
a member that has to be there is missing, or is there more than once, is refused. -/
theorem ofJson_layout :
    (∀ (json : String) (vectors : TestVectors) (rest : List Char),
      Rendering vectors json.toList rest →
        ((∀ c ∈ rest, Json.IsBlank c) → TestVectors.ofJson json = .ok vectors)
        ∧ ((∃ c ∈ rest, ¬ Json.IsBlank c) →
          ∃ refusal, TestVectors.ofJson json = .error (.json refusal)))
    ∧ ∀ (json : String) (rest : List Char), FaultyRendering json.toList rest →
      ∃ refusal, TestVectors.ofJson json = .error (.json refusal) := by
  constructor
  · intro json vectors rest h
    rw [ofJson_of_rendering h]
    constructor
    · intro hblank
      rw [if_pos (Json.skipSpace_eq_nil_iff.2 hblank)]
    · rintro ⟨c, hc, hother⟩
      rw [if_neg fun hblank => hother (Json.skipSpace_eq_nil_iff.1 hblank c hc)]
      exact ⟨_, rfl⟩
  · rintro json rest ⟨start, members, hstart, htext, hfaulty⟩
    obtain ⟨fault, hread⟩ := (read_of_vectorsText hstart htext).2 hfaulty
    refine ⟨fault.refusal json.toList, ?_⟩
    rw [TestVectors.ofJson, Reader.readAll, hread]

/-- That text is decoded with a line break behind it and refused with a digit there; a text that lacks
two of the lists is refused. -/
theorem ofJson_layout_scatteredThree :
    (∀ rest : String,
        Rendering ⟨[⟨3, 1, 1⟩], [], [], []⟩ (scatteredThree ++ rest).toList rest.toList)
      ∧ TestVectors.ofJson (scatteredThree ++ "\n") = .ok ⟨[⟨3, 1, 1⟩], [], [], []⟩
      ∧ (∃ refusal, TestVectors.ofJson (scatteredThree ++ "0") = .error (.json refusal))
      ∧ FaultyRendering "\x7b\"smallPrimes\":[],\"largePrimes\":[]\x7d".toList []
      ∧ ∃ refusal, TestVectors.ofJson "\x7b\"smallPrimes\":[],\"largePrimes\":[]\x7d"
        = .error (.json refusal) := by
  have hrendering (rest : String) :
      Rendering ⟨[⟨3, 1, 1⟩], [], [], []⟩ (scatteredThree ++ rest).toList rest.toList := by
    rw [String.toList_append]
    exact rendering_scatteredThree rest.toList
  have hfaulty : FaultyRendering "\x7b\"smallPrimes\":[],\"largePrimes\":[]\x7d".toList [] :=
    ⟨_, _, Space.refl _, Json.objectOf_writtenObject
      (.cons (writes_category .smallPrimes .nil) (.cons (writes_category .largePrimes .nil) .nil)) [],
      Or.inl (by decide)⟩
  refine ⟨hrendering, ?_, ?_, hfaulty, ofJson_layout.2 _ _ hfaulty⟩
  · exact (ofJson_layout.1 _ _ _ (hrendering "\n")).1 (by simp [Json.IsBlank])
  · exact (ofJson_layout.1 _ _ _ (hrendering "0")).2 ⟨'0', by decide, by simp [Json.IsBlank]⟩

end ProbablePrime.Vectors
