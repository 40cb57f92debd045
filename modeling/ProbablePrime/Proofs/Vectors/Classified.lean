/-
  ProbablePrime.Proofs.Vectors.Classified — lists that were read, and vectors that were classified.

  A list is read from the file of its category, and classified under the name of the same category.
  Four such computations run one after the other; what holds of each of them for its own category
  holds of all categories of the result, so no two of them can be confused.

  Main results:
    * `exists_text_of_load` — every list is what its file says;
    * `fits_of_classify` — a test vector decomposes its number, which is what its category says;
    * `fits_of_ofInputs` — the vectors of a category are those of its list, in order.
-/
import ProbablePrime.Primality.Lemmas
import ProbablePrime.Proofs.Primality.Passing
import ProbablePrime.Vectors.TestVector

namespace ProbablePrime.Vectors

open Entropy (Source)
open Primality (Passable check decompose)

variable {σ : Type} {fuel rounds : Nat} {category : Category}

/-! ## §1. Category by category. -/

/-- What was computed for every category was computed for each of them. -/
theorem exists_of_runIn_build {ε α : Type} {f : Category → Draw σ ε α} {xs : PerCategory α}
    {session session' : Session σ} (h : (PerCategory.build f).runIn session = (.ok xs, session'))
    (category : Category) :
    ∃ before after, (f category).runIn before = (.ok (xs.get category), after) := by
  unfold PerCategory.build at h
  obtain ⟨smallPrimes, s₁, h₁, h⟩ := Draw.runIn_bind_eq_ok.1 h
  obtain ⟨largePrimes, s₂, h₂, h⟩ := Draw.runIn_bind_eq_ok.1 h
  obtain ⟨smallComposites, s₃, h₃, h⟩ := Draw.runIn_bind_eq_ok.1 h
  obtain ⟨largeComposites, s₄, h₄, h⟩ := Draw.runIn_bind_eq_ok.1 h
  rw [Draw.runIn_pure_eq_ok] at h
  rw [← h.1]
  cases category with
  | smallPrimes => exact ⟨session, s₁, h₁⟩
  | largePrimes => exact ⟨s₁, s₂, h₂⟩
  | smallComposites => exact ⟨s₂, s₃, h₃⟩
  | largeComposites => exact ⟨s₃, s₄, h₄⟩

/-- What can be computed for each category from every session can be computed for all. -/
theorem exists_runIn_build {ε α : Type} {f : Category → Draw σ ε α} {xs : PerCategory α}
    (hf : ∀ category session, ∃ after, (f category).runIn session = (.ok (xs.get category), after))
    (session : Session σ) : ∃ after, (PerCategory.build f).runIn session = (.ok xs, after) := by
  obtain ⟨s₁, h₁⟩ := hf .smallPrimes session
  obtain ⟨s₂, h₂⟩ := hf .largePrimes s₁
  obtain ⟨s₃, h₃⟩ := hf .smallComposites s₂
  obtain ⟨s₄, h₄⟩ := hf .largeComposites s₃
  refine ⟨s₄, ?_⟩
  unfold PerCategory.build
  rw [Draw.runIn_bind_of_ok h₁, Draw.runIn_bind_of_ok h₂, Draw.runIn_bind_of_ok h₃,
    Draw.runIn_bind_of_ok h₄]
  rfl

/-! ## §2. Lists from files. -/

section

variable {readText : String → Except FileFault String} {directory : String}
  {session session' : Session σ}

theorem exists_text_of_loadList {numbers : List Nat}
    (h : (loadList readText directory category).runIn session = (.ok numbers, session')) :
    ∃ text, readText (Files.join directory category.fileName) = .ok text
      ∧ parseList text = .ok numbers := by
  unfold loadList at h
  obtain ⟨text, s₁, htext, h⟩ := Draw.runIn_bind_eq_ok.1 h
  obtain ⟨list, s₂, hlist, h⟩ := Draw.runIn_bind_eq_ok.1 h
  obtain ⟨-, s₃, -, h⟩ := Draw.runIn_bind_eq_ok.1 h
  rw [Draw.runIn_ofExcept_eq_ok] at htext hlist
  rw [Draw.runIn_pure_eq_ok] at h
  obtain ⟨rfl, -⟩ := h
  refine ⟨text, ?_, hlist.1⟩
  cases hread : readText (Files.join directory category.fileName) with
  | error fault =>
    rw [hread] at htext
    cases htext.1
  | ok text' =>
    rw [hread] at htext
    exact congrArg Except.ok (Except.ok.inj htext.1)

/-- A list that can be read is read, and an event says so. -/
theorem runIn_loadList_of_read {text : String} {numbers : List Nat}
    (hread : readText (Files.join directory category.fileName) = .ok text)
    (hlist : parseList text = .ok numbers) :
    (loadList readText directory category).runIn session
      = (.ok numbers,
          session.noted (loaded numbers.length (Files.join directory category.fileName))) := by
  unfold loadList
  dsimp only
  rw [hread]
  show ((Draw.ofExcept (parseList text) : Draw σ VectorError (List Nat)) >>= fun numbers => do
    Draw.note (loaded numbers.length (Files.join directory category.fileName))
    return numbers).runIn session = _
  rw [hlist]
  rfl

/-- **Every list that was read is the list of its own file.** -/
theorem exists_text_of_load {inputs : Inputs}
    (h : (load readText directory).runIn session = (.ok inputs, session')) (category : Category) :
    ∃ text, readText (Files.join directory category.fileName) = .ok text
      ∧ parseList text = .ok (inputs.get category) := by
  obtain ⟨before, after, hlist⟩ := exists_of_runIn_build h category
  exact exists_text_of_loadList hlist

end

/-! ## §3. Test vectors. -/

/-- A test vector decomposes its number, and the number is what the category says: composite in the
one kind of list, and able to pass a check in the other. -/
structure TestVector.Fits (category : Category) (vector : TestVector) : Prop where
  /-- The first part of the decomposition is odd. -/
  odd : vector.d % 2 = 1
  /-- The parts make up the number. -/
  eq : vector.n = vector.d * 2 ^ vector.s + 1
  /-- In a list of composites there is no prime. -/
  composite : category.expectsPrime = false → ¬ vector.n.Prime
  /-- In a list of primes there is nothing that fails a check. -/
  passable : category.expectsPrime = true → Passable vector.n

variable [Source σ] {session session' : Session σ}

/-- **A test vector belongs to its number and fits its category.** -/
theorem fits_of_classify {n : Nat} {vector : TestVector}
    (h : (classify fuel rounds category n).runIn session = (.ok vector, session')) :
    vector.n = n ∧ vector.Fits category := by
  unfold classify at h
  obtain ⟨verdict, mid, hwiden, h⟩ := Draw.runIn_bind_eq_ok.1 h
  have hcheck : (check fuel rounds n).runIn session = (.ok verdict, mid) :=
    Draw.runIn_widen_eq_ok.1 hwiden
  have hparts : verdict.decomposition = decompose n := Primality.decomposition_of_check hcheck
  split at h
  · simp at h
  · next parts hsome =>
    split at h
    · next hkind =>
      rw [Draw.runIn_pure_eq_ok] at h
      obtain ⟨rfl, -⟩ := h
      have hof := Primality.Decomposition.Of.of_decompose (hparts.symm.trans hsome)
      refine ⟨rfl, hof.odd, hof.eq, ?_, ?_⟩
      · intro hcomposite
        exact Primality.not_prime_of_failed hcheck (hkind.trans hcomposite)
      · intro hprime
        exact Passable.of_check hcheck (hkind.trans hprime)
    · simp at h

/-- A settled number that is what its category says is classified without a draw. -/
theorem runIn_classify_of_settled {n : Nat} {parts : Primality.Decomposition} (hrounds : rounds ≠ 0)
    (hn : Primality.Settled n) (hparts : decompose n = some parts)
    (hkind : decide n.Prime = category.expectsPrime) :
    (classify fuel rounds category n).runIn session = (.ok ⟨n, parts.d, parts.s⟩, session) := by
  have hcheck : ((check fuel rounds n).widen VectorError.prime).runIn session
      = (.ok ⟨decide n.Prime, some parts⟩, session) := by
    rw [Draw.runIn_widen_eq_ok, Primality.check_of_settled hrounds hn, hparts]
    rfl
  unfold classify
  rw [Draw.runIn_bind_of_ok hcheck]
  dsimp only
  rw [if_pos hkind]
  rfl

/-- Lists that go side by side, each vector with its own number, tell the same numbers. -/
theorem map_eq_of_forall₂ {numbers : List Nat} {vectors : List TestVector}
    (h : List.Forall₂ (fun n vector => vector.n = n ∧ vector.Fits category) numbers vectors) :
    vectors.map (·.n) = numbers ∧ ∀ vector ∈ vectors, vector.Fits category := by
  induction h with
  | nil =>
    refine ⟨rfl, ?_⟩
    intro vector hvector
    simp at hvector
  | cons hfirst _ ih =>
    obtain ⟨hn, hfits⟩ := hfirst
    obtain ⟨hmap, hall⟩ := ih
    constructor
    · rw [List.map_cons, hn, hmap]
    · intro vector hvector
      rcases List.mem_cons.1 hvector with rfl | hvector
      · exact hfits
      · exact hall vector hvector

/-- The vectors of a list are those of its numbers, one by one. -/
theorem fits_of_classifyList {inputs : Inputs} {vectors : List TestVector}
    (h : (classifyList fuel rounds inputs category).runIn session = (.ok vectors, session')) :
    vectors.map (·.n) = inputs.get category ∧ ∀ vector ∈ vectors, vector.Fits category := by
  unfold classifyList at h
  obtain ⟨list, mid, hlist, h⟩ := Draw.runIn_bind_eq_ok.1 h
  obtain ⟨-, last, -, h⟩ := Draw.runIn_bind_eq_ok.1 h
  rw [Draw.runIn_pure_eq_ok] at h
  obtain ⟨rfl, -⟩ := h
  refine map_eq_of_forall₂ ((Draw.forall₂_of_runIn_mapM hlist).imp ?_)
  intro n vector hrun
  obtain ⟨before, after, hclassify⟩ := hrun
  exact fits_of_classify hclassify

/-- **The vectors of every category are those of its list, in order**, and each fits. -/
theorem fits_of_ofInputs {inputs : Inputs} {vectors : TestVectors}
    (h : (TestVectors.ofInputs fuel rounds inputs).runIn session = (.ok vectors, session'))
    (category : Category) :
    (vectors.get category).map (·.n) = inputs.get category
      ∧ ∀ vector ∈ vectors.get category, vector.Fits category := by
  obtain ⟨before, after, hlist⟩ := exists_of_runIn_build h category
  exact fits_of_classifyList hlist

end ProbablePrime.Vectors
