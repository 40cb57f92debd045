/-
  ProbablePrime.Vectors.Category — the four lists of test vectors.

  What is known of the lists one by one is one function each of `Category`; what exists once for
  every list is a `PerCategory`.
-/
namespace ProbablePrime.Vectors

/-! ## §1. Categories. -/

/-- A list of test vectors. -/
inductive Category where
  /-- Primes that fit a machine word. -/
  | smallPrimes
  /-- Longer primes. -/
  | largePrimes
  /-- Composites that fit a machine word. -/
  | smallComposites
  /-- Longer composites. -/
  | largeComposites
  deriving DecidableEq, Repr

namespace Category

/-- Every category, in the order in which lists are read, classified and written. -/
def all : List Category := [smallPrimes, largePrimes, smallComposites, largeComposites]

theorem mem_all (category : Category) : category ∈ all := by cases category <;> decide

/-- Whether the numbers of the list have to be prime. -/
def expectsPrime : Category → Bool
  | smallPrimes | largePrimes => true
  | smallComposites | largeComposites => false

/-- The name of the file that holds the list. -/
def fileName : Category → String
  | smallPrimes => "first-primes.json"
  | largePrimes => "large-primes.json"
  | smallComposites => "first-composites.json"
  | largeComposites => "large-composites.json"

/-- The name under which the list is written. -/
def key : Category → String
  | smallPrimes => "smallPrimes"
  | largePrimes => "largePrimes"
  | smallComposites => "smallComposites"
  | largeComposites => "largeComposites"

end Category

/-! ## §2. Something for every category. -/

/-- An `α` for every category. -/
structure PerCategory (α : Type) where
  /-- What belongs to the small primes. -/
  smallPrimes : α
  /-- What belongs to the large primes. -/
  largePrimes : α
  /-- What belongs to the small composites. -/
  smallComposites : α
  /-- What belongs to the large composites. -/
  largeComposites : α
  deriving DecidableEq, Repr

namespace PerCategory

variable {α : Type}

/-- What belongs to a category. -/
def get (xs : PerCategory α) : Category → α
  | .smallPrimes => xs.smallPrimes
  | .largePrimes => xs.largePrimes
  | .smallComposites => xs.smallComposites
  | .largeComposites => xs.largeComposites

/-- The values of a function on categories. -/
def ofFn (f : Category → α) : PerCategory α :=
  ⟨f .smallPrimes, f .largePrimes, f .smallComposites, f .largeComposites⟩

/-- Computes what belongs to each category, in the order of `Category.all`. -/
def build {m : Type → Type} [Monad m] (f : Category → m α) : m (PerCategory α) := do
  let smallPrimes ← f .smallPrimes
  let largePrimes ← f .largePrimes
  let smallComposites ← f .smallComposites
  let largeComposites ← f .largeComposites
  return ⟨smallPrimes, largePrimes, smallComposites, largeComposites⟩

@[simp]
theorem get_ofFn (f : Category → α) (category : Category) : (ofFn f).get category = f category := by
  cases category <;> rfl

/-- What is the same for every category is the same. -/
theorem ext_get {xs ys : PerCategory α} (h : ∀ category, xs.get category = ys.get category) :
    xs = ys := by
  cases xs
  cases ys
  exact congr (congr (congr (congrArg _ (h .smallPrimes)) (h .largePrimes)) (h .smallComposites))
    (h .largeComposites)

end PerCategory

end ProbablePrime.Vectors
