/-
  ProbablePrime.Entropy.Source — where random bytes come from.

  A source answers a request for a number of bytes and moves on to its next state, whether or not
  it could serve the request.  Nothing else is known of a source: what is stated for every source
  is stated for adversarial ones too.

  Two sources that need no arithmetic stand here: a finite tape and a source that always fails.
-/
import ProbablePrime.Error

namespace ProbablePrime.Entropy

/-! ## §1. Sources. -/

/-- A source of random bytes whose state is a `σ`. -/
class Source (σ : Type) where
  /-- Answers a request for `count` bytes. -/
  fill : (count : Nat) → σ → Except PrimeError (List UInt8) × σ
  /-- A request that is served is served in full. -/
  length_of_fill : ∀ {count : Nat} {s : σ} {bytes : List UInt8},
    (fill count s).1 = .ok bytes → bytes.length = count

/-! ## §2. A finite tape. -/

/-- Bytes that are read once, front to back. -/
structure Tape where
  /-- The bytes that are still to be read. -/
  bytes : List UInt8
  deriving DecidableEq, Repr

/-- Reads the next `count` bytes; a request that the tape cannot serve in full fails and reads
nothing. -/
def Tape.fill (count : Nat) (tape : Tape) : Except PrimeError (List UInt8) × Tape :=
  if count ≤ tape.bytes.length then
    (.ok (tape.bytes.take count), ⟨tape.bytes.drop count⟩)
  else
    (.error (.entropy "tape exhausted"), tape)

theorem Tape.length_of_fill {count : Nat} {tape : Tape} {bytes : List UInt8}
    (h : (tape.fill count).1 = .ok bytes) : bytes.length = count := by
  unfold Tape.fill at h
  split at h
  · next hle =>
    obtain rfl : tape.bytes.take count = bytes := Except.ok.inj h
    simp [hle]
  · simp at h

instance : Source Tape where
  fill := Tape.fill
  length_of_fill := Tape.length_of_fill

/-! ## §3. A source that fails. -/

/-- A source that serves no request, not even an empty one. -/
structure Failing where
  /-- Why it fails. -/
  reason : String
  deriving DecidableEq, Repr

instance : Source Failing where
  fill _ source := (.error (.entropy source.reason), source)
  length_of_fill h := by simp at h

end ProbablePrime.Entropy
