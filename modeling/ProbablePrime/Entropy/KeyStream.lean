/-
  ProbablePrime.Entropy.KeyStream — the ChaCha20 key stream as a source of bytes.

  The stream of a key is a sequence of 32-bit words, sixteen to a block; a block is a function of
  the key and of its number, so the state of the source is only the number of the next word.  A
  request for `count` bytes takes whole words, least significant byte first, and the bytes of the
  last word that were not asked for are lost.

  A seed of 64 bits is stretched to a key by eight steps of a linear congruential generator whose
  output is permuted.
-/
import ProbablePrime.Entropy.Source

namespace ProbablePrime.Entropy

/-! ## §1. The block function. -/

namespace ChaCha

/-- The words that a block is computed on. -/
abbrev State := Vector UInt32 16

/-- Rotates a word to the left by `k` of its 32 bits. -/
def rotateLeft (x : UInt32) (k : UInt32) : UInt32 := (x <<< k) ||| (x >>> (32 - k))

/-- Stirs four words: add, exclude, rotate, four times. -/
def quarterRound (s : State) (a b c d : Fin 16) : State :=
  let s := s.set a (s[a] + s[b])
  let s := s.set d (rotateLeft (s[d] ^^^ s[a]) 16)
  let s := s.set c (s[c] + s[d])
  let s := s.set b (rotateLeft (s[b] ^^^ s[c]) 12)
  let s := s.set a (s[a] + s[b])
  let s := s.set d (rotateLeft (s[d] ^^^ s[a]) 8)
  let s := s.set c (s[c] + s[d])
  s.set b (rotateLeft (s[b] ^^^ s[c]) 7)

/-- One round over the columns and one over the diagonals. -/
def doubleRound (s : State) : State :=
  let s := quarterRound s 0 4 8 12
  let s := quarterRound s 1 5 9 13
  let s := quarterRound s 2 6 10 14
  let s := quarterRound s 3 7 11 15
  let s := quarterRound s 0 5 10 15
  let s := quarterRound s 1 6 11 12
  let s := quarterRound s 2 7 8 13
  quarterRound s 3 4 9 14

/-- The state that block number `counter` starts from: four constants, the key, the block number
in two words, and two words that stay zero. -/
def start (key : Vector UInt32 8) (counter : UInt64) : State :=
  #v[0x61707865, 0x3320646e, 0x79622d32, 0x6b206574,
    key[0], key[1], key[2], key[3], key[4], key[5], key[6], key[7],
    counter.toUInt32, (counter >>> 32).toUInt32, 0, 0]

/-- Block number `counter`: twenty rounds, added to the state they started from. -/
def block (key : Vector UInt32 8) (counter : UInt64) : State :=
  let first := start key counter
  let last := Nat.repeat doubleRound 10 first
  Vector.zipWith (· + ·) first last

end ChaCha

/-! ## §2. Words and bytes of the stream. -/

/-- A stream of a key, read up to a word. -/
structure KeyStream where
  /-- The key. -/
  key : Vector UInt32 8
  /-- The number of the next word. -/
  position : Nat
  deriving DecidableEq, Repr

namespace KeyStream

/-- The word of number `i` in the stream of a key. -/
def word (key : Vector UInt32 8) (i : Nat) : UInt32 :=
  (ChaCha.block key (UInt64.ofNat (i / 16))).get ⟨i % 16, Nat.mod_lt i (by decide)⟩

/-- The blocks from number `start` on, `count` of them, one after the other. -/
def blocks (key : Vector UInt32 8) (start count : Nat) : List UInt32 :=
  (List.range' start count).flatMap fun i => (ChaCha.block key (UInt64.ofNat i)).toList

/-- The words from number `start` on, `count` of them; every block is computed once. -/
def words (key : Vector UInt32 8) (start count : Nat) : List UInt32 :=
  ((blocks key (start / 16) ((start % 16 + count + 15) / 16)).drop (start % 16)).take count

/-- The four bytes of a word, the least significant first. -/
def wordBytes (w : UInt32) : List UInt8 :=
  [w.toUInt8, (w >>> 8).toUInt8, (w >>> 16).toUInt8, (w >>> 24).toUInt8]

/-- How many words a request for `count` bytes takes. -/
def wordsFor (count : Nat) : Nat := (count + 3) / 4

/-- Takes the words that `count` bytes need and keeps the first `count` bytes of them. -/
def fill (count : Nat) (stream : KeyStream) : Except PrimeError (List UInt8) × KeyStream :=
  (.ok (((words stream.key stream.position (wordsFor count)).flatMap wordBytes).take count),
    { stream with position := stream.position + wordsFor count })

theorem length_blocks (key : Vector UInt32 8) (start count : Nat) :
    (blocks key start count).length = 16 * count := by
  simp [blocks, List.length_flatMap, List.map_const', Nat.mul_comm]

theorem length_words (key : Vector UInt32 8) (start count : Nat) :
    (words key start count).length = count := by
  simp only [words, List.length_take, List.length_drop, length_blocks]
  omega

theorem length_of_fill {count : Nat} {stream : KeyStream} {bytes : List UInt8}
    (h : (stream.fill count).1 = .ok bytes) : bytes.length = count := by
  obtain rfl := Except.ok.inj h
  have hb : ((words stream.key stream.position (wordsFor count)).flatMap wordBytes).length
      = 4 * wordsFor count := by
    simp [List.length_flatMap, wordBytes, length_words, List.map_const', Nat.mul_comm]
  rw [List.length_take, hb]
  unfold wordsFor
  omega

/-! ## §3. Keys from seeds. -/

/-- One step of the generator that stretches a seed. -/
def stretchStep (state : UInt64) : UInt64 :=
  state * 6364136223846793005 + 11634580027462260723

/-- The word that the generator gives away in a state: the state folded onto itself, turned right
by its five highest bits. -/
def stretchWord (state : UInt64) : UInt32 :=
  let folded := (((state >>> 18) ^^^ state) >>> 27).toUInt32
  let turn := (state >>> 59).toUInt32
  -- A turn by zero leaves the word as it is, so the other shift stays below 32 as well.
  (folded >>> turn) ||| (folded <<< ((32 - turn) % 32))

/-- The key of a seed. -/
def keyOfSeed (seed : UInt64) : Vector UInt32 8 :=
  Vector.ofFn fun i => stretchWord (Nat.repeat stretchStep (i.val + 1) seed)

/-- The stream of a key, from its first word. -/
def ofKey (key : Vector UInt32 8) : KeyStream := ⟨key, 0⟩

/-- The stream that a seed fixes. -/
def ofSeed (seed : UInt64) : KeyStream := ofKey (keyOfSeed seed)

end KeyStream

instance : Source KeyStream where
  fill := KeyStream.fill
  length_of_fill := KeyStream.length_of_fill

end ProbablePrime.Entropy
