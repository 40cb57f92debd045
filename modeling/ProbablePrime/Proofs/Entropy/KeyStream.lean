/-
  ProbablePrime.Proofs.Entropy.KeyStream — which bytes of a key stream a request gets.

  The stream computes whole blocks and cuts from them what a request needs.  Both cuts, of words from
  blocks and of bytes from words, are the same lemma: places in pieces of one length are places in
  the whole (`flatMap_pieces`).  What a request gets is then a row of bytes of the stream itself, and
  where blocks begin and end has disappeared.

  A row of requests takes a row of words: each request as many as its bytes need, from where the one
  before it stopped.

  Main results:
    * `fill_eq` — a request gets the bytes of the next words, least significant byte first;
    * `seeded_stream_shared` — the requests of all handles on a seeded stream, in any order.
-/
import Mathlib
import ProbablePrime.Entropy.KeyStream
import ProbablePrime.Proofs.Entropy.Shared

namespace ProbablePrime.Entropy

namespace KeyStream

/-! ## §1. Pieces. -/

/-- Pieces of `size` places each, one after the other, are all the places. -/
theorem flatMap_pieces {α : Type} (size : Nat) (f : Nat → α) (start count : Nat) :
    (List.range' start count).flatMap (fun i => (List.range' (size * i) size).map f)
      = (List.range' (size * start) (size * count)).map f := by
  induction count generalizing start with
  | zero => simp
  | succ count ih =>
    rw [List.range'_succ, List.flatMap_cons, ih, ← List.map_append, Nat.mul_succ size start,
      List.range'_append_1, Nat.mul_succ size count, Nat.add_comm]

/-- The first places of a longer row. -/
theorem take_map_range' {α : Type} (f : Nat → α) (start : Nat) {count total : Nat}
    (h : count ≤ total) :
    ((List.range' start total).map f).take count = (List.range' start count).map f := by
  obtain ⟨rest, rfl⟩ := Nat.exists_eq_add_of_le h
  rw [← List.range'_append_1, List.map_append, List.take_left' (by simp)]

/-! ## §2. Words. -/

/-- A block is sixteen words of the stream. -/
theorem toList_block (key : Vector UInt32 8) (i : Nat) :
    (ChaCha.block key (UInt64.ofNat i)).toList = (List.range' (16 * i) 16).map (word key) := by
  apply List.ext_getElem (by simp)
  intro j hj _
  have hlt : j < 16 := by simpa using hj
  have hblock : (16 * i + j) / 16 = i := by omega
  have hplace : (16 * i + j) % 16 = j := by omega
  simp only [List.getElem_map, List.getElem_range', Nat.one_mul, word, hblock, hplace]
  rfl

theorem blocks_eq (key : Vector UInt32 8) (start count : Nat) :
    blocks key start count = (List.range' (16 * start) (16 * count)).map (word key) := by
  rw [← flatMap_pieces]
  simp only [blocks, toList_block]

/-- The words that are cut from blocks are those of the stream. -/
theorem words_eq (key : Vector UInt32 8) (start count : Nat) :
    words key start count = (List.range' start count).map (word key) := by
  have hstart : 16 * (start / 16) + start % 16 * 1 = start := by omega
  rw [words, blocks_eq, ← List.map_drop, List.drop_range', hstart,
    take_map_range' _ _ (by omega)]

/-! ## §3. Bytes. -/

/-- The byte of number `k` in the stream: the stream is its words, least significant byte first. -/
def byteAt (key : Vector UInt32 8) (k : Nat) : UInt8 :=
  UInt8.ofNat ((word key (k / 4)).toNat / 256 ^ (k % 4))

/-- The first `count` bytes of the words from number `start` on. -/
def bytesFrom (key : Vector UInt32 8) (start count : Nat) : List UInt8 :=
  (List.range' (4 * start) count).map (byteAt key)

/-- The bytes of a word are the digits of its value. -/
theorem wordBytes_eq (w : UInt32) :
    wordBytes w = (List.range 4).map fun j => UInt8.ofNat (w.toNat / 256 ^ j) := by
  have hshift (k j : Nat) (hk : k = 8 * j) (hj : j < 4) :
      (w >>> UInt32.ofNat k).toUInt8 = UInt8.ofNat (w.toNat / 256 ^ j) := by
    subst hk
    have hturn : (UInt32.ofNat (8 * j)).toNat % 32 = 8 * j := by
      simp only [UInt32.toNat_ofNat']
      omega
    rw [← UInt8.ofNat_uInt32ToNat, UInt32.toNat_shiftRight, hturn, Nat.shiftRight_eq_div_pow,
      Nat.pow_mul]
  have hzero : w.toUInt8 = UInt8.ofNat (w.toNat / 256 ^ 0) := by
    rw [Nat.pow_zero, Nat.div_one, UInt8.ofNat_uInt32ToNat]
  have hone : (w >>> 8).toUInt8 = UInt8.ofNat (w.toNat / 256 ^ 1) := hshift 8 1 rfl (by decide)
  have htwo : (w >>> 16).toUInt8 = UInt8.ofNat (w.toNat / 256 ^ 2) := hshift 16 2 rfl (by decide)
  have hthree : (w >>> 24).toUInt8 = UInt8.ofNat (w.toNat / 256 ^ 3) :=
    hshift 24 3 rfl (by decide)
  rw [wordBytes, hzero, hone, htwo, hthree]
  rfl

/-- The bytes of a word are four bytes of the stream. -/
theorem wordBytes_word (key : Vector UInt32 8) (i : Nat) :
    wordBytes (word key i) = (List.range' (4 * i) 4).map (byteAt key) := by
  rw [wordBytes_eq, List.range'_eq_map_range, List.map_map]
  refine List.map_congr_left fun j hj => ?_
  have hlt : j < 4 := List.mem_range.1 hj
  have hword : (4 * i + j) / 4 = i := by omega
  have hplace : (4 * i + j) % 4 = j := by omega
  simp only [Function.comp_apply, byteAt, hword, hplace]

theorem wordsFor_eq_ceilDiv (count : Nat) : wordsFor count = count ⌈/⌉ 4 := rfl

/-- A request gets the bytes of the next words, as many as its bytes need, and what is left of the
last word is lost. -/
theorem fill_eq (key : Vector UInt32 8) (position count : Nat) :
    Source.fill count (⟨key, position⟩ : KeyStream)
      = (.ok (bytesFrom key position count), ⟨key, position + count ⌈/⌉ 4⟩) := by
  have hbytes : ((words key position (wordsFor count)).flatMap wordBytes).take count
      = bytesFrom key position count := by
    rw [words_eq, List.flatMap_map]
    simp only [wordBytes_word]
    rw [flatMap_pieces, take_map_range' _ _ (by unfold wordsFor; omega), bytesFrom]
  rw [← wordsFor_eq_ceilDiv, ← hbytes]
  rfl

/-! ## §4. Rows of requests. -/

/-- How many words a row of requests takes. -/
def wordsOf (counts : List Nat) : Nat := (counts.map (· ⌈/⌉ 4)).sum

theorem wordsOf_take_succ {counts : List Nat} {i : Nat} (h : i < counts.length) :
    wordsOf (counts.take (i + 1)) = wordsOf (counts.take i) + counts[i] ⌈/⌉ 4 := by
  rw [wordsOf, ← List.take_concat_get' _ i h, List.map_append, List.sum_append]
  rfl

theorem wordsOf_take_mono (counts : List Nat) : Monotone fun i => wordsOf (counts.take i) := by
  refine monotone_nat_of_le_succ fun i => ?_
  by_cases h : i < counts.length
  · rw [wordsOf_take_succ h]
    exact Nat.le_add_right _ _
  · rw [List.take_of_length_le (by omega), List.take_of_length_le (by omega)]

/-- A row of requests is served from words that follow each other. -/
theorem exchangesAlone_eq (key : Vector UInt32 8) (position : Nat) (counts : List Nat) :
    exchangesAlone (⟨key, position⟩ : KeyStream) counts
      = List.ofFn fun i : Fin counts.length =>
          (counts[i],
            some (.ok (bytesFrom key (position + wordsOf (counts.take i)) counts[i]))) := by
  induction counts generalizing position with
  | nil => rfl
  | cons count rest ih =>
    rw [exchangesAlone, fill_eq, ih, List.ofFn_succ]
    simp [wordsOf, Nat.add_assoc]

/-- A value below the last of a rising row of bounds that starts at zero lies between two of them
that follow each other, and only there. -/
theorem lt_iff_existsUnique_between {bound : Nat → Nat} (hmono : Monotone bound)
    (hzero : bound 0 = 0) (count w : Nat) :
    w < bound count ↔ ∃! i, i < count ∧ bound i ≤ w ∧ w < bound (i + 1) := by
  constructor
  · intro hw
    have hexists : ∃ i, i < count ∧ bound i ≤ w ∧ w < bound (i + 1) := by
      induction count with
      | zero => omega
      | succ count ih =>
        by_cases hlast : bound count ≤ w
        · exact ⟨count, by omega, hlast, hw⟩
        · obtain ⟨i, hi, hbetween⟩ := ih (by omega)
          exact ⟨i, by omega, hbetween⟩
    obtain ⟨i, hi⟩ := hexists
    refine ⟨i, hi, fun j hj => ?_⟩
    -- Of two places one would end before the other starts.
    rcases Nat.lt_trichotomy i j with hlt | rfl | hlt
    · have := hmono (show i + 1 ≤ j from hlt)
      omega
    · rfl
    · have := hmono (show j + 1 ≤ i from hlt)
      omega
  · rintro ⟨i, ⟨hi, -, hlt⟩, -⟩
    exact lt_of_lt_of_le hlt (hmono hi)

/-- **All handles draw from one stream.**  A handle on the stream of a seed is made, and whatever is
done from then on to it, to its clones, to clones of those and to other sources: the requests of that
family never fail, and each of them gets the bytes of the words that follow those taken by the
requests before it.  So every word that was passed belongs to exactly one request. -/
theorem seeded_stream_shared (pool : Pool KeyStream) (first : String) (seed : UInt64)
    (history : List (Use KeyStream)) :
    let counts := requestsOf (alone first) history
    (pool.make first (ofSeed seed)).exchanges (alone first) history
        = (List.ofFn fun i : Fin counts.length =>
            (counts[i],
              some (.ok (bytesFrom (keyOfSeed seed) (wordsOf (counts.take i)) counts[i]))))
      ∧ ∀ w, w < wordsOf counts
        ↔ ∃! i, i < counts.length
          ∧ wordsOf (counts.take i) ≤ w ∧ w < wordsOf (counts.take (i + 1)) := by
  intro counts
  constructor
  · have hserved := (shares_make first (ofSeed seed) pool).exchanges_eq history
    rw [hserved, ofSeed, ofKey, exchangesAlone_eq]
    simp only [Nat.zero_add]
    rfl
  · intro w
    have hbetween := lt_iff_existsUnique_between (wordsOf_take_mono counts) rfl counts.length w
    simpa only [List.take_length] using hbetween

/-- The clone of a clone is asked first; the request past the family does not count, and neither
does one through a name that was dropped. -/
example : requestsOf (alone "a") ([.clone "a" "b", .clone "b" "c", .ask "c" 3, .make "d" (ofSeed 1),
    .ask "d" 8, .ask "a" 0, .drop "a", .ask "a" 9, .ask "b" 62] : List (Use KeyStream))
      = [3, 0, 62] := by decide

end KeyStream

end ProbablePrime.Entropy
