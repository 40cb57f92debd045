/-
  ProbablePrime.Proofs.Primality.Marking — the places that the sieve reads and writes.

  The table of the sieve has one place for each number below the limit, and a proof comes with every
  access that the place is there.  `Marking.sieve` is the sieve without these proofs: its table is an
  array of any size, an access to a place that the array does not have stops the walk, and what is
  written is kept on a list.

  The walk is never stopped, and it finds the numbers that the sieve finds.  What it has written at
  the end is the composite numbers below the limit: no place outside the table, and no prime.

  Main results:
    * `Table.Records.markFrom` — a sweep, step by step, writes what the sieve's sweep marks;
    * `exists_of_sieveFrom` — so does the walk, and its invariant holds at the end;
    * `sieve_exact` — the sieve at every limit, and trial division with what it finds.
-/
import ProbablePrime.Proofs.Primality.Sieve

namespace ProbablePrime.Primality.Marking

/-! ## §1. Tables that can be missed. -/

/-- A table of marks, and the places that were written to it so far. -/
structure Table where
  /-- The mark of each place. -/
  marks : Array Bool
  /-- The places in the order in which they were written, each as often as it was. -/
  written : List Nat
  deriving DecidableEq, Repr

/-- An access to a place that is not in the table. -/
structure Outside where
  /-- The place. -/
  place : Nat
  /-- How many places there are. -/
  size : Nat
  deriving DecidableEq, Repr

/-- The table for the numbers below `limit`, before anything is written. -/
def Table.blank (limit : Nat) : Table := ⟨Array.replicate limit false, []⟩

/-- The mark at a place. -/
def Table.read (table : Table) (place : Nat) : Except Outside Bool :=
  if h : place < table.marks.size then .ok table.marks[place]
  else .error ⟨place, table.marks.size⟩

/-- Marks a place. -/
def Table.write (table : Table) (place : Nat) : Except Outside Table :=
  if h : place < table.marks.size then
    .ok ⟨table.marks.set place true h, table.written ++ [place]⟩
  else .error ⟨place, table.marks.size⟩

/-! ## §2. The sieve on such a table. -/

/-- Marks `m`, `m + step`, `m + 2 * step`, … below `limit`. -/
def markFrom (limit step : Nat) (step_pos : 0 < step) (table : Table) (m : Nat) :
    Except Outside Table :=
  if m < limit then do
    let table ← table.write m
    markFrom limit step step_pos table (m + step)
  else
    return table
termination_by limit - m

/-- The numbers from `i` on that are not marked when they are reached, with the table as it is left
behind. -/
def sieveFrom (limit : Nat) (table : Table) (i : Nat) (i_pos : 0 < i) :
    Except Outside (List Nat × Table) :=
  if i < limit then do
    if ← table.read i then
      sieveFrom limit table (i + 1) (by omega)
    else
      let table ← markFrom limit i i_pos table (i * i)
      let (primes, table) ← sieveFrom limit table (i + 1) (by omega)
      return (i :: primes, table)
  else
    return ([], table)
termination_by limit - i

/-- The primes below `limit`, and the table in which they were found. -/
def sieve (limit : Nat) : Except Outside (List Nat × Table) :=
  sieveFrom limit (Table.blank limit) 2 Nat.two_pos

/-! ## §3. What a table records. -/

variable {limit : Nat}

/-- The table holds the same marks as `marked`, and the marks stand where it was written. -/
structure Table.Records (table : Table) (marked : Vector Bool limit) : Prop where
  /-- The marks are the same. -/
  marks : table.marks = marked.toArray
  /-- What was written is what is marked. -/
  written : ∀ m, m ∈ table.written ↔ ∃ h : m < limit, marked[m] = true

namespace Table.Records

variable {table : Table} {marked : Vector Bool limit}

theorem blank (limit : Nat) : (Table.blank limit).Records (Vector.replicate limit false) where
  marks := rfl
  written := by
    intro m
    constructor
    · intro h
      exact absurd h List.not_mem_nil
    · intro h
      obtain ⟨hm, hmark⟩ := h
      rw [Vector.getElem_replicate] at hmark
      exact absurd hmark Bool.false_ne_true

theorem size_eq (h : table.Records marked) : table.marks.size = limit := by
  rw [h.marks, Vector.size_toArray]

/-- Every place below the limit can be read. -/
theorem read_eq (h : table.Records marked) {i : Nat} (hi : i < limit) :
    table.read i = .ok marked[i] := by
  have hplace : i < table.marks.size := by
    rw [h.size_eq]
    exact hi
  unfold Table.read
  rw [dif_pos hplace]
  simp only [h.marks, Vector.getElem_toArray]

/-- Every place below the limit can be written, and is on the list then. -/
theorem write (h : table.Records marked) {m : Nat} (hm : m < limit) :
    ∃ table', table.write m = .ok table' ∧ table'.Records (marked.set m true hm) := by
  have hplace : m < table.marks.size := by
    rw [h.size_eq]
    exact hm
  unfold Table.write
  rw [dif_pos hplace]
  refine ⟨_, rfl, ?_, ?_⟩
  · simp only [h.marks, Vector.toArray_set]
  · intro j
    show j ∈ table.written ++ [m] ↔ ∃ hj : j < limit, (marked.set m true hm)[j] = true
    simp only [List.mem_append, List.mem_singleton, h.written, Vector.getElem_set]
    by_cases hjm : j = m
    · subst hjm
      simp [hm]
    · simp [hjm, Ne.symm hjm]

/-- **A sweep writes below the limit, and it writes what is marked.** -/
theorem markFrom (h : table.Records marked) (step : Nat) (step_pos : 0 < step) (m : Nat) :
    ∃ table', Marking.markFrom limit step step_pos table m = .ok table'
      ∧ table'.Records (Primality.markFrom step step_pos marked m) := by
  -- The induction is on the sweep of the sieve; the table is whatever records its marks.
  fun_induction Primality.markFrom step step_pos marked m generalizing table with
  | case1 marked m hm ih =>
    obtain ⟨mid, hwrite, hmid⟩ := h.write hm
    obtain ⟨last, hrest, hlast⟩ := ih hmid
    refine ⟨last, ?_, hlast⟩
    unfold Marking.markFrom
    rw [if_pos hm, hwrite]
    exact hrest
  | case2 marked m hm =>
    refine ⟨table, ?_, h⟩
    unfold Marking.markFrom
    rw [if_neg hm]
    rfl

end Table.Records

/-! ## §4. The walk. -/

/-- **The walk is never stopped, and it finds what the sieve finds.**  At its end the table records
marks that the primes below some number past the limit have made. -/
theorem exists_of_sieveFrom {table : Table} {marked : Vector Bool limit} {i : Nat}
    (h : table.Records marked) (htwo : 2 ≤ i) (hinv : CrossedBelow marked i) (i_pos : 0 < i) :
    ∃ (last : Table) (crossed : Vector Bool limit) (top : Nat),
      sieveFrom limit table i i_pos = .ok (Primality.sieveFrom marked i i_pos, last)
        ∧ last.Records crossed ∧ limit ≤ top ∧ CrossedBelow crossed top := by
  fun_induction Primality.sieveFrom marked i i_pos generalizing table with
  | case1 marked i i_pos hi hmark ih =>
    have hcomp : ¬ i.Prime := (hinv.marked_iff_not_prime htwo le_rfl hi).1 hmark
    obtain ⟨last, crossed, top, hrest, hlast⟩ := ih h (by omega) (hinv.skip hcomp)
    refine ⟨last, crossed, top, ?_, hlast⟩
    unfold sieveFrom
    rw [if_pos hi, h.read_eq hi, hmark]
    exact hrest
  | case2 marked i i_pos hi hmark ih =>
    have hprime : i.Prime := hinv.prime_of_not_marked htwo hi hmark
    -- The sweep comes before the rest of the walk and leaves it the marks of one more prime.
    obtain ⟨mid, hsweep, hmid⟩ := h.markFrom i i_pos (i * i)
    obtain ⟨last, crossed, top, hrest, hlast⟩ := ih hmid (by omega) (hinv.sweep hprime i_pos)
    refine ⟨last, crossed, top, ?_, hlast⟩
    unfold sieveFrom
    rw [if_pos hi, h.read_eq hi, Bool.eq_false_iff.2 hmark]
    show (markFrom limit i i_pos table (i * i) >>= fun table =>
      sieveFrom limit table (i + 1) _ >>= fun rest => pure (i :: rest.1, rest.2)) = _
    rw [hsweep]
    show (sieveFrom limit mid (i + 1) _ >>= fun rest => pure (i :: rest.1, rest.2)) = _
    rw [hrest]
    rfl
  | case3 marked i i_pos hi =>
    refine ⟨table, marked, i, ?_, h, by omega, hinv⟩
    unfold sieveFrom
    rw [if_neg hi]
    rfl

/-- **The sieve writes exactly the composite numbers below its limit.** -/
theorem exists_of_sieve (limit : Nat) :
    ∃ table, sieve limit = .ok (Primality.sieve limit, table)
      ∧ ∀ m, m ∈ table.written ↔ m < limit ∧ 2 ≤ m ∧ ¬ m.Prime := by
  obtain ⟨table, crossed, top, hrun, hrecords, htop, hcrossed⟩ :=
    exists_of_sieveFrom (Table.Records.blank limit) le_rfl (crossedBelow_start limit) Nat.two_pos
  refine ⟨table, hrun, fun m => ?_⟩
  rw [hrecords.written]
  constructor
  · intro h
    obtain ⟨hm, hmark⟩ := h
    -- A mark is a multiple of a prime, at its square or behind it, so it is not zero or one.
    obtain ⟨p, hp, -, -, hle⟩ := (hcrossed m hm).1 hmark
    have hfour : 2 * 2 ≤ p * p := Nat.mul_le_mul hp.two_le hp.two_le
    exact ⟨hm, by omega, (hcrossed.marked_iff_not_prime (by omega) (by omega) hm).1 hmark⟩
  · intro h
    obtain ⟨hm, htwo, hcomp⟩ := h
    exact ⟨hm, (hcrossed.marked_iff_not_prime htwo (by omega) hm).2 hcomp⟩

/-- The even numbers are written before the multiples of three, and 12 and 18 are written twice. -/
example : (sieve 20).map (fun found => (found.1, found.2.written))
    = .ok ([2, 3, 5, 7, 11, 13, 17, 19], [4, 6, 8, 10, 12, 14, 16, 18, 9, 12, 15, 18]) := by
  cbv

end ProbablePrime.Primality.Marking

namespace ProbablePrime.Primality

/-! ## §5. The sieve at every limit. -/

/-- **The sieve is exact.**  At every limit it lists the primes below the limit and nothing else, in
strictly ascending order; with a table of `limit` places it accesses no place that is not there, and
the places it writes are the composite numbers below the limit.  So trial division by the numbers that
it finds below a thousand finds a factor exactly where such a prime divides the number and is not the
number itself. -/
theorem sieve_exact (limit : Nat) :
    ((sieve limit).Pairwise (· < ·) ∧ ∀ p, p ∈ sieve limit ↔ p < limit ∧ p.Prime)
    ∧ (∃ table, Marking.sieve limit = .ok (sieve limit, table)
      ∧ ∀ m, m ∈ table.written ↔ m < limit ∧ 2 ≤ m ∧ ¬ m.Prime)
    ∧ ∀ n, hasSmallFactor n = true ↔ ∃ p, p.Prime ∧ p < 1000 ∧ p ∣ n ∧ p ≠ n := by
  refine ⟨⟨sieve_ascending limit, fun p => mem_sieve⟩, Marking.exists_of_sieve limit, fun n => ?_⟩
  rw [hasSmallFactor_iff, trialLimit]

end ProbablePrime.Primality
