/-
  ProbablePrime.Proofs.Vectors.Scan — the walk that sorts the numbers from two on.

  The walk keeps two lists that fill at different speeds, and goes on sorting numbers for the one when
  the other is full.  `Sifts` is the same walk with lists that never are: every number below the
  present one stands in one of them, by its own verdict.  The lists of the walk are the first numbers
  of these.

  The walk goes from place to place.  At a place where a list still lacks numbers it tests the number
  of the place, and the answer says which is the next place; at any other it stops.  `Comes` follows a
  walk over the tests that answer, and says nothing of fuel.

  A verdict errs in one direction only, so the failed numbers are composite, and the passed ones are
  primes or have no small factor.

  Main results:
    * `steady_scan` — more fuel only lets the walk go on;
    * `ends_scan_ok_iff` — a walk ends where it comes to a place where both lists are full;
    * `sifts_of_scan` — the lists of the walk are the first numbers that passed, and that failed;
    * `eq_map_nth` — when a list is that of the first numbers with a property.
-/
import ProbablePrime.Proofs.Primality.Passing
import ProbablePrime.Vectors.Inputs

namespace ProbablePrime.Vectors

open Entropy (Source)
open Primality (Passable Settled Verdict check isProbablePrime)
open Draw (Ends Extends Steady)

variable {σ : Type} [Source σ] {fuel rounds count turns n : Nat} {primes composites : List Nat}
  {session session' mid after : Session σ}

/-! ## §1. Ascending lists. -/

/-- In an ascending list, what is not greater than one of the first numbers is one of them. -/
theorem mem_take_of_le {l : List Nat} (hl : l.Pairwise (· < ·)) {x y : Nat} (hx : x ∈ l)
    (hy : y ∈ l.take count) (hle : x ≤ y) : x ∈ l.take count := by
  rw [← List.take_append_drop count l] at hl hx
  obtain ⟨-, -, hcross⟩ := List.pairwise_append.1 hl
  rcases List.mem_append.1 hx with hfirst | hrest
  · exact hfirst
  · have hlt : y < x := hcross y hy x hrest
    omega

/-- **When a list is that of the first numbers with a property**: it is ascending, its numbers have
the property, and below them it leaves none out. -/
theorem eq_map_nth {p : Nat → Prop} {l : List Nat} (hl : l.Pairwise (· < ·)) (hall : ∀ x ∈ l, p x)
    (hdown : ∀ x ∈ l, ∀ y, y < x → p y → y ∈ l) :
    l = (List.range l.length).map (Nat.nth p) := by
  classical
  induction l using List.reverseRecOn with
  | nil => rfl
  | append_singleton l x ih =>
    obtain ⟨hsorted, -, hcross⟩ := List.pairwise_append.1 hl
    have hbelow : ∀ y ∈ l, y < x := fun y hy => hcross y hy x (List.mem_singleton_self x)
    have hl' : l = (List.range l.length).map (Nat.nth p) := by
      refine ih hsorted (fun y hy => hall y (List.mem_append_left _ hy)) ?_
      intro y hy z hz hpz
      rcases List.mem_append.1 (hdown y (List.mem_append_left _ hy) z hz hpz) with hmem | hmem
      · exact hmem
      · have hlast := hbelow y hy
        rw [List.mem_singleton] at hmem
        omega
    -- The numbers with the property below `x` are those of the list in front of it.
    have hcount : Nat.count p x = l.length := by
      have hset : (Finset.range x).filter p = l.toFinset := by
        ext y
        rw [Finset.mem_filter, Finset.mem_range, List.mem_toFinset]
        constructor
        · rintro ⟨hlt, hpy⟩
          rcases List.mem_append.1 (hdown x (by simp) y hlt hpy) with hmem | hmem
          · exact hmem
          · rw [List.mem_singleton] at hmem
            omega
        · intro hy
          exact ⟨hbelow y hy, hall y (List.mem_append_left _ hy)⟩
      rw [Nat.count_eq_card_filter_range, hset]
      exact List.toFinset_card_of_nodup (hsorted.imp Nat.ne_of_lt)
    have hnth : Nat.nth p l.length = x := by
      rw [← hcount]
      exact Nat.nth_count (hall x (by simp))
    rw [List.length_append, List.length_singleton, List.range_succ, List.map_append,
      List.map_singleton, hnth, ← hl']

/-! ## §2. Places. -/

/-- Where a walk stands. -/
structure Place where
  /-- The number that comes next. -/
  n : Nat
  /-- The numbers that have passed, the last one first, as many as are kept. -/
  primes : List Nat
  /-- The numbers that have failed, the last one first, as many as are kept. -/
  composites : List Nat
  deriving DecidableEq, Repr

/-- Where every walk begins. -/
def Place.start : Place := ⟨2, [], []⟩

/-- One of the lists lacks numbers, so the walk goes on. -/
def Place.Open (count : Nat) (place : Place) : Prop :=
  place.primes.length < count ∨ place.composites.length < count

/-- The place behind a test that has answered. -/
def Place.next (count : Nat) (place : Place) : (passed : Bool) → Place
  | true => ⟨place.n + 1, fillUp count place.n place.primes, place.composites⟩
  | false => ⟨place.n + 1, place.primes, fillUp count place.n place.composites⟩

@[simp] theorem Place.next_n (count : Nat) (place : Place) (passed : Bool) :
    (place.next count passed).n = place.n + 1 := by
  cases passed <;> rfl

/-- The walk from a place on. -/
def walkFrom (fuel rounds count turns : Nat) (place : Place) :
    Draw σ PrimeError (List Nat × List Nat) :=
  scanFrom fuel rounds count turns place.n place.primes place.composites

variable {place : Place}

/-- At an open place the walk tests the number, and goes on behind it. -/
theorem walkFrom_of_open (hopen : place.Open count) :
    (walkFrom fuel rounds count (turns + 1) place : Draw σ PrimeError _)
      = isProbablePrime fuel rounds place.n >>= fun passed =>
          walkFrom fuel rounds count turns (place.next count passed) := by
  rw [walkFrom, scanFrom, if_pos (by simpa [Place.Open] using hopen)]
  refine bind_congr fun passed => ?_
  cases passed with
  | true => rfl
  | false => rfl

/-- At any other place it stops with its lists. -/
theorem walkFrom_of_not_open (hopen : ¬ place.Open count) :
    (walkFrom fuel rounds count (turns + 1) place : Draw σ PrimeError _)
      = pure (place.primes.reverse, place.composites.reverse) := by
  rw [walkFrom, scanFrom, if_neg (by simpa [Place.Open] using hopen)]

/-! ## §3. Fuel. -/

theorem steady_isProbablePrime (rounds n : Nat) :
    Steady fun fuel => (isProbablePrime fuel rounds n : Draw σ PrimeError Bool) := by
  unfold isProbablePrime
  exact (Primality.steady_check rounds n).bind fun _ => Draw.steady_const _

/-- More turns and more fuel do not change a walk that has ended. -/
theorem scanFrom_extends {fuel' turns' : Nat} (hfuel : fuel ≤ fuel') (hturns : turns ≤ turns') :
    Extends (scanFrom fuel rounds count turns n primes composites : Draw σ PrimeError _)
      (scanFrom fuel' rounds count turns' n primes composites) := by
  induction turns generalizing turns' n primes composites with
  | zero => exact Extends.of_outOfFuel _
  | succ turns ih =>
    obtain ⟨turns', rfl⟩ : ∃ k, turns' = k + 1 := ⟨turns' - 1, by omega⟩
    unfold scanFrom
    split
    · refine Extends.bind (steady_isProbablePrime rounds n hfuel) fun passed => ?_
      split
      · exact ih (by omega)
      · exact ih (by omega)
    · exact Extends.refl _

/-- **More fuel only lets the walk go on.** -/
theorem steady_scan (rounds count : Nat) :
    Steady fun fuel => (scan fuel rounds count : Draw σ PrimeError _) := by
  intro fuel fuel' hle
  exact scanFrom_extends hle hle

/-! ## §4. The walk without an end. -/

/-- The numbers from two up to `n`, which is not reached yet, were sorted into those that passed and
those that failed; the last number is the first of its list. -/
inductive Sifts : (n : Nat) → (passed failed : List Nat) → Prop
  /-- No number was looked at. -/
  | start : Sifts 2 [] []
  /-- A number that can pass has passed. -/
  | passed {n : Nat} {ps cs : List Nat} : Sifts n ps cs → Passable n → Sifts (n + 1) (n :: ps) cs
  /-- A number that is not prime has failed. -/
  | failed {n : Nat} {ps cs : List Nat} : Sifts n ps cs → ¬ n.Prime → Sifts (n + 1) ps (n :: cs)

namespace Sifts

variable {ps cs : List Nat}

theorem two_le (h : Sifts n ps cs) : 2 ≤ n := by
  induction h with
  | start => exact le_rfl
  | passed _ _ ih => omega
  | failed _ _ ih => omega

/-- The sorted numbers are those below the present one. -/
theorem mem_or_mem_iff (h : Sifts n ps cs) (k : Nat) : k ∈ ps ∨ k ∈ cs ↔ 2 ≤ k ∧ k < n := by
  induction h with
  | start =>
    simp only [List.not_mem_nil, or_self, false_iff]
    omega
  | passed hsifts _ ih =>
    have := hsifts.two_le
    rw [List.mem_cons, or_assoc, ih]
    omega
  | failed hsifts _ ih =>
    have := hsifts.two_le
    rw [List.mem_cons, or_left_comm, ih]
    omega

theorem lt_of_mem_passed (h : Sifts n ps cs) {k : Nat} (hk : k ∈ ps) : 2 ≤ k ∧ k < n :=
  (h.mem_or_mem_iff k).1 (Or.inl hk)

theorem lt_of_mem_failed (h : Sifts n ps cs) {k : Nat} (hk : k ∈ cs) : 2 ≤ k ∧ k < n :=
  (h.mem_or_mem_iff k).1 (Or.inr hk)

/-- Both lists go down to their ends. -/
theorem descending (h : Sifts n ps cs) : ps.Pairwise (· > ·) ∧ cs.Pairwise (· > ·) := by
  induction h with
  | start => exact ⟨.nil, .nil⟩
  | passed hsifts _ ih =>
    exact ⟨List.pairwise_cons.2 ⟨fun k hk => (hsifts.lt_of_mem_passed hk).2, ih.1⟩, ih.2⟩
  | failed hsifts _ ih =>
    exact ⟨ih.1, List.pairwise_cons.2 ⟨fun k hk => (hsifts.lt_of_mem_failed hk).2, ih.2⟩⟩

/-- No number both passed and failed. -/
theorem disjoint (h : Sifts n ps cs) {k : Nat} (hk : k ∈ ps) : k ∉ cs := by
  induction h with
  | start => simp at hk
  | passed hsifts _ ih =>
    rcases List.mem_cons.1 hk with rfl | hk
    · intro hmem
      have := hsifts.lt_of_mem_failed hmem
      omega
    · exact ih hk
  | failed hsifts _ ih =>
    rw [List.mem_cons, not_or]
    have := hsifts.lt_of_mem_passed hk
    exact ⟨by omega, ih hk⟩

theorem passable (h : Sifts n ps cs) : ∀ k ∈ ps, Passable k := by
  induction h with
  | start => simp
  | passed _ hn ih =>
    intro k hk
    rcases List.mem_cons.1 hk with rfl | hk
    · exact hn
    · exact ih k hk
  | failed _ _ ih => exact ih

theorem not_prime (h : Sifts n ps cs) : ∀ k ∈ cs, ¬ k.Prime := by
  induction h with
  | start => simp
  | passed _ _ ih => exact ih
  | failed _ hn ih =>
    intro k hk
    rcases List.mem_cons.1 hk with rfl | hk
    · exact hn
    · exact ih k hk

/-- A prime that was looked at has passed. -/
theorem mem_passed_of_prime (h : Sifts n ps cs) {k : Nat} (hk : k.Prime) (hlt : k < n) : k ∈ ps := by
  rcases (h.mem_or_mem_iff k).2 ⟨hk.two_le, hlt⟩ with hpassed | hfailed
  · exact hpassed
  · exact absurd hk (h.not_prime k hfailed)

/-- A number that was looked at and cannot pass has failed. -/
theorem mem_failed_of_not_passable (h : Sifts n ps cs) {k : Nat} (hk : ¬ Passable k) (htwo : 2 ≤ k)
    (hlt : k < n) : k ∈ cs := by
  rcases (h.mem_or_mem_iff k).2 ⟨htwo, hlt⟩ with hpassed | hfailed
  · exact absurd (h.passable k hpassed) hk
  · exact hfailed

end Sifts

/-! ## §5. Where a walk comes to. -/

/-- From the session `session` on, a walk comes to a place, in the session that is given with it: it
has tested the numbers before, each in its turn, and every test has answered. -/
inductive Comes (rounds count : Nat) (session : Session σ) : Place → Session σ → Prop
  /-- Nothing was tested. -/
  | start : Comes rounds count session .start session
  /-- The number of an open place was tested. -/
  | next {place : Place} {mid after : Session σ} {passed : Bool} :
    Comes rounds count session place mid → place.Open count →
      Ends (fun fuel => isProbablePrime fuel rounds place.n) mid (.ok passed) after →
        Comes rounds count session (place.next count passed) after

/-- A list that is filled up holds the first numbers of the list without an end, and takes the next
one if there is room. -/
theorem fillUp_eq_take {numbers all : List Nat} (h : numbers.reverse = all.reverse.take count) :
    (fillUp count n numbers).reverse = (n :: all).reverse.take count := by
  have hlength : numbers.length = min count all.length := by
    rw [← List.length_reverse, h, List.length_take, List.length_reverse]
  unfold fillUp
  rw [List.reverse_cons]
  split
  · next hroom =>
    have hshort : all.reverse.length ≤ count := by
      rw [List.length_reverse]
      omega
    rw [List.reverse_cons, h, List.take_of_length_le hshort, List.take_of_length_le]
    rw [List.length_append, List.length_reverse, List.length_singleton]
    omega
  · next hfull =>
    rw [h, List.take_append_of_le_length]
    rw [List.length_reverse]
    omega

/-- A verdict on the present number sorts it. -/
theorem Sifts.of_verdict {ps cs : List Nat} (h : Sifts n ps cs) {passed : Bool}
    (hcheck : (isProbablePrime fuel rounds n).runIn session = (.ok passed, session')) :
    if passed then Sifts (n + 1) (n :: ps) cs else Sifts (n + 1) ps (n :: cs) := by
  rw [isProbablePrime, Draw.runIn_bind_eq_ok] at hcheck
  obtain ⟨verdict, mid, hverdict, hpure⟩ := hcheck
  rw [Draw.runIn_pure_eq_ok] at hpure
  obtain ⟨rfl, -⟩ := hpure
  split
  · next hpass => exact h.passed (Passable.of_check hverdict hpass)
  · next hfail => exact h.failed (Primality.not_prime_of_failed hverdict (Bool.eq_false_iff.2 hfail))

/-- The lists of a place are the first numbers of a walk without an end. -/
theorem Comes.sifts (h : Comes rounds count session place mid) :
    ∃ ps cs, Sifts place.n ps cs ∧ place.primes.reverse = ps.reverse.take count
      ∧ place.composites.reverse = cs.reverse.take count := by
  induction h with
  | start => exact ⟨[], [], .start, by simp [Place.start], by simp [Place.start]⟩
  | next _ _ hends ih =>
    rename_i place mid after passed _ _
    obtain ⟨ps, cs, hsifts, hprimes, hcomposites⟩ := ih
    obtain ⟨least, hrun⟩ := hends
    have hnext := hsifts.of_verdict (hrun least le_rfl)
    cases passed with
    | true => exact ⟨place.n :: ps, cs, hnext, fillUp_eq_take hprimes, hcomposites⟩
    | false => exact ⟨ps, place.n :: cs, hnext, hprimes, fillUp_eq_take hcomposites⟩

/-- What a walk that ends has come to. -/
theorem exists_comes_of_walkFrom (hcomes : Comes rounds count session place mid)
    {lists : List Nat × List Nat}
    (h : (walkFrom fuel rounds count turns place).runIn mid = (.ok lists, after)) :
    ∃ last, Comes rounds count session last after ∧ ¬ last.Open count
      ∧ lists = (last.primes.reverse, last.composites.reverse) := by
  induction turns generalizing place mid with
  | zero => cases h
  | succ turns ih =>
    by_cases hopen : place.Open count
    · rw [walkFrom_of_open hopen] at h
      obtain ⟨passed, mid', htest, hrest⟩ := Draw.runIn_bind_eq_ok.1 h
      exact ih (hcomes.next hopen ((steady_isProbablePrime rounds place.n).ends htest)) hrest
    · rw [walkFrom_of_not_open hopen, Draw.runIn_pure_eq_ok] at h
      obtain ⟨rfl, rfl⟩ := h
      exact ⟨place, hcomes, hopen, rfl⟩

/-- **A walk that ends has come to a place where both lists are full.** -/
theorem exists_comes_of_scan {lists : List Nat × List Nat}
    (h : (scan fuel rounds count).runIn session = (.ok lists, after)) :
    ∃ last, Comes rounds count session last after ∧ ¬ last.Open count
      ∧ lists = (last.primes.reverse, last.composites.reverse) :=
  exists_comes_of_walkFrom .start h

/-- With turns enough, a walk runs as it does from a place to which it comes. -/
theorem Comes.exists_runIn_eq (h : Comes rounds count session place mid) :
    ∃ least spent, ∀ fuel, least ≤ fuel → ∀ turns,
      (walkFrom fuel rounds count (spent + turns) .start).runIn session
        = (walkFrom fuel rounds count turns place).runIn mid := by
  induction h with
  | start => exact ⟨0, 0, fun fuel _ turns => by rw [Nat.zero_add]⟩
  | next _ hopen hends ih =>
    obtain ⟨least, spent, hsame⟩ := ih
    obtain ⟨least', hrun⟩ := hends
    refine ⟨max least least', spent + 1, fun fuel hle turns => ?_⟩
    rw [Nat.add_assoc, Nat.add_comm 1, hsame fuel (by omega), walkFrom_of_open hopen,
      Draw.runIn_bind_of_ok (hrun fuel (by omega))]

/-- **A walk ends where it comes to a place where both lists are full**, and these are its lists. -/
theorem ends_scan_ok_iff {lists : List Nat × List Nat} :
    Ends (fun fuel => scan fuel rounds count) session (.ok lists) after
      ↔ ∃ last, Comes rounds count session last after ∧ ¬ last.Open count
          ∧ lists = (last.primes.reverse, last.composites.reverse) := by
  constructor
  · rintro ⟨least, hrun⟩
    exact exists_comes_of_scan (hrun least le_rfl)
  · rintro ⟨last, hcomes, hfull, rfl⟩
    obtain ⟨least, spent, hsame⟩ := hcomes.exists_runIn_eq
    refine ⟨max least (spent + 1), fun fuel hle => ?_⟩
    obtain ⟨turns, hturns⟩ : ∃ turns, fuel = spent + (turns + 1) := ⟨fuel - spent - 1, by omega⟩
    have hrun := hsame fuel (by omega) (turns + 1)
    rw [← hturns, walkFrom_of_not_open hfull] at hrun
    exact hrun

/-- A list of first numbers lacks some only as long as the list without an end is too short. -/
theorem length_lt_iff_of_take {count : Nat} {numbers all : List Nat}
    (h : numbers.reverse = all.reverse.take count) :
    numbers.length < count ↔ all.length < count := by
  have hlength : numbers.length = min count all.length := by
    rw [← List.length_reverse, h, List.length_take, List.length_reverse]
  omega

/-- No list takes more numbers than are asked for. -/
theorem Comes.not_open_iff (h : Comes rounds count session place mid) :
    ¬ place.Open count ↔ place.primes.length = count ∧ place.composites.length = count := by
  obtain ⟨ps, cs, -, hprimes, hcomposites⟩ := h.sifts
  have hps := congrArg List.length hprimes
  have hcs := congrArg List.length hcomposites
  rw [List.length_reverse, List.length_take] at hps hcs
  rw [Place.Open]
  omega

/-- **The lists of a walk are the first numbers that passed and the first that failed.** -/
theorem sifts_of_scan {lists : List Nat × List Nat}
    (h : (scan fuel rounds count).runIn session = (.ok lists, session')) :
    ∃ n ps cs, Sifts n ps cs ∧ lists.1 = ps.reverse.take count ∧ lists.2 = cs.reverse.take count
      ∧ count ≤ ps.length ∧ count ≤ cs.length := by
  obtain ⟨last, hcomes, hfull, rfl⟩ := exists_comes_of_scan h
  obtain ⟨ps, cs, hsifts, hprimes, hcomposites⟩ := hcomes.sifts
  rw [Place.Open, length_lt_iff_of_take hprimes, length_lt_iff_of_take hcomposites] at hfull
  exact ⟨last.n, ps, cs, hsifts, hprimes, hcomposites, by omega, by omega⟩

/-- A settled number is sorted without a draw. -/
theorem scanFrom_of_settled (hrounds : rounds ≠ 0) (hn : Settled n)
    (hopen : primes.length < count ∨ composites.length < count) :
    (scanFrom fuel rounds count (turns + 1) n primes composites : Draw σ PrimeError _)
      = if n.Prime then scanFrom fuel rounds count turns (n + 1) (fillUp count n primes) composites
        else scanFrom fuel rounds count turns (n + 1) primes (fillUp count n composites) := by
  have hpassed : (isProbablePrime fuel rounds n : Draw σ PrimeError Bool) = pure (decide n.Prime) := by
    rw [isProbablePrime, Primality.check_of_settled hrounds hn, pure_bind]
  rw [scanFrom, if_pos (by simpa using hopen), hpassed, pure_bind]
  simp only [decide_eq_true_eq]

end ProbablePrime.Vectors
