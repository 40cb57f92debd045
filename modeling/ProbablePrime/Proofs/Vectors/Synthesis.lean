/-
  ProbablePrime.Proofs.Vectors.Synthesis — what made-up lists are made of.

  The small lists come from one walk over the numbers.  They go up, they have no number in common, and
  up to its last number each of them lacks only what a verdict can get wrong: the list of primes holds
  every prime, and the list of composites every number with a small factor.  Below the square of the
  first prime past the table no verdict is wrong, so there the lists are those of the first primes and
  of the first composites.

  The large lists come from searches, which keep their sizes.

  Main results:
    * `sorted_of_scan` — what the walk leaves;
    * `drawn_of_drawLarge` — what the searches leave;
    * `lists_of_synthesize` — the four lists together.
-/
import ProbablePrime.Proofs.Generator.Search
import ProbablePrime.Proofs.Vectors.Scan

namespace ProbablePrime.Vectors

open Entropy (Source Tape)
open Number (bitLength)
open Primality (Passable)

/-! ## §1. The small lists. -/

/-- Two lists of `count` numbers each, into which the numbers from two on were sorted. -/
structure Sorted (count : Nat) (primes composites : List Nat) : Prop where
  /-- Both lists are full. -/
  length : primes.length = count ∧ composites.length = count
  /-- Both lists go up. -/
  ascending : primes.Pairwise (· < ·) ∧ composites.Pairwise (· < ·)
  /-- No number is in both lists. -/
  disjoint : ∀ n ∈ primes, n ∉ composites
  /-- Neither list has a number below two. -/
  two_le : ∀ n, n ∈ primes ∨ n ∈ composites → 2 ≤ n
  /-- What is in the first list can pass. -/
  passable : ∀ n ∈ primes, Passable n
  /-- What is in the second list is not prime. -/
  composite : ∀ n ∈ composites, ¬ n.Prime
  /-- The first list leaves out no prime. -/
  mem_primes : ∀ last ∈ primes, ∀ n, n.Prime → n ≤ last → n ∈ primes
  /-- The second list leaves out nothing that cannot pass. -/
  mem_composites : ∀ last ∈ composites, ∀ n, 2 ≤ n → ¬ Passable n → n ≤ last → n ∈ composites

/-- The first numbers of a walk without an end. -/
theorem Sifts.sorted {n count : Nat} {ps cs : List Nat} (h : Sifts n ps cs) (hps : count ≤ ps.length)
    (hcs : count ≤ cs.length) : Sorted count (ps.reverse.take count) (cs.reverse.take count) := by
  have hups : ps.reverse.Pairwise (· < ·) := List.pairwise_reverse.2 h.descending.1
  have hupcs : cs.reverse.Pairwise (· < ·) := List.pairwise_reverse.2 h.descending.2
  have hmemps {k : Nat} (hk : k ∈ ps.reverse.take count) : k ∈ ps :=
    List.mem_reverse.1 (List.mem_of_mem_take hk)
  have hmemcs {k : Nat} (hk : k ∈ cs.reverse.take count) : k ∈ cs :=
    List.mem_reverse.1 (List.mem_of_mem_take hk)
  refine ⟨⟨?_, ?_⟩, ⟨hups.take, hupcs.take⟩, fun k hk hk' => h.disjoint (hmemps hk) (hmemcs hk'), ?_,
    fun k hk => h.passable k (hmemps hk), fun k hk => h.not_prime k (hmemcs hk), ?_, ?_⟩
  · rw [List.length_take, List.length_reverse, min_eq_left hps]
  · rw [List.length_take, List.length_reverse, min_eq_left hcs]
  · rintro k (hk | hk)
    · exact (h.lt_of_mem_passed (hmemps hk)).1
    · exact (h.lt_of_mem_failed (hmemcs hk)).1
  · intro last hlast k hk hle
    have hlt : k < n := lt_of_le_of_lt hle (h.lt_of_mem_passed (hmemps hlast)).2
    exact mem_take_of_le hups (List.mem_reverse.2 (h.mem_passed_of_prime hk hlt)) hlast hle
  · intro last hlast k htwo hk hle
    have hlt : k < n := lt_of_le_of_lt hle (h.lt_of_mem_failed (hmemcs hlast)).2
    exact mem_take_of_le hupcs (List.mem_reverse.2 (h.mem_failed_of_not_passable hk htwo hlt)) hlast
      hle

variable {σ : Type} [Source σ] {session session' : Session σ} {fuel rounds count bits : Nat}

/-- **What the walk leaves.** -/
theorem sorted_of_scan {lists : List Nat × List Nat}
    (h : (scan fuel rounds count).runIn session = (.ok lists, session')) :
    Sorted count lists.1 lists.2 := by
  obtain ⟨n, ps, cs, hsifts, hprimes, hcomposites, hps, hcs⟩ := sifts_of_scan h
  rw [hprimes, hcomposites]
  exact hsifts.sorted hps hcs

/-- A multiple of a smaller prime of the table cannot pass. -/
theorem not_passable_of_dvd {n r : Nat} (hr : r.Prime) (hsmall : r < 1000) (hlt : r < n)
    (hdvd : r ∣ n) : ¬ Passable n := by
  intro hn
  rcases hn.small with ⟨hprime, -⟩ | hfree
  · have hself : r = n := (Nat.prime_dvd_prime_iff_eq hr hprime).1 hdvd
    omega
  · exact hfree r hr hsmall hdvd

/-- An ascending list whose last number is below a bound stays below it. -/
theorem lt_of_getLast_lt {l : List Nat} (hl : l.Pairwise (· < ·)) {bound : Nat}
    (hlast : ∀ last ∈ l.getLast?, last < bound) : ∀ n ∈ l, n < bound := by
  intro n hn
  have hne : l ≠ [] := List.ne_nil_of_mem hn
  calc n ≤ l.getLast hne := (hl.imp Nat.le_of_lt).rel_getLast hn
    _ < bound := hlast _ (List.getLast?_eq_some_getLast hne)

namespace Sorted

variable {primes composites : List Nat}

/-- **Below the square of the first prime past the table, the first list is that of the first
primes.** -/
theorem primes_eq (h : Sorted count primes composites) (hlast : ∀ n ∈ primes, n < 1018081) :
    primes = (List.range count).map (Nat.nth Nat.Prime) := by
  have hnth : primes = (List.range primes.length).map (Nat.nth Nat.Prime) := by
    refine eq_map_nth h.ascending.1 (fun n hn => (h.passable n hn).prime_of_lt (hlast n hn)) ?_
    intro last hmem n hlt hn
    exact h.mem_primes last hmem n hn hlt.le
  rwa [h.length.1] at hnth

/-- **The second list is that of the first composites**, as long as it stays as low. -/
theorem composites_eq (h : Sorted count primes composites) (hlast : ∀ n ∈ composites, n < 1018081) :
    composites = (List.range count).map (Nat.nth fun n => 2 ≤ n ∧ ¬ n.Prime) := by
  have hnth : composites = (List.range composites.length).map
      (Nat.nth fun n => 2 ≤ n ∧ ¬ n.Prime) := by
    refine eq_map_nth h.ascending.2
      (fun n hn => ⟨h.two_le n (Or.inr hn), h.composite n hn⟩) ?_
    -- So far down what is composite cannot pass, and was not left out.
    rintro last hmem n hlt ⟨htwo, hn⟩
    refine h.mem_composites last hmem n htwo (fun hpass => hn ?_) hlt.le
    exact hpass.prime_of_lt (hlt.trans (hlast last hmem))
  rwa [h.length.2] at hnth

end Sorted

/-! ## §2. The large lists. -/

/-- Lists of `count` numbers each: the first holds numbers of `bits` bits, the second products of two
numbers of half that size. -/
structure Drawn (bits count : Nat) (primes composites : List Nat) : Prop where
  /-- Both lists are full. -/
  length : primes.length = count ∧ composites.length = count
  /-- What is in the first list is what a search finds. -/
  primes : ∀ p ∈ primes, OfSize bits p
  /-- What is in the second list is the product of what two searches find. -/
  composites : ∀ n ∈ composites, ∃ p q, n = p * q
    ∧ OfSize (factorBits bits) p ∧ OfSize (factorBits bits) q

theorem exists_factors_of_semiprime {config : Config} {n : Nat}
    (h : (semiprime config fuel bits).runIn session = (.ok n, session')) :
    ∃ p q, n = p * q ∧ OfSize (factorBits bits) p ∧ OfSize (factorBits bits) q := by
  unfold semiprime at h
  obtain ⟨p, s₁, hp, h⟩ := Draw.runIn_bind_eq_ok.1 h
  obtain ⟨q, s₂, hq, h⟩ := Draw.runIn_bind_eq_ok.1 h
  rw [Draw.runIn_pure_eq_ok] at h
  exact ⟨p, q, h.1.symm, .of_probablePrime hp, .of_probablePrime hq⟩

/-- **What the searches leave.** -/
theorem drawn_of_drawLarge {config : Config} {lists : List Nat × List Nat}
    (h : (drawLarge config fuel bits count).runIn session = (.ok lists, session')) :
    Drawn bits count lists.1 lists.2 := by
  induction count generalizing session session' lists with
  | zero =>
    rw [drawLarge, Draw.runIn_pure_eq_ok] at h
    obtain ⟨rfl, -⟩ := h
    exact ⟨⟨rfl, rfl⟩, by simp, by simp⟩
  | succ count ih =>
    unfold drawLarge at h
    obtain ⟨prime, s₁, hprime, h⟩ := Draw.runIn_bind_eq_ok.1 h
    obtain ⟨composite, s₂, hcomposite, h⟩ := Draw.runIn_bind_eq_ok.1 h
    obtain ⟨rest, s₃, hrest, h⟩ := Draw.runIn_bind_eq_ok.1 h
    obtain ⟨rfl, -⟩ := Draw.runIn_pure_eq_ok.1 h
    have hdrawn := ih hrest
    refine ⟨⟨?_, ?_⟩, ?_, ?_⟩
    · rw [List.length_cons, hdrawn.length.1]
    · rw [List.length_cons, hdrawn.length.2]
    · rw [List.forall_mem_cons]
      exact ⟨.of_probablePrime hprime, hdrawn.primes⟩
    · rw [List.forall_mem_cons]
      exact ⟨exists_factors_of_semiprime hcomposite, hdrawn.composites⟩

/-! ## §3. All four lists. -/

/-- The parts of made-up lists. -/
theorem sorted_and_drawn_of_synthesize {config : Config} {inputs : Inputs}
    (h : (synthesize config fuel count bits).runIn session = (.ok inputs, session')) :
    Sorted count inputs.smallPrimes inputs.smallComposites
      ∧ Drawn bits count inputs.largePrimes inputs.largeComposites := by
  unfold synthesize at h
  obtain ⟨small, s₁, hsmall, h⟩ := Draw.runIn_bind_eq_ok.1 h
  obtain ⟨large, s₂, hlarge, h⟩ := Draw.runIn_bind_eq_ok.1 h
  obtain ⟨rfl, -⟩ := Draw.runIn_pure_eq_ok.1 h
  exact ⟨sorted_of_scan hsmall, drawn_of_drawLarge hlarge⟩

/-- What is known of every number that was made for a category. -/
structure Suits (category : Category) (n : Nat) : Prop where
  /-- The number is not below two. -/
  two_le : 2 ≤ n
  /-- What was made for a list of primes can pass. -/
  passable : category.expectsPrime = true → Passable n
  /-- What was made for a list of composites is composite. -/
  composite : category.expectsPrime = false → ¬ n.Prime

/-- **Every list that is made up is full, and its numbers suit their category.** -/
theorem suits_of_synthesize {config : Config} {inputs : Inputs}
    (h : (synthesize config fuel count bits).runIn session = (.ok inputs, session'))
    (category : Category) :
    (inputs.get category).length = count ∧ ∀ n ∈ inputs.get category, Suits category n := by
  obtain ⟨hsorted, hdrawn⟩ := sorted_and_drawn_of_synthesize h
  cases category with
  | smallPrimes =>
    refine ⟨hsorted.length.1, fun n hn => ⟨hsorted.two_le n (Or.inl hn), ?_, ?_⟩⟩
    · exact fun _ => hsorted.passable n hn
    · exact fun hkind => Bool.noConfusion hkind
  | largePrimes =>
    refine ⟨hdrawn.length.1, fun p hp => ?_⟩
    have hp := hdrawn.primes p hp
    exact ⟨hp.two_le, fun _ => hp.passable, fun hkind => Bool.noConfusion hkind⟩
  | smallComposites =>
    refine ⟨hsorted.length.2, fun n hn => ⟨hsorted.two_le n (Or.inr hn), ?_, ?_⟩⟩
    · exact fun hkind => Bool.noConfusion hkind
    · exact fun _ => hsorted.composite n hn
  | largeComposites =>
    refine ⟨hdrawn.length.2, fun n hn => ?_⟩
    -- The factors need not be prime, but neither is below two.
    obtain ⟨p, q, rfl, hp, hq⟩ := hdrawn.composites n hn
    have htwo : 2 ≤ p * q := hp.two_le.trans (Nat.le_mul_of_pos_right p (by have := hq.two_le; omega))
    refine ⟨htwo, fun hkind => Bool.noConfusion hkind, fun _ => ?_⟩
    exact Nat.not_prime_mul (by have := hp.two_le; omega) (by have := hq.two_le; omega)

/-- **What made-up lists are made of.**  Each has as many numbers as were asked for.  The small lists
go up and have no number in common; up to its last number the list of primes leaves out no prime, and
the list of composites, which holds no prime, nothing that has a smaller prime factor in the table.
A small list whose last number is below the square of the first prime past the table is that of the
first primes, or of the first composites.  A large prime is odd and has the size that was asked for,
and a large composite is the product of two odd numbers of half the size, but at least two bits. -/
theorem lists_of_synthesize {config : Config} {inputs : Inputs}
    (h : (synthesize config fuel count bits).runIn session = (.ok inputs, session')) :
    (∀ category, (inputs.get category).length = count)
    ∧ (inputs.smallPrimes.Pairwise (· < ·) ∧ inputs.smallComposites.Pairwise (· < ·)
      ∧ List.Disjoint inputs.smallPrimes inputs.smallComposites)
    ∧ (∀ n ∈ inputs.smallComposites, ¬ n.Prime)
    ∧ (∀ last ∈ inputs.smallPrimes.getLast?, ∀ n, n.Prime → n ≤ last → n ∈ inputs.smallPrimes)
    ∧ (∀ last ∈ inputs.smallComposites.getLast?, ∀ n, 4 ≤ n → n ≤ last →
        (∃ r, r.Prime ∧ r < 1000 ∧ r < n ∧ r ∣ n) → n ∈ inputs.smallComposites)
    ∧ ((∀ last ∈ inputs.smallPrimes.getLast?, last < 1018081) →
        inputs.smallPrimes = (List.range count).map (Nat.nth Nat.Prime))
    ∧ ((∀ last ∈ inputs.smallComposites.getLast?, last < 1018081) →
        inputs.smallComposites = (List.range count).map (Nat.nth fun n => 2 ≤ n ∧ ¬ n.Prime))
    ∧ (∀ p ∈ inputs.largePrimes, p % 2 = 1 ∧ bitLength p = bits)
    ∧ ∀ n ∈ inputs.largeComposites, ∃ p q, n = p * q
        ∧ (p % 2 = 1 ∧ bitLength p = max (bits / 2) 2)
        ∧ q % 2 = 1 ∧ bitLength q = max (bits / 2) 2 := by
  obtain ⟨hsorted, hdrawn⟩ := sorted_and_drawn_of_synthesize h
  obtain ⟨hup, hup'⟩ := hsorted.ascending
  refine ⟨fun category => (suits_of_synthesize h category).1,
    ⟨hup, hup', fun n hn hn' => hsorted.disjoint n hn hn'⟩, hsorted.composite,
    fun last hlast => hsorted.mem_primes last (List.mem_of_getLast? hlast), ?_,
    fun hlast => hsorted.primes_eq (lt_of_getLast_lt hup hlast),
    fun hlast => hsorted.composites_eq (lt_of_getLast_lt hup' hlast),
    fun p hp => ⟨(hdrawn.primes p hp).odd, (hdrawn.primes p hp).size⟩, fun n hn => ?_⟩
  · rintro last hlast n hfour hle ⟨r, hr, hsmall, hlt, hdvd⟩
    exact hsorted.mem_composites last (List.mem_of_getLast? hlast) n (by omega)
      (not_passable_of_dvd hr hsmall hlt hdvd) hle
  · obtain ⟨p, q, hn, hp, hq⟩ := hdrawn.composites n hn
    exact ⟨p, q, hn, ⟨hp.odd, hp.size⟩, hq.odd, hq.size⟩

/-- A byte that makes a small prime is all that a search takes from a tape. -/
theorem runIn_probablePrime_of_byte {config : Config} {turns p : Nat} {byte : UInt8}
    {rest : List UInt8} {meter : Meter} {events : List Log.Event}
    (hconfig : config.rounds ≠ 0 ∧ config.maxAttempts = none) (hbits : 2 ≤ bits ∧ bits ≤ 8)
    (hp : integerOf bits [byte] ||| 1 = p) (hsmall : p < Primality.trialLimit) (hprime : p.Prime) :
    (probablePrime config (turns + 1) bits).runIn (⟨⟨byte :: rest⟩, meter, events⟩ : Session Tape)
      = (.ok p, ⟨⟨rest⟩, meter.add 1, events ++ [found bits 1]⟩) := by
  have hsize : bufferSize bits = 1 := by
    obtain ⟨hle, hle'⟩ := hbits
    interval_cases bits <;> rfl
  have hopen : config.exhausted 0 = false := by rw [Config.exhausted, hconfig.2]; rfl
  rw [probablePrime, if_neg (by rw [leastPrimeBits]; omega),
    runIn_searchFrom_of_small (by omega) hconfig.1 hopen (by rw [hsize]; rfl) hp hsmall,
    if_pos hprime, hsize]
  rfl

/-- Two numbers for every list, the large ones of four bits: the walk goes on to 6, and the factors of
the large composites have two bits. -/
theorem lists_of_synthesize_two :
    (synthesize ⟨4, 1, none⟩ 6 2 4).runIn (Session.start (⟨[2, 0, 0, 4, 0, 0]⟩ : Tape))
        = (.ok ⟨[2, 3], [11, 13], [4, 6], [9, 9]⟩,
          ⟨⟨[]⟩, ⟨6, 6⟩, [found 4 1, found 2 1, found 2 1, found 4 1, found 2 1, found 2 1]⟩)
      ∧ [2, 3] = (List.range 2).map (Nat.nth Nat.Prime)
      ∧ [4, 6] = (List.range 2).map (Nat.nth fun n => 2 ≤ n ∧ ¬ n.Prime)
      ∧ (∀ p ∈ [11, 13], p % 2 = 1 ∧ bitLength p = 4)
      ∧ ∀ n ∈ [9, 9], ∃ p q, n = p * q ∧ (p % 2 = 1 ∧ bitLength p = 2) ∧ q % 2 = 1
        ∧ bitLength q = 2 := by
  have hscan : (scan 6 1 2 : Draw Tape PrimeError _) = pure ([2, 3], [4, 6]) := by
    rw [scan, scanFrom_of_settled (by decide) (Or.inl (by decide)) (by decide), if_pos (by norm_num),
      scanFrom_of_settled (by decide) (Or.inl (by decide)) (by decide), if_pos (by norm_num),
      scanFrom_of_settled (by decide) (Or.inl (by decide)) (by decide), if_neg (by norm_num),
      scanFrom_of_settled (by decide) (Or.inl (by decide)) (by decide), if_pos (by norm_num),
      scanFrom_of_settled (by decide) (Or.inl (by decide)) (by decide), if_neg (by norm_num)]
    rfl
  have hfactors (rest : List UInt8) (meter : Meter) (events : List Log.Event) :
      (semiprime ⟨4, 1, none⟩ 6 4).runIn (⟨⟨0 :: 0 :: rest⟩, meter, events⟩ : Session Tape)
        = (.ok 9, ⟨⟨rest⟩, (meter.add 1).add 1, events ++ [found 2 1] ++ [found 2 1]⟩) := by
    have hbits : factorBits 4 = 2 := rfl
    rw [semiprime, hbits,
      Draw.runIn_bind_of_ok (runIn_probablePrime_of_byte (p := 3) (by decide) (by decide)
        (by decide) (by decide) (by norm_num)),
      Draw.runIn_bind_of_ok (runIn_probablePrime_of_byte (p := 3) (by decide) (by decide)
        (by decide) (by decide) (by norm_num))]
    rfl
  have hlarge (p : Nat) (byte : UInt8) (hp : integerOf 4 [byte] ||| 1 = p) (hprime : p.Prime)
      (hsmall : p < Primality.trialLimit) (rest : List UInt8) (meter : Meter)
      (events : List Log.Event) :
      (probablePrime ⟨4, 1, none⟩ 6 4).runIn (⟨⟨byte :: rest⟩, meter, events⟩ : Session Tape)
        = (.ok p, ⟨⟨rest⟩, meter.add 1, events ++ [found 4 1]⟩) :=
    runIn_probablePrime_of_byte (by decide) (by decide) hp hsmall hprime
  have hrun : (synthesize ⟨4, 1, none⟩ 6 2 4).runIn (Session.start (⟨[2, 0, 0, 4, 0, 0]⟩ : Tape))
      = (.ok ⟨[2, 3], [11, 13], [4, 6], [9, 9]⟩,
        ⟨⟨[]⟩, ⟨6, 6⟩, [found 4 1, found 2 1, found 2 1, found 4 1, found 2 1, found 2 1]⟩) := by
    rw [synthesize, hscan, pure_bind, Session.start]
    simp only [drawLarge, bind_assoc]
    rw [Draw.runIn_bind_of_ok (hlarge 11 2 (by decide) (by norm_num) (by decide) _ _ _),
      Draw.runIn_bind_of_ok (hfactors _ _ _),
      Draw.runIn_bind_of_ok (hlarge 13 4 (by decide) (by norm_num) (by decide) _ _ _),
      Draw.runIn_bind_of_ok (hfactors _ _ _)]
    rfl
  obtain ⟨-, -, -, -, -, hprimes, hcomposites, hsizes, hproducts⟩ := lists_of_synthesize hrun
  exact ⟨hrun, hprimes (by decide), hcomposites (by decide), hsizes, hproducts⟩

end ProbablePrime.Vectors
