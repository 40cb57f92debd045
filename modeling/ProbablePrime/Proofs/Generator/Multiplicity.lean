/-
  ProbablePrime.Proofs.Generator.Multiplicity — how often each number of a given size is drawn.

  A draw of a given size asks for one buffer and makes a number of it, so to say how likely a number
  is means to count its buffers.  Cutting the buffer to size leaves the same count for every number.
  Setting a bit afterwards keeps half of the numbers and doubles the count of each of them, because
  a number with the bit comes from itself and from the number without it.  A drawn integer has one
  bit set in this way and a candidate two, unless the integer has one bit only.

  The bit that makes a candidate odd costs one prime: of two bits, every candidate is 3.

  Main results:
    * `Evenly.or_two_pow` — setting a bit doubles the count;
    * `evenly_ofBuffer`, `evenly_integerOf` and `evenly_candidateOf` — the three draws;
    * `exact_size_uniform` — the counts, and what they mean for primes.
-/
import ProbablePrime.Proofs.Generator.Cap
import ProbablePrime.Proofs.Primality.ErrorBound

namespace ProbablePrime

open Entropy (Source Tape fill_tape_of_le)
open Number (bitLength bitLength_eq_iff)
open Primality (Approves Settled witnessBytes)
open Draw (Ends)

/-! ## §1. Counting buffers. -/

/-- Every buffer of `size` bytes gives one of the values, and each of the values is given by `count`
buffers. -/
structure Evenly (size : Nat) (f : List UInt8 → Nat) (values : Nat → Prop) (count : Nat) : Prop where
  /-- No other value occurs. -/
  mem : ∀ buffer, buffer.length = size → values (f buffer)
  /-- All values occur, and equally often. -/
  ncard : ∀ v, values v → {buffer | buffer.length = size ∧ f buffer = v}.ncard = count

variable {size count k : Nat} {f : List UInt8 → Nat} {values values' : Nat → Prop}

theorem Evenly.congr (h : Evenly size f values count) (hvalues : ∀ v, values v ↔ values' v) :
    Evenly size f values' count where
  mem buffer hlength := (hvalues _).1 (h.mem buffer hlength)
  ncard v hv := h.ncard v ((hvalues v).2 hv)

theorem finite_buffers (size : Nat) (f : List UInt8 → Nat) (v : Nat) :
    {buffer : List UInt8 | buffer.length = size ∧ f buffer = v}.Finite :=
  (List.finite_length_eq UInt8 size).subset fun _ hbuffer => hbuffer.1

/-- Setting a bit that is set changes nothing. -/
theorem or_two_pow_of_testBit {n : Nat} (h : n.testBit k = true) : n ||| 2 ^ k = n := by
  refine Nat.eq_of_testBit_eq fun i => ?_
  by_cases hi : k = i
  · subst hi
    simp [h]
  · simp [Nat.testBit_two_pow_of_ne hi]

/-- What a number with the bit `k` comes from when that bit is set. -/
theorem or_two_pow_eq_iff {n v : Nat} (hv : v.testBit k = true) :
    n ||| 2 ^ k = v ↔ n = v ∨ n = v ^^^ 2 ^ k := by
  constructor
  · rintro rfl
    cases hn : n.testBit k with
    | true => exact Or.inl (or_two_pow_of_testBit hn).symm
    | false =>
      refine Or.inr (Nat.eq_of_testBit_eq fun i => ?_)
      by_cases hi : k = i
      · subst hi
        simp [hn]
      · simp [Nat.testBit_two_pow_of_ne hi]
  · rintro (rfl | rfl)
    · exact or_two_pow_of_testBit hv
    · refine Nat.eq_of_testBit_eq fun i => ?_
      by_cases hi : k = i
      · subst hi
        simp [hv]
      · simp [Nat.testBit_two_pow_of_ne hi]

/-- **Setting a bit doubles the count.**  It leaves the values with that bit, if none of them gets lost
by setting the bit or by clearing it. -/
theorem Evenly.or_two_pow (h : Evenly size f values count)
    (hset : ∀ v, values v → values (v ||| 2 ^ k))
    (hclear : ∀ v, v.testBit k = true → values v → values (v ^^^ 2 ^ k)) :
    Evenly size (fun buffer => f buffer ||| 2 ^ k) (fun v => v.testBit k = true ∧ values v)
      (2 * count) where
  mem buffer hlength := ⟨by simp, hset _ (h.mem buffer hlength)⟩
  ncard := by
    rintro v ⟨hbit, hv⟩
    have hne : v ≠ v ^^^ 2 ^ k := by
      intro heq
      have hcleared := congrArg (Nat.testBit · k) heq
      simp [hbit] at hcleared
    have hunion : {buffer : List UInt8 | buffer.length = size ∧ f buffer ||| 2 ^ k = v}
        = {buffer | buffer.length = size ∧ f buffer = v}
          ∪ {buffer | buffer.length = size ∧ f buffer = v ^^^ 2 ^ k} := by
      ext buffer
      simp only [Set.mem_ofPred_eq, Set.mem_union, or_two_pow_eq_iff hbit]
      tauto
    have hdisjoint : Disjoint {buffer : List UInt8 | buffer.length = size ∧ f buffer = v}
        {buffer | buffer.length = size ∧ f buffer = v ^^^ 2 ^ k} := by
      refine Set.disjoint_left.2 fun buffer hleft hright => hne ?_
      exact hleft.2.symm.trans hright.2
    rw [hunion, Set.ncard_union_eq hdisjoint (finite_buffers ..) (finite_buffers ..),
      h.ncard v hv, h.ncard _ (hclear v hbit hv)]
    omega

/-! ## §2. The draws of a given size. -/

variable {bits : Nat}

/-- The bits of a buffer that a draw of `bits` bits throws away. -/
def spareBits (bits : Nat) : Nat := 8 * bufferSize bits - bits

/-- The candidate that a buffer stands for. -/
def candidateOf (bits : Nat) (buffer : List UInt8) : Nat := integerOf bits buffer ||| 1

theorem two_pow_le_iff_testBit {v : Nat} (hbits : bits ≠ 0) (hv : v < 2 ^ bits) :
    2 ^ (bits - 1) ≤ v ↔ v.testBit (bits - 1) = true := by
  obtain ⟨k, rfl⟩ := Nat.exists_eq_succ_of_ne_zero hbits
  rw [Nat.succ_sub_one]
  constructor
  · intro hle
    exact Nat.testBit_of_two_pow_le_and_two_pow_add_one_gt hle hv
  · exact Nat.ge_two_pow_of_testBit

/-- Every number below the size is drawn, from as many buffers as there are spare bits to choose. -/
theorem evenly_ofBuffer (bits : Nat) :
    Evenly (bufferSize bits) (ofBuffer bits) (· < 2 ^ bits) (2 ^ spareBits bits) where
  mem _ hlength := ofBuffer_lt hlength
  ncard _ hv := ncard_buffers_of_lt hv

/-- Every number of exactly the size is an integer that is drawn, twice as often. -/
theorem evenly_integerOf (hbits : bits ≠ 0) :
    Evenly (bufferSize bits) (integerOf bits) (fun v => 2 ^ (bits - 1) ≤ v ∧ v < 2 ^ bits)
      (2 ^ (spareBits bits + 1)) := by
  have hpow : 2 ^ (bits - 1) < 2 ^ bits := Nat.pow_lt_pow_right (by decide) (by omega)
  have hdouble := (evenly_ofBuffer bits).or_two_pow (k := bits - 1)
    (fun v hv => Nat.or_lt_two_pow hv hpow) (fun v _ hv => Nat.xor_lt_two_pow hv hpow)
  have hvalues (v : Nat) : v.testBit (bits - 1) = true ∧ v < 2 ^ bits
      ↔ 2 ^ (bits - 1) ≤ v ∧ v < 2 ^ bits :=
    and_congr_left fun hv => (two_pow_le_iff_testBit hbits hv).symm
  have hinteger : integerOf bits = fun buffer => ofBuffer bits buffer ||| 2 ^ (bits - 1) := by
    funext buffer
    rw [integerOf, Nat.one_shiftLeft]
  rw [hinteger, pow_succ']
  exact hdouble.congr hvalues

/-- Every odd number of exactly the size is a candidate, twice as often again; of one bit only there
is nothing left to set. -/
theorem evenly_candidateOf (hbits : 2 ≤ bits) :
    Evenly (bufferSize bits) (candidateOf bits)
      (fun v => v % 2 = 1 ∧ 2 ^ (bits - 1) ≤ v ∧ v < 2 ^ bits) (2 ^ (spareBits bits + 2)) := by
  have hpositive : bits ≠ 0 := by omega
  have hone : 2 ^ 0 < 2 ^ bits := Nat.pow_lt_pow_right (by decide) (by omega)
  -- The lowest bit is another one than the highest, so clearing it leaves the size.
  have hclear (v : Nat) (hv : 2 ^ (bits - 1) ≤ v ∧ v < 2 ^ bits) :
      2 ^ (bits - 1) ≤ v ^^^ 2 ^ 0 ∧ v ^^^ 2 ^ 0 < 2 ^ bits := by
    have hlt : v ^^^ 2 ^ 0 < 2 ^ bits := Nat.xor_lt_two_pow hv.2 hone
    have hother : (2 ^ 0).testBit (bits - 1) = false := Nat.testBit_two_pow_of_ne (by omega)
    refine ⟨?_, hlt⟩
    rw [two_pow_le_iff_testBit hpositive hlt, Nat.testBit_xor, hother, Bool.xor_false,
      ← two_pow_le_iff_testBit hpositive hv.2]
    exact hv.1
  have hdouble := (evenly_integerOf hpositive).or_two_pow (k := 0)
    (fun v hv => ⟨hv.1.trans Nat.left_le_or, Nat.or_lt_two_pow hv.2 hone⟩)
    (fun v _ hv => hclear v hv)
  rw [show spareBits bits + 2 = spareBits bits + 1 + 1 by rfl, pow_succ']
  exact hdouble.congr fun v => by simp [Nat.testBit_zero]

/-! ## §3. One request. -/

variable {σ : Type} [Source σ]

/-- In every session the draw makes one request of `size` bytes, and its answer is the number `f` of
the buffer, or the error of the source. -/
def AsksOnce (size : Nat) (f : List UInt8 → Nat) (draw : Draw σ PrimeError Nat) : Prop :=
  ∀ session, draw.runIn session
    = (((Source.fill size session.source).1.map f).mapError Stop.error, session.asked size)

theorem asksOnce_randomCandidate (hbits : bits ≠ 0) :
    AsksOnce (bufferSize bits) (candidateOf bits) (randomCandidate bits : Draw σ PrimeError Nat) := by
  intro session
  rw [randomCandidate, Draw.runIn_bind, runIn_randomInteger hbits]
  cases (Source.fill (bufferSize bits) session.source).1 with
  | ok buffer => rfl
  | error cause => rfl

/-! ## §4. Primes. -/

/-- On a tape of enough witnesses a check of a prime approves of it. -/
theorem exists_approves_of_prime {p rounds : Nat} (hp : p.Prime) (hrounds : rounds ≠ 0)
    {session : Session Tape} (h : session.source = ⟨witnessBytes p (List.replicate rounds 2)⟩) :
    ∃ after, Approves rounds p session after := by
  by_cases hsettled : Settled p
  · exact ⟨session, Approves.of_settled hrounds hp hsettled session⟩
  · have hlarge : 3 < p := Primality.three_lt_of_not_settled hsettled
    obtain ⟨parts, hparts⟩ : ∃ parts, Primality.decompose p = some parts :=
      ⟨_, Primality.decompose_of_two_le hp.two_le⟩
    have hwitness : ∀ a ∈ List.replicate rounds 2, 2 ≤ a ∧ a ≤ p - 2 := by
      intro a ha
      rw [List.eq_of_mem_replicate ha]
      omega
    have hyields := Primality.yields_witnessBytes _ hwitness h
    rw [List.length_replicate] at hyields
    obtain ⟨after, hends⟩ := Primality.answers_of_yields hyields parts
    have hcheck : Ends (fun fuel => Primality.check fuel rounds p) session
        (.ok ⟨(List.replicate rounds 2).all (Primality.passesWitness p parts), some parts⟩)
        after := by
      simp only [Primality.check_of_not_settled hrounds hsettled hparts]
      exact hends.bind (Ends.of_const rfl)
    exact ⟨after, Approves.of_prime hp hcheck⟩

variable {config : Config} {session after : Session σ} {p : Nat}

/-- A search whose first candidate passes has found it. -/
theorem ends_probablePrime_of_examines (hbits : leastPrimeBits ≤ bits)
    (hopen : config.exhausted 0 = false) (h : Examines config.rounds bits session p true after) :
    Ends (fun fuel => probablePrime config fuel bits) session (.ok p)
      (after.noted (found bits 1)) := by
  obtain ⟨mid, verdict, hdraw, ⟨least, hcheck⟩, hpass⟩ := h
  refine ⟨least + 1, fun fuel hle => ?_⟩
  obtain ⟨turns, rfl⟩ : ∃ turns, fuel = turns + 1 := ⟨fuel - 1, by omega⟩
  show (probablePrime config (turns + 1) bits).runIn session = _
  rw [probablePrime_of_size (Nat.not_lt.2 hbits), searchFrom,
    if_neg (by rw [hopen]; exact Bool.false_ne_true), Draw.runIn_bind_of_ok hdraw,
    Draw.runIn_bind_of_ok (hcheck _ (by omega)), if_pos hpass]
  rfl

/-- A search whose first candidate is prime finds nothing else. -/
theorem eq_of_runIn_probablePrime (hbits : leastPrimeBits ≤ bits) (hp : p.Prime) {mid : Session σ}
    (hdraw : (randomCandidate bits).runIn session = (.ok p, mid)) {fuel r : Nat}
    (h : (probablePrime config fuel bits).runIn session = (.ok r, after)) : r = p := by
  have hfirst {c : Nat} {passed : Bool} {last : Session σ}
      (hc : Examines config.rounds bits session c passed last) : c = p := by
    obtain ⟨mid', verdict, hdraw', -, -⟩ := hc
    rw [hdraw] at hdraw'
    exact (Except.ok.inj (Prod.mk.inj hdraw').1).symm
  obtain ⟨-, candidates, last, found, hdiscards, hpass, -⟩ := examines_of_probablePrime h
  cases hdiscards with
  | none => exact hfirst hpass
  | more hfail hrest =>
    -- A candidate that fails is composite, and the first one is not.
    obtain rfl := hfirst hfail
    exact absurd hp (hfail.composite hbits).2

/-- A search whose first buffer makes a prime finds that prime on some tape, and nothing else on any
source. -/
theorem found_of_first_buffer (hbits : leastPrimeBits ≤ bits) (hp : p.Prime)
    {buffer : List UInt8} (hlength : buffer.length = bufferSize bits)
    (hbuffer : candidateOf bits buffer = p) (hrounds : config.rounds ≠ 0)
    (hopen : config.exhausted 0 = false) :
    (∃ rest after, Ends (fun fuel => probablePrime config fuel bits)
        (Session.start (⟨buffer ++ rest⟩ : Tape)) (.ok p) after)
      ∧ ∀ fuel r (session after : Session σ),
        (Source.fill (bufferSize bits) session.source).1 = .ok buffer →
          (probablePrime config fuel bits).runIn session = (.ok r, after) → r = p := by
  have hpositive : bits ≠ 0 := ne_zero_of_leastPrimeBits_le hbits
  subst hbuffer
  constructor
  · -- Behind the buffer the tape holds a witness for every round.
    set rest := witnessBytes (candidateOf bits buffer) (List.replicate config.rounds 2)
    have hfill : Source.fill (bufferSize bits) (⟨buffer ++ rest⟩ : Tape) = (.ok buffer, ⟨rest⟩) := by
      rw [fill_tape_of_le (by simp [hlength]), List.take_left' hlength, List.drop_left' hlength]
    have hdraw := runIn_randomCandidate_of_served hpositive
      (show (Source.fill (bufferSize bits) (Session.start (⟨buffer ++ rest⟩ : Tape)).source).1
        = .ok buffer from congrArg Prod.fst hfill)
    have hmid : ((Session.start (⟨buffer ++ rest⟩ : Tape)).asked (bufferSize bits)).source = ⟨rest⟩ :=
      congrArg Prod.snd hfill
    obtain ⟨after, verdict, hcheck, hpass⟩ := exists_approves_of_prime hp hrounds hmid
    exact ⟨rest, _,
      ends_probablePrime_of_examines hbits hopen ⟨_, verdict, hdraw, hcheck, hpass⟩⟩
  · intro fuel r session after hfill hrun
    exact eq_of_runIn_probablePrime hbits hp (runIn_randomCandidate_of_served hpositive hfill) hrun

/-! ## §5. Exact sizes. -/

/-- **Draws of an exact size are uniform.**  With the fewest bytes that hold the bits, and as many
spare bits as are left of these, one request decides: every number below the size stands in
`2 ^ spareBits` buffers, every number of exactly the size is an integer in twice as many, and, from
two bits on, every odd number of the size a candidate in four times as many; nothing else occurs.  So
the primes of the size are equally likely, without the even one: from each of its buffers a search
that may look at a candidate can go on to find the prime, and can find nothing else. -/
theorem exact_size_uniform (hbits : 1 ≤ bits) :
    (AsksOnce (bufferSize bits) (ofBuffer bits) (randomBits bits : Draw σ PrimeError Nat)
      ∧ Evenly (bufferSize bits) (ofBuffer bits) (· < 2 ^ bits) (2 ^ spareBits bits))
    ∧ (AsksOnce (bufferSize bits) (integerOf bits) (randomInteger bits : Draw σ PrimeError Nat)
      ∧ Evenly (bufferSize bits) (integerOf bits) (fun v => 2 ^ (bits - 1) ≤ v ∧ v < 2 ^ bits)
        (2 ^ (spareBits bits + 1)))
    ∧ (2 ≤ bits →
      (AsksOnce (bufferSize bits) (candidateOf bits) (randomCandidate bits : Draw σ PrimeError Nat)
        ∧ Evenly (bufferSize bits) (candidateOf bits)
          (fun v => v % 2 = 1 ∧ 2 ^ (bits - 1) ≤ v ∧ v < 2 ^ bits) (2 ^ (spareBits bits + 2)))
      ∧ ∀ p, p.Prime → bitLength p = bits → p ≠ 2 →
        {buffer : List UInt8 | buffer.length = bufferSize bits
            ∧ candidateOf bits buffer = p}.ncard = 2 ^ (spareBits bits + 2)
        ∧ ∀ buffer : List UInt8, buffer.length = bufferSize bits → candidateOf bits buffer = p →
          ∀ config : Config, 1 ≤ config.rounds → config.maxAttempts ≠ some 0 →
            (∃ rest after, Ends (fun fuel => probablePrime config fuel bits)
              (Session.start (⟨buffer ++ rest⟩ : Tape)) (.ok p) after)
            ∧ ∀ fuel r (session after : Session σ),
              (Source.fill (bufferSize bits) session.source).1 = .ok buffer →
                (probablePrime config fuel bits).runIn session = (.ok r, after) → r = p) := by
  have hpositive : bits ≠ 0 := by omega
  refine ⟨⟨runIn_randomBits hpositive, evenly_ofBuffer bits⟩,
    ⟨runIn_randomInteger hpositive, evenly_integerOf hpositive⟩, fun htwo => ?_⟩
  have hevenly := evenly_candidateOf htwo
  refine ⟨⟨asksOnce_randomCandidate hpositive, hevenly⟩, fun p hp hsize hodd => ⟨?_, ?_⟩⟩
  · exact hevenly.ncard p ⟨hp.eq_two_or_odd.resolve_left hodd, (bitLength_eq_iff hpositive).1 hsize⟩
  · intro buffer hlength hbuffer config hrounds hcap
    refine found_of_first_buffer htwo hp hlength hbuffer (by omega) ?_
    refine Bool.eq_false_iff.2 fun hexhausted => hcap ?_
    obtain ⟨cap, hsome, hle⟩ := exhausted_eq_true_iff.1 hexhausted
    rw [hsome, Nat.le_zero.1 hle]

/-- Of ten bits there are six to spare: 600 is an integer in 128 buffers, and the prime 521 a candidate
in 256, one of which is followed here by a search that finds it. -/
theorem exact_size_uniform_ten_bits :
    1 ≤ 10 ∧ 2 ≤ 10
      ∧ {buffer : List UInt8 | buffer.length = 2 ∧ integerOf 10 buffer = 600}.ncard = 128
      ∧ Nat.Prime 521 ∧ bitLength 521 = 10 ∧ 521 ≠ 2
      ∧ {buffer : List UInt8 | buffer.length = 2 ∧ candidateOf 10 buffer = 521}.ncard = 256
      ∧ candidateOf 10 [0, 8] = 521
      ∧ ∃ rest after, Ends (fun fuel => probablePrime ⟨10, 1, some 1⟩ fuel 10)
        (Session.start (⟨[0, 8] ++ rest⟩ : Tape)) (.ok 521) after := by
  obtain ⟨-, ⟨-, hinteger⟩, hcandidate⟩ := exact_size_uniform (σ := Tape) (show 1 ≤ 10 by decide)
  obtain ⟨hcount, hfound⟩ := (hcandidate (by decide)).2 521 (by norm_num) (by decide) (by decide)
  refine ⟨by decide, by decide, hinteger.ncard 600 (by decide), by norm_num, by decide, by decide,
    hcount, by decide, ?_⟩
  exact (hfound [0, 8] rfl (by decide) ⟨10, 1, some 1⟩ (by decide) (by decide)).1

/-- **The even prime is out of reach**: all candidates of two bits are 3, so no buffer makes the prime
2, which has two bits as well, and no search finds it. -/
theorem two_out_of_reach :
    (Nat.Prime 2 ∧ bitLength 2 = 2)
      ∧ {buffer : List UInt8 | buffer.length = bufferSize 2 ∧ candidateOf 2 buffer = 2}.ncard = 0
      ∧ {buffer : List UInt8 | buffer.length = bufferSize 2 ∧ candidateOf 2 buffer = 3}.ncard = 256
      ∧ (∀ config fuel (session after : Session Tape),
        (probablePrime config fuel 2).runIn session ≠ (.ok 2, after))
      ∧ ¬ ∀ bits p, 2 ≤ bits → p.Prime → bitLength p = bits →
        ∃ buffer : List UInt8, buffer.length = bufferSize bits ∧ candidateOf bits buffer = p := by
  have hevenly := evenly_candidateOf (show 2 ≤ 2 from le_rfl)
  have hnone (buffer : List UInt8) (hlength : buffer.length = bufferSize 2) :
      candidateOf 2 buffer ≠ 2 := by
    intro htwo
    have hodd := (hevenly.mem buffer hlength).1
    rw [htwo] at hodd
    exact absurd hodd (by decide)
  refine ⟨⟨Nat.prime_two, rfl⟩, ?_, hevenly.ncard 3 (by decide), ?_, ?_⟩
  · refine (Set.ncard_eq_zero (finite_buffers ..)).2 (Set.eq_empty_iff_forall_notMem.2 ?_)
    rintro buffer ⟨hlength, htwo⟩
    exact hnone buffer hlength htwo
  · intro config fuel session after hfound
    exact absurd (OfSize.of_probablePrime hfound).odd (by decide)
  · intro hall
    obtain ⟨buffer, hlength, htwo⟩ := hall 2 2 le_rfl Nat.prime_two rfl
    exact hnone buffer hlength htwo

end ProbablePrime
