/-
  ProbablePrime.Proofs.Primality.Liars — how often a round errs.

  A witness that a composite number passes is a liar.  Among all exponents `d * 2 ^ i` for which some
  unit has the power minus one, take the one with the largest `i`: every liar then has the power one
  or minus one to that exponent, so all liars lie in one subgroup of the units, which has at most a
  quarter of them.  One and minus one lie in it too and are never drawn.

  Main results:
    * `StrongProbablePrime.exists_signRoot` — liars are units with a sign;
    * `four_mul_card_liars_le` — at most a quarter of the witnesses of a round are liars.
-/
import ProbablePrime.Proofs.Primality.SignRoots
import ProbablePrime.Proofs.Primality.StrongTest

namespace ProbablePrime.Primality

variable {n : Nat} {parts : Decomposition}

/-! ## §1. An exponent for all liars. -/

/-- Among the squarings of a test there is a last one at which some unit arrives at minus one. -/
theorem exists_last_squaring (hs : 0 < parts.s) :
    ∃ last < parts.s, (∃ a : (ZMod n)ˣ, a ^ 2 ^ last = -1)
      ∧ ∀ i < parts.s, ∀ a : (ZMod n)ˣ, a ^ 2 ^ i = -1 → i ≤ last := by
  classical
  set reached : Nat → Prop := fun i => ∃ a : (ZMod n)ˣ, a ^ 2 ^ i = -1 with hreached
  have hzero : reached 0 := ⟨-1, by rw [pow_zero, pow_one]⟩
  refine ⟨Nat.findGreatest reached (parts.s - 1), ?_, ?_, ?_⟩
  · have := Nat.findGreatest_le (P := reached) (parts.s - 1)
    omega
  · exact Nat.findGreatest_spec (Nat.zero_le _) hzero
  · intro i hi a ha
    exact Nat.le_findGreatest (by omega) ⟨a, ha⟩

/-- The bases to which a number behaves like a prime are units with a sign. -/
theorem StrongProbablePrime.exists_signRoot (hn : 1 < n) {last : Nat}
    (hlast : ∀ i < parts.s, ∀ a : (ZMod n)ˣ, a ^ 2 ^ i = -1 → i ≤ last) (hd : 0 < parts.d)
    {a : Nat} (ha : StrongProbablePrime n parts a) :
    ∃ u ∈ signRoots n (parts.d * 2 ^ last), (u : ZMod n) = a := by
  rw [strongProbablePrime_iff_zmod hn] at ha
  have hunit : IsUnit (a : ZMod n) := by
    rcases ha with h | ⟨i, -, h⟩
    · exact IsUnit.of_pow_eq_one h hd.ne'
    · have hpower : IsUnit ((a : ZMod n) ^ (parts.d * 2 ^ i)) := h ▸ isUnit_one.neg
      exact (isUnit_pow_iff (by positivity)).1 hpower
  -- From here on the condition is one on a unit, and signs can be compared among the units.
  obtain ⟨u, hu⟩ := hunit
  refine ⟨u, ?_, hu⟩
  rw [← hu] at ha
  rcases ha with h | ⟨i, hi, h⟩
  · have hone : u ^ parts.d = 1 := Units.ext (by rw [Units.val_pow_eq_pow_val, h, Units.val_one])
    exact Or.inl (by rw [pow_mul, hone, one_pow])
  · have hminus : u ^ (parts.d * 2 ^ i) = -1 :=
      Units.ext (by rw [Units.val_pow_eq_pow_val, h, Units.val_neg, Units.val_one])
    have hle : i ≤ last := hlast i hi (u ^ parts.d) (by rw [← pow_mul, hminus])
    -- Past the squaring that arrives at minus one, every squaring is one.
    rcases hle.eq_or_lt with rfl | hlt
    · exact Or.inr hminus
    · left
      have hsplit : parts.d * 2 ^ last = parts.d * 2 ^ i * (2 * 2 ^ (last - i - 1)) := by
        rw [Nat.mul_assoc, ← Nat.pow_succ', ← Nat.pow_add]
        congr 2
        omega
      rw [hsplit, pow_mul, hminus, pow_mul, neg_one_sq, one_pow]

/-! ## §2. Counting liars. -/

/-- The witnesses that a round can draw and that `n` passes. -/
def liars (n : Nat) (parts : Decomposition) : Finset Nat :=
  (Finset.Icc 2 (n - 2)).filter (passesWitness n parts ·)

/-- Below the modulus, different numbers are different residues. -/
theorem eq_of_natCast_eq {a b : Nat} (ha : a < n) (hb : b < n) (h : (a : ZMod n) = b) : a = b := by
  rw [ZMod.natCast_eq_natCast_iff', Nat.mod_eq_of_lt ha, Nat.mod_eq_of_lt hb] at h
  exact h

/-- There are no more numbers that are units with a sign than there are such units. -/
theorem card_le_card_signRoots [NeZero n] {e : Nat} {numbers : Finset Nat}
    (hlt : ∀ a ∈ numbers, a < n)
    (hroots : ∀ a ∈ numbers, ∃ u ∈ signRoots n e, (u : ZMod n) = a) :
    numbers.card ≤ Nat.card (signRoots n e) := by
  choose root hmem hval using hroots
  have hinjective : Function.Injective
      (fun a : numbers => (⟨root a a.2, hmem a a.2⟩ : signRoots n e)) := by
    intro a b hab
    have hroot : root a a.2 = root b b.2 := congrArg Subtype.val hab
    apply Subtype.ext
    apply eq_of_natCast_eq (hlt a a.2) (hlt b b.2)
    rw [← hval a a.2, ← hval b b.2, hroot]
  have hcard := Nat.card_le_card_of_injective _ hinjective
  rwa [Nat.card_eq_finsetCard] at hcard

/-- The signs themselves are among the units with a sign, and no witness is a sign. -/
theorem card_add_two_le_card_signRoots (hn : 2 < n) {e : Nat} {numbers : Finset Nat}
    (hrange : numbers ⊆ Finset.Icc 2 (n - 2))
    (hroots : ∀ a ∈ numbers, ∃ u ∈ signRoots n e, (u : ZMod n) = a) :
    numbers.card + 2 ≤ Nat.card (signRoots n e) := by
  have : NeZero n := ⟨by omega⟩
  have hbounds {a : Nat} (ha : a ∈ numbers) : 2 ≤ a ∧ a ≤ n - 2 := Finset.mem_Icc.1 (hrange ha)
  have hlast : n - 1 ∉ numbers := by
    intro h
    have := hbounds h
    omega
  have hfirst : 1 ∉ insert (n - 1) numbers := by
    intro h
    rcases Finset.mem_insert.1 h with h | h
    · omega
    · have := hbounds h
      omega
  -- One and `n - 1` are no witnesses, so they can be added to any set of witnesses.
  have hcard : (insert 1 (insert (n - 1) numbers)).card = numbers.card + 2 := by
    rw [Finset.card_insert_of_notMem hfirst, Finset.card_insert_of_notMem hlast]
  rw [← hcard]
  apply card_le_card_signRoots
  · intro a ha
    rcases Finset.mem_insert.1 ha with rfl | ha
    · omega
    · rcases Finset.mem_insert.1 ha with rfl | ha
      · omega
      · have := hbounds ha
        omega
  · intro a ha
    rcases Finset.mem_insert.1 ha with rfl | ha
    · exact ⟨1, one_mem _, by rw [Units.val_one, Nat.cast_one]⟩
    · rcases Finset.mem_insert.1 ha with rfl | ha
      · refine ⟨-1, ?_, ?_⟩
        · exact mem_signRoots.2 (neg_one_pow_eq_or _ e)
        · rw [Units.val_neg, Units.val_one, Nat.cast_sub (by omega), ZMod.natCast_self, Nat.cast_one,
            zero_sub]
      · exact hroots a ha

/-- **At most a quarter of the witnesses of a round are liars**, if the number is composite without
the factors two and three. -/
theorem four_mul_card_liars_le (hn : 1 < n) (hcomp : ¬ n.Prime)
    (hfactors : ∀ q, q.Prime → q ∣ n → 3 < q) (hparts : Decomposition.Of n parts) :
    4 * (liars n parts).card ≤ n - 3 := by
  have : NeZero n := ⟨by omega⟩
  have hodd : n % 2 = 1 := by
    by_contra heven
    have := hfactors 2 Nat.prime_two (by omega)
    omega
  have hd : 0 < parts.d := by
    have := hparts.odd
    omega
  obtain ⟨last, hlt, ⟨a, ha⟩, hlast⟩ := exists_last_squaring (n := n) (hparts.s_pos hodd)
  -- The odd exponent changes nothing about minus one.
  have hminus : a ^ (parts.d * 2 ^ last) = -1 := by
    rw [Nat.mul_comm, pow_mul, ha]
    exact (Nat.odd_iff.2 hparts.odd).neg_one_pow
  have hdvd : 2 * (parts.d * 2 ^ last) ∣ n - 1 := by
    rw [hparts.eq, Nat.add_sub_cancel, Nat.mul_left_comm, ← Nat.pow_succ']
    exact Nat.mul_dvd_mul_left _ (Nat.pow_dvd_pow 2 hlt)
  have hquarter := four_mul_card_signRoots_le hn hcomp hfactors hminus hdvd
  have hcount : (liars n parts).card + 2 ≤ Nat.card (signRoots n (parts.d * 2 ^ last)) := by
    apply card_add_two_le_card_signRoots (by omega) (Finset.filter_subset _ _)
    intro b hb
    have hpass := (Finset.mem_filter.1 hb).2
    rw [passesWitness_iff (by omega) (hparts.s_pos hodd)] at hpass
    exact hpass.exists_signRoot hn hlast hd
  have hunits : Nat.card (ZMod n)ˣ < n := by
    rw [Nat.card_eq_fintype_card, ZMod.card_units_eq_totient]
    exact Nat.totient_lt n hn
  omega

end ProbablePrime.Primality
