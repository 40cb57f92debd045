/-
  ProbablePrime.Proofs.Primality.SignRoots — units with a power that is one or minus one.

  The bases to which a composite number `n` behaves like a prime all lie in one subgroup of the units
  modulo `n`: the units whose power to a certain exponent is one or minus one.  This module shows
  that the subgroup has at most a quarter of the units.

  Where the square of a prime divides `n`, the subgroup meets a cyclic group of that prime order in
  one only.  Otherwise `n` splits into coprime factors, and two proper inclusions lead from the
  subgroup to all units: a sign may be chosen for each factor, and not every unit has signs at all.

  Main results:
    * `mul_card_signRoots_le_of_sq_dvd` and `four_mul_card_signRoots_le_of_squarefree` — the cases;
    * `four_mul_card_signRoots_le` — the subgroup has at most a quarter of the units.
-/
import Mathlib

namespace ProbablePrime.Primality

/-! ## §1. The subgroup. -/

/-- The units modulo `n` whose power to the exponent `m` is one or minus one. -/
def signRoots (n m : Nat) : Subgroup (ZMod n)ˣ where
  carrier := {x | x ^ m = 1 ∨ x ^ m = -1}
  one_mem' := Or.inl (one_pow m)
  mul_mem' {x y} hx hy := by
    rcases hx with hx | hx <;> rcases hy with hy | hy <;> simp [mul_pow, hx, hy]
  inv_mem' {x} hx := by
    rcases hx with hx | hx <;> simp [inv_pow, hx]

theorem mem_signRoots {n m : Nat} {x : (ZMod n)ˣ} :
    x ∈ signRoots n m ↔ x ^ m = 1 ∨ x ^ m = -1 := Iff.rfl

/-- A sign squares to one. -/
theorem pow_two_mul_of_mem_signRoots {n m : Nat} {x : (ZMod n)ˣ} (hx : x ∈ signRoots n m) :
    x ^ (2 * m) = 1 := by
  rw [mul_comm, pow_mul]
  rcases mem_signRoots.1 hx with h | h <;> simp [h]

/-- Reduction to a divisor keeps minus one. -/
theorem unitsMap_neg_one {n m : Nat} (h : n ∣ m) : ZMod.unitsMap h (-1) = -1 := by
  apply Units.ext
  simp [ZMod.unitsMap_def]

/-- Reduction to a divisor keeps the roots of signs. -/
theorem unitsMap_mem_signRoots {n k m : Nat} (h : n ∣ k) {x : (ZMod k)ˣ} (hx : x ∈ signRoots k m) :
    ZMod.unitsMap h x ∈ signRoots n m := by
  rw [mem_signRoots, ← map_pow]
  rcases mem_signRoots.1 hx with hx | hx
  · exact Or.inl (by rw [hx, map_one])
  · exact Or.inr (by rw [hx, unitsMap_neg_one])

/-- Beyond two, minus one is not one. -/
theorem neg_one_ne_one_units {n : Nat} (hn : 2 < n) : (-1 : (ZMod n)ˣ) ≠ 1 := by
  have : Fact (2 < n) := ⟨hn⟩
  intro h
  exact ZMod.neg_one_ne_one (congrArg Units.val h)

/-! ## §2. Proper subgroups. -/

/-- A proper inclusion of finite groups at least doubles the number of elements. -/
theorem two_mul_card_le_of_lt {G : Type} [Group G] [Finite G] {H K : Subgroup G} (h : H < K) :
    2 * Nat.card H ≤ Nat.card K := by
  obtain ⟨c, hc⟩ := Subgroup.card_dvd_of_le h.le
  have hpos : 0 < Nat.card K := Nat.card_pos
  have hlt : Nat.card H < Nat.card K := by
    by_contra hge
    exact h.ne (Subgroup.eq_of_le_of_card_ge h.le (by omega))
  have htwo : 2 ≤ c := by
    by_contra hsmall
    have hcases : c = 0 ∨ c = 1 := by omega
    rcases hcases with rfl | rfl
    · omega
    · omega
  calc 2 * Nat.card H = Nat.card H * 2 := Nat.mul_comm _ _
    _ ≤ Nat.card H * c := Nat.mul_le_mul_left _ htwo
    _ = Nat.card K := hc.symm

/-! ## §3. Coprime factors. -/

/-- Units modulo coprime factors come from one unit modulo the product. -/
theorem exists_unitsMap_eq {p m : Nat} [NeZero p] [NeZero m] (h : p.Coprime m)
    (u : (ZMod p)ˣ) (v : (ZMod m)ˣ) :
    ∃ x : (ZMod (p * m))ˣ, ZMod.unitsMap (Nat.dvd_mul_right p m) x = u
      ∧ ZMod.unitsMap (Nat.dvd_mul_left m p) x = v := by
  obtain ⟨k, hkp, hkm⟩ := Nat.chineseRemainder h (u : ZMod p).val (v : ZMod m).val
  have hu : ((k : Nat) : ZMod p) = u := by
    rw [(ZMod.natCast_eq_natCast_iff k _ p).2 hkp, ZMod.natCast_zmod_val]
  have hv : ((k : Nat) : ZMod m) = v := by
    rw [(ZMod.natCast_eq_natCast_iff k _ m).2 hkm, ZMod.natCast_zmod_val]
  have hcp : k.Coprime p := (ZMod.isUnit_iff_coprime k p).1 (hu ▸ u.isUnit)
  have hcm : k.Coprime m := (ZMod.isUnit_iff_coprime k m).1 (hv ▸ v.isUnit)
  refine ⟨ZMod.unitOfCoprime k (hcp.mul_right hcm), ?_, ?_⟩
  · apply Units.ext
    rw [← hu, ZMod.unitsMap_def, Units.coe_map, ZMod.coe_unitOfCoprime]
    exact map_natCast (ZMod.castHom (Nat.dvd_mul_right p m) (ZMod p)) k
  · apply Units.ext
    rw [← hv, ZMod.unitsMap_def, Units.coe_map, ZMod.coe_unitOfCoprime]
    exact map_natCast (ZMod.castHom (Nat.dvd_mul_left m p) (ZMod m)) k

/-- A unit that is one modulo coprime factors is one. -/
theorem eq_one_of_unitsMap_eq_one {p m : Nat} (h : p.Coprime m) {x : (ZMod (p * m))ˣ}
    (hp : ZMod.unitsMap (Nat.dvd_mul_right p m) x = 1)
    (hm : ZMod.unitsMap (Nat.dvd_mul_left m p) x = 1) : x = 1 := by
  have hfst : (RingHom.fst (ZMod p) (ZMod m)).comp (ZMod.chineseRemainder h : ZMod (p * m) →+* _)
      = ZMod.castHom (Nat.dvd_mul_right p m) (ZMod p) := Subsingleton.elim _ _
  have hsnd : (RingHom.snd (ZMod p) (ZMod m)).comp (ZMod.chineseRemainder h : ZMod (p * m) →+* _)
      = ZMod.castHom (Nat.dvd_mul_left m p) (ZMod m) := Subsingleton.elim _ _
  apply Units.ext
  apply (ZMod.chineseRemainder h).injective
  rw [Units.val_one, map_one]
  apply Prod.ext
  · exact (RingHom.congr_fun hfst x).trans (congrArg Units.val hp)
  · exact (RingHom.congr_fun hsnd x).trans (congrArg Units.val hm)

/-! ## §4. Signs of factors. -/

/-- If some power is minus one, a power can be minus one modulo one factor and one modulo another. -/
theorem exists_mixed_signs {p m e : Nat} [NeZero p] [NeZero m] (h : p.Coprime m)
    {a : (ZMod (p * m))ˣ} (ha : a ^ e = -1) :
    ∃ x : (ZMod (p * m))ˣ, ZMod.unitsMap (Nat.dvd_mul_right p m) x ^ e = -1
      ∧ ZMod.unitsMap (Nat.dvd_mul_left m p) x ^ e = 1 := by
  obtain ⟨x, hxp, hxm⟩ := exists_unitsMap_eq h (ZMod.unitsMap (Nat.dvd_mul_right p m) a) 1
  refine ⟨x, ?_, ?_⟩
  · rw [hxp, ← map_pow, ha, unitsMap_neg_one]
  · rw [hxm, one_pow]

/-- A power with mixed signs is neither one nor minus one. -/
theorem not_mem_signRoots_of_mixed {p m e : Nat} (hp : 2 < p) (hm : 2 < m) {x : (ZMod (p * m))ˣ}
    (hxp : ZMod.unitsMap (Nat.dvd_mul_right p m) x ^ e = -1)
    (hxm : ZMod.unitsMap (Nat.dvd_mul_left m p) x ^ e = 1) : x ∉ signRoots (p * m) e := by
  intro hx
  rcases mem_signRoots.1 hx with h | h
  · rw [← map_pow, h, map_one] at hxp
    exact neg_one_ne_one_units hp hxp.symm
  · rw [← map_pow, h, unitsMap_neg_one] at hxm
    exact neg_one_ne_one_units hm hxm

/-- The units with a power that is one or minus one modulo each of two factors. -/
def factorSigns (p m e : Nat) : Subgroup (ZMod (p * m))ˣ :=
  (signRoots p e).comap (ZMod.unitsMap (Nat.dvd_mul_right p m))
    ⊓ (signRoots m e).comap (ZMod.unitsMap (Nat.dvd_mul_left m p))

/-- To have one sign is less than to have a sign for each factor. -/
theorem signRoots_lt_factorSigns {p m e : Nat} (hp : 2 < p) (hm : 2 < m) (h : p.Coprime m)
    {a : (ZMod (p * m))ˣ} (ha : a ^ e = -1) : signRoots (p * m) e < factorSigns p m e := by
  have : NeZero p := ⟨by omega⟩
  have : NeZero m := ⟨by omega⟩
  obtain ⟨x, hxp, hxm⟩ := exists_mixed_signs h ha
  apply lt_of_le_of_ne
  · intro y hy
    exact ⟨unitsMap_mem_signRoots _ hy, unitsMap_mem_signRoots _ hy⟩
  · intro heq
    apply not_mem_signRoots_of_mixed hp hm hxp hxm
    rw [heq]
    exact ⟨Or.inr hxp, Or.inl hxm⟩

/-- What is a sign modulo each factor squares to one. -/
theorem pow_two_mul_of_mem_factorSigns {p m e : Nat} (h : p.Coprime m) {x : (ZMod (p * m))ˣ}
    (hx : x ∈ factorSigns p m e) : x ^ (2 * e) = 1 := by
  apply eq_one_of_unitsMap_eq_one h
  · rw [map_pow, pow_two_mul_of_mem_signRoots hx.1]
  · rw [map_pow, pow_two_mul_of_mem_signRoots hx.2]

/-! ## §5. Splitting off a prime. -/

/-- A composite number without the factor two and without square factors is a prime times a coprime
number beyond two. -/
theorem exists_prime_mul_coprime {n : Nat} (hn : 1 < n) (hcomp : ¬ n.Prime)
    (hodd : ∀ q, q.Prime → q ∣ n → 2 < q) (hsq : ∀ q, q.Prime → ¬ q * q ∣ n) :
    ∃ p m, p.Prime ∧ 2 < m ∧ p.Coprime m ∧ n = p * m := by
  have hp : n.minFac.Prime := Nat.minFac_prime (by omega)
  obtain ⟨m, hm⟩ := Nat.minFac_dvd n
  generalize n.minFac = p at hp hm
  refine ⟨p, m, hp, ?_, ?_, hm⟩
  · have hzero : m ≠ 0 := by
      intro h
      rw [h, Nat.mul_zero] at hm
      omega
    have hone : m ≠ 1 := by
      intro h
      rw [h, Nat.mul_one] at hm
      exact hcomp (hm ▸ hp)
    have htwo : m ≠ 2 := by
      intro h
      rw [h] at hm
      exact absurd (hodd 2 Nat.prime_two (hm ▸ Nat.dvd_mul_left 2 p)) (by omega)
    omega
  · rw [hp.coprime_iff_not_dvd]
    intro h
    exact hsq p hp (hm ▸ Nat.mul_dvd_mul_left p h)

/-! ## §6. Not every unit has signs. -/

/-- If a power is one for every unit, the exponent is a multiple of `p - 1` for every prime factor
`p` of the modulus. -/
theorem sub_one_dvd_of_forall_pow_eq_one {n p k : Nat} [NeZero n] (hp : p.Prime) (hdvd : p ∣ n)
    (h : ∀ x : (ZMod n)ˣ, x ^ k = 1) : p - 1 ∣ k := by
  have : Fact p.Prime := ⟨hp⟩
  obtain ⟨g, hg⟩ := IsCyclic.exists_ofOrder_eq_natCard (α := (ZMod p)ˣ)
  rw [Nat.card_eq_fintype_card, ZMod.card_units_eq_totient, Nat.totient_prime hp] at hg
  obtain ⟨x, hx⟩ := ZMod.unitsMap_surjective hdvd g
  rw [← hg]
  apply orderOf_dvd_of_pow_eq_one
  rw [← hx, ← map_pow, h x, map_one]

/-- What divides the predecessor of a product and is the predecessor of one factor divides the
predecessor of the other. -/
theorem sub_one_dvd_sub_one {p q : Nat} (hp : 1 < p) (hq : 1 < q) (h : p - 1 ∣ p * q - 1) :
    p - 1 ∣ q - 1 := by
  have hsum : p * q - 1 = (p - 1) * q + (q - 1) := by
    rw [Nat.sub_mul, Nat.one_mul]
    have : q ≤ p * q := Nat.le_mul_of_pos_left q (by omega)
    omega
  rw [hsum] at h
  exact (Nat.dvd_add_right (Nat.dvd_mul_right (p - 1) q)).1 h

/-- The predecessors of two primes divide the predecessor of their product only if the primes are
the same. -/
theorem eq_of_sub_one_dvd {p q : Nat} (hp : 1 < p) (hq : 1 < q) (hdp : p - 1 ∣ p * q - 1)
    (hdq : q - 1 ∣ p * q - 1) : p = q := by
  have hpq : p - 1 ∣ q - 1 := sub_one_dvd_sub_one hp hq hdp
  have hqp : q - 1 ∣ p - 1 := sub_one_dvd_sub_one hq hp (by rwa [Nat.mul_comm])
  have := Nat.dvd_antisymm hpq hqp
  omega

/-- Modulo a composite number without square factors, some unit has no sign modulo some factor: the
second factor splits again, or there are two primes only and their predecessors cannot both divide
the predecessor of the number. -/
theorem factorSigns_ne_top {p m e : Nat} (hp : p.Prime) (hm : 2 < m) (h : p.Coprime m)
    (hodd : ∀ q, q.Prime → q ∣ m → 2 < q) (hsq : ∀ q, q.Prime → ¬ q * q ∣ m)
    {a : (ZMod (p * m))ˣ} (ha : a ^ e = -1) (hdvd : 2 * e ∣ p * m - 1) :
    factorSigns p m e ≠ ⊤ := by
  intro htop
  have : NeZero p := ⟨hp.ne_zero⟩
  have : NeZero m := ⟨by omega⟩
  have hall (x : (ZMod (p * m))ˣ) : x ∈ factorSigns p m e := htop ▸ Subgroup.mem_top x
  by_cases hprime : m.Prime
  · -- Two primes: all orders divide `2 * e`, so both predecessors do.
    have hone (x : (ZMod (p * m))ˣ) : x ^ (2 * e) = 1 := pow_two_mul_of_mem_factorSigns h (hall x)
    have hpm : p = m := by
      apply eq_of_sub_one_dvd hp.one_lt hprime.one_lt
      · exact (sub_one_dvd_of_forall_pow_eq_one hp (Nat.dvd_mul_right p m) hone).trans hdvd
      · exact (sub_one_dvd_of_forall_pow_eq_one hprime (Nat.dvd_mul_left m p) hone).trans hdvd
    exact hp.one_lt.ne' (by rwa [← hpm, Nat.coprime_self] at h)
  · -- Three factors or more: a unit with mixed signs modulo the second has no sign there.
    obtain ⟨q, l, hq, hlarge, hql, rfl⟩ := exists_prime_mul_coprime (by omega) hprime hodd hsq
    have : NeZero q := ⟨hq.ne_zero⟩
    have : NeZero l := ⟨by omega⟩
    have hb : ZMod.unitsMap (Nat.dvd_mul_left (q * l) p) a ^ e = -1 := by
      rw [← map_pow, ha, unitsMap_neg_one]
    obtain ⟨x, hxq, hxl⟩ := exists_mixed_signs hql hb
    obtain ⟨y, hy⟩ := ZMod.unitsMap_surjective (Nat.dvd_mul_left (q * l) p) x
    apply not_mem_signRoots_of_mixed (hodd q hq (Nat.dvd_mul_right q l)) hlarge hxq hxl
    rw [← hy]
    exact (hall y).2

/-! ## §7. Squares of primes. -/

/-- One and a number whose square vanishes: the powers are linear. -/
theorem one_add_pow_of_mul_self_eq_zero {R : Type} [CommRing R] {y : R} (hy : y * y = 0)
    (k : Nat) : (1 + y) ^ k = 1 + k * y := by
  induction k with
  | zero => simp
  | succ k ih =>
    rw [pow_succ, ih]
    push_cast
    linear_combination (k : R) * hy

/-- Modulo a multiple of the square of a prime there is a unit of that prime order. -/
theorem exists_orderOf_eq {n p : Nat} [NeZero n] (hp : p.Prime) (hsq : p * p ∣ n) :
    ∃ g : (ZMod n)ˣ, orderOf g = p := by
  have : Fact p.Prime := ⟨hp⟩
  obtain ⟨l, rfl⟩ := hsq
  have hpos : 0 < l := by
    apply Nat.pos_of_ne_zero
    intro h
    exact NeZero.ne (p * p * l) (by rw [h, Nat.mul_zero])
  have hcop : (1 + p * l).Coprime (p * p * l) := by
    have hself : (1 + p * l).Coprime (p * l) := by
      rw [Nat.coprime_add_self_left]
      exact Nat.coprime_one_left _
    apply (hself.mul_right hself).coprime_dvd_right
    exact ⟨l, by ring⟩
  have hzero : ((p * p * l : Nat) : ZMod (p * p * l)) = 0 := ZMod.natCast_self _
  have hy : ((p * l : Nat) : ZMod (p * p * l)) * ((p * l : Nat) : ZMod (p * p * l)) = 0 := by
    push_cast at hzero ⊢
    linear_combination (l : ZMod (p * p * l)) * hzero
  -- The unit is `1 + p * l`: the square of `p * l` vanishes, so its powers are linear.
  refine ⟨ZMod.unitOfCoprime (1 + p * l) hcop, ?_⟩
  apply orderOf_eq_prime
  · apply Units.ext
    rw [Units.val_pow_eq_pow_val, ZMod.coe_unitOfCoprime, Nat.cast_add, Nat.cast_one,
      one_add_pow_of_mul_self_eq_zero hy, Units.val_one]
    push_cast at hzero ⊢
    linear_combination hzero
  · intro hone
    have hval := congrArg Units.val hone
    rw [ZMod.coe_unitOfCoprime, Nat.cast_add, Nat.cast_one, Units.val_one, add_eq_left,
      ZMod.natCast_eq_zero_iff] at hval
    have hle : p * p * l ≤ p * l := Nat.le_of_dvd (Nat.mul_pos hp.pos hpos) hval
    have hlt : p * l < p * (p * l) := (Nat.lt_mul_iff_one_lt_left (Nat.mul_pos hp.pos hpos)).2
      hp.one_lt
    rw [Nat.mul_assoc] at hle
    omega

/-- Where the square of a prime divides the modulus, the units with signs are at most one in as many
as the prime. -/
theorem mul_card_signRoots_le_of_sq_dvd {n p e : Nat} [NeZero n] (hp : p.Prime)
    (hsq : p * p ∣ n) (hdvd : 2 * e ∣ n - 1) :
    p * Nat.card (signRoots n e) ≤ Nat.card (ZMod n)ˣ := by
  obtain ⟨g, hg⟩ := exists_orderOf_eq hp hsq
  have hcop : p.Coprime (n - 1) := by
    rw [hp.coprime_iff_not_dvd]
    intro h
    have hpn : p ∣ n := (Nat.dvd_mul_right p p).trans hsq
    have hone : p ∣ n - (n - 1) := Nat.dvd_sub hpn h
    rw [Nat.sub_sub_self (Nat.pos_of_ne_zero (NeZero.ne n))] at hone
    exact hp.one_lt.ne' (Nat.dvd_one.1 hone)
  -- Orders of roots of signs divide `n - 1`, and orders of powers of `g` divide `p`.
  have hdisjoint : Disjoint (Subgroup.zpowers g) (signRoots n e) := by
    rw [Subgroup.disjoint_def]
    intro x hx hsign
    have hxp : orderOf x ∣ p := hg ▸ orderOf_dvd_of_mem_zpowers hx
    have hxn : orderOf x ∣ n - 1 :=
      (orderOf_dvd_of_pow_eq_one (pow_two_mul_of_mem_signRoots hsign)).trans hdvd
    rw [← orderOf_eq_one_iff]
    exact Nat.eq_one_of_dvd_coprimes hcop hxp hxn
  have hcard := Nat.card_le_card_of_injective _ (Subgroup.mul_injective_of_disjoint hdisjoint)
  rwa [Nat.card_prod, Nat.card_zpowers, hg] at hcard

/-! ## §8. The quarter. -/

/-- Where no square of a prime divides the composite modulus, at most a quarter of the units have
signs. -/
theorem four_mul_card_signRoots_le_of_squarefree {n e : Nat} (hn : 1 < n) (hcomp : ¬ n.Prime)
    (hodd : ∀ q, q.Prime → q ∣ n → 2 < q) (hsq : ∀ q, q.Prime → ¬ q * q ∣ n)
    {a : (ZMod n)ˣ} (ha : a ^ e = -1) (hdvd : 2 * e ∣ n - 1) :
    4 * Nat.card (signRoots n e) ≤ Nat.card (ZMod n)ˣ := by
  obtain ⟨p, m, hp, hlarge, hpm, rfl⟩ := exists_prime_mul_coprime hn hcomp hodd hsq
  have : NeZero p := ⟨hp.ne_zero⟩
  have : NeZero m := ⟨by omega⟩
  have hfirst : 2 * Nat.card (signRoots (p * m) e) ≤ Nat.card (factorSigns p m e) :=
    two_mul_card_le_of_lt
      (signRoots_lt_factorSigns (hodd p hp (Nat.dvd_mul_right p m)) hlarge hpm ha)
  have hsecond : 2 * Nat.card (factorSigns p m e) ≤ Nat.card (⊤ : Subgroup (ZMod (p * m))ˣ) := by
    apply two_mul_card_le_of_lt
    rw [lt_top_iff_ne_top]
    exact factorSigns_ne_top hp hlarge hpm
      (fun q hq h => hodd q hq (h.trans (Nat.dvd_mul_left m p)))
      (fun q hq h => hsq q hq (h.trans (Nat.dvd_mul_left m p))) ha hdvd
  rw [Subgroup.card_top] at hsecond
  omega

/-- **At most a quarter of the units have signs**, if the modulus is composite without the factors
two and three. -/
theorem four_mul_card_signRoots_le {n e : Nat} (hn : 1 < n) (hcomp : ¬ n.Prime)
    (hfactors : ∀ q, q.Prime → q ∣ n → 3 < q) {a : (ZMod n)ˣ} (ha : a ^ e = -1)
    (hdvd : 2 * e ∣ n - 1) : 4 * Nat.card (signRoots n e) ≤ Nat.card (ZMod n)ˣ := by
  have : NeZero n := ⟨by omega⟩
  by_cases hsq : ∃ p, p.Prime ∧ p * p ∣ n
  · obtain ⟨p, hp, hsq⟩ := hsq
    have hfour : 4 ≤ p := hfactors p hp ((Nat.dvd_mul_right p p).trans hsq)
    exact (Nat.mul_le_mul_right _ hfour).trans (mul_card_signRoots_le_of_sq_dvd hp hsq hdvd)
  · apply four_mul_card_signRoots_le_of_squarefree hn hcomp ?_ ?_ ha hdvd
    · intro q hq h
      have := hfactors q hq h
      omega
    · intro q hq h
      exact hsq ⟨q, hq, h⟩

end ProbablePrime.Primality
