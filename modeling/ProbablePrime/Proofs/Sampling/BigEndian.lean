/-
  ProbablePrime.Proofs.Sampling.BigEndian — numbers and the bytes that write them.

  Buffers of `size` bytes and numbers below `256 ^ size` are the same thing: `toBigEndian` writes
  what `ofBigEndian` reads.  A draw masks the first byte of its buffer, and what it keeps is then the
  number of the buffer without the bits that are too many; so every number of the right size has the
  same number of buffers.

  Main results:
    * `ofBigEndian_toBigEndian` and `toBigEndian_ofBigEndian` — reading and writing are inverse;
    * `ofBuffer_eq_mod` — to mask the first byte is to take a remainder of the number;
    * `ncard_buffers` — how many buffers give a number of the size that is drawn.
-/
import Mathlib
import ProbablePrime.Sampling

namespace ProbablePrime

/-! ## §1. Reading and writing. -/

/-- The lowest `size` base-256 digits of a number, the highest first. -/
def toBigEndian : (size n : Nat) → List UInt8
  | 0, _ => []
  | size + 1, n => toBigEndian size (n / 256) ++ [UInt8.ofNat n]

@[simp] theorem length_toBigEndian (size n : Nat) : (toBigEndian size n).length = size := by
  induction size generalizing n with
  | zero => rfl
  | succ size ih => rw [toBigEndian, List.length_append, ih, List.length_singleton]

@[simp] theorem ofBigEndian_nil : ofBigEndian [] = 0 := rfl

theorem ofBigEndian_concat (bytes : List UInt8) (byte : UInt8) :
    ofBigEndian (bytes ++ [byte]) = ofBigEndian bytes * 256 + byte.toNat := by
  rw [ofBigEndian, List.foldl_append]
  rfl

theorem ofBigEndian_lt (bytes : List UInt8) : ofBigEndian bytes < 256 ^ bytes.length := by
  induction bytes using List.reverseRecOn with
  | nil => decide
  | append_singleton bytes byte ih =>
    have := byte.toNat_lt
    rw [ofBigEndian_concat, List.length_append, List.length_singleton, pow_succ]
    omega

/-- What is written is read back, as far as the digits go. -/
theorem ofBigEndian_toBigEndian (size n : Nat) :
    ofBigEndian (toBigEndian size n) = n % 256 ^ size := by
  induction size generalizing n with
  | zero => rw [pow_zero, Nat.mod_one, toBigEndian, ofBigEndian_nil]
  | succ size ih =>
    rw [toBigEndian, ofBigEndian_concat, ih, UInt8.toNat_ofNat', Nat.pow_succ 256,
      Nat.mul_comm (256 ^ size), Nat.mod_mul]
    omega

/-- What is read is written back. -/
theorem toBigEndian_ofBigEndian (bytes : List UInt8) :
    toBigEndian bytes.length (ofBigEndian bytes) = bytes := by
  induction bytes using List.reverseRecOn with
  | nil => rfl
  | append_singleton bytes byte ih =>
    have := byte.toNat_lt
    rw [ofBigEndian_concat, List.length_append, List.length_singleton, toBigEndian,
      show (ofBigEndian bytes * 256 + byte.toNat) / 256 = ofBigEndian bytes by omega, ih]
    congr 2
    apply UInt8.toNat_inj.1
    rw [UInt8.toNat_ofNat']
    omega

theorem ofBigEndian_cons (byte : UInt8) (bytes : List UInt8) :
    ofBigEndian (byte :: bytes) = byte.toNat * 256 ^ bytes.length + ofBigEndian bytes := by
  induction bytes using List.reverseRecOn with
  | nil => simp [ofBigEndian]
  | append_singleton bytes last ih =>
    rw [← List.cons_append, ofBigEndian_concat, ofBigEndian_concat, ih, List.length_append,
      List.length_singleton, Nat.pow_succ 256]
    ring

/-! ## §2. What is kept of a buffer. -/

theorem bits_le_bufferSize (bits : Nat) : bits ≤ 8 * bufferSize bits := by
  rw [bufferSize]
  omega

/-- The bits of a buffer of the right size are those that are kept and those that are too many. -/
theorem two_pow_mul_two_pow {bits size : Nat} (h : bits ≤ 8 * size) :
    2 ^ bits * 2 ^ (8 * size - bits) = 256 ^ size := by
  rw [← Nat.pow_add, Nat.add_sub_cancel' h, Nat.pow_mul]

/-- To mask a byte is to take a remainder. -/
theorem toNat_and_shiftRight (byte : UInt8) {excess : Nat} (h : excess < 8) :
    (byte &&& (0xff : UInt8) >>> UInt8.ofNat excess).toNat = byte.toNat % 2 ^ (8 - excess) := by
  have hmask : ((0xff : UInt8) >>> UInt8.ofNat excess).toNat = 2 ^ (8 - excess) - 1 := by
    interval_cases excess <;> rfl
  rw [UInt8.toNat_and, hmask, Nat.and_two_pow_sub_one_eq_mod]

/-- **To mask the first byte is to take a remainder**: the bits that are too many are the highest ones
of the first byte. -/
theorem ofBuffer_eq_mod {bits : Nat} {buffer : List UInt8} (hlength : buffer.length = bufferSize bits) :
    ofBuffer bits buffer = ofBigEndian buffer % 2 ^ bits := by
  have hbounds := bits_le_bufferSize bits
  cases buffer with
  | nil =>
    -- Without a byte there is no bit.
    obtain rfl : bits = 0 := by
      rw [← hlength, List.length_nil] at hbounds
      omega
    rfl
  | cons byte bytes =>
    rw [List.length_cons] at hlength
    have hexcess : 8 * bufferSize bits - bits < 8 := by
      rw [bufferSize]
      omega
    -- The size of what is kept, as the size of all other bytes and of what is left of the first.
    have hsplit : 2 ^ bits = 256 ^ bytes.length * 2 ^ (8 - (8 * bufferSize bits - bits)) := by
      rw [show (256 : Nat) = 2 ^ 8 by rfl, ← Nat.pow_mul, ← Nat.pow_add]
      congr 1
      omega
    have hrest := ofBigEndian_lt bytes
    rw [ofBuffer, maskFirst, ofBigEndian_cons, ofBigEndian_cons, toNat_and_shiftRight byte hexcess,
      hsplit, Nat.mod_mul, Nat.mul_comm byte.toNat, Nat.mul_add_mod, Nat.mod_eq_of_lt hrest,
      Nat.mul_add_div (by positivity), Nat.div_eq_of_lt hrest, Nat.add_zero]
    ring

theorem ofBuffer_lt {bits : Nat} {buffer : List UInt8} (hlength : buffer.length = bufferSize bits) :
    ofBuffer bits buffer < 2 ^ bits := by
  rw [ofBuffer_eq_mod hlength]
  exact Nat.mod_lt _ (Nat.two_pow_pos bits)

/-! ## §3. How many buffers. -/

variable {bits : Nat}

/-- The buffer that keeps `v` and whose bits that are too many are those of `high`. -/
def bufferWith (bits v high : Nat) : List UInt8 := toBigEndian (bufferSize bits) (v + 2 ^ bits * high)

@[simp] theorem length_bufferWith (bits v high : Nat) :
    (bufferWith bits v high).length = bufferSize bits := length_toBigEndian _ _

theorem ofBigEndian_bufferWith {v high : Nat} (hv : v < 2 ^ bits)
    (hhigh : high < 2 ^ (8 * bufferSize bits - bits)) :
    ofBigEndian (bufferWith bits v high) = v + 2 ^ bits * high := by
  rw [bufferWith, ofBigEndian_toBigEndian]
  apply Nat.mod_eq_of_lt
  calc v + 2 ^ bits * high < 2 ^ bits + 2 ^ bits * high := Nat.add_lt_add_right hv _
    _ = 2 ^ bits * (high + 1) := by ring
    _ ≤ 2 ^ bits * 2 ^ (8 * bufferSize bits - bits) := Nat.mul_le_mul_left _ hhigh
    _ = 256 ^ bufferSize bits := two_pow_mul_two_pow (bits_le_bufferSize bits)

/-- What is kept of such a buffer. -/
theorem ofBuffer_bufferWith {v high : Nat} (hv : v < 2 ^ bits)
    (hhigh : high < 2 ^ (8 * bufferSize bits - bits)) :
    ofBuffer bits (bufferWith bits v high) = v := by
  rw [ofBuffer_eq_mod (length_bufferWith _ _ _), ofBigEndian_bufferWith hv hhigh,
    Nat.add_mul_mod_self_left, Nat.mod_eq_of_lt hv]

/-- A buffer is made of what it keeps and what is thrown away. -/
theorem bufferWith_ofBigEndian {buffer : List UInt8} (hlength : buffer.length = bufferSize bits) :
    bufferWith bits (ofBuffer bits buffer) (ofBigEndian buffer / 2 ^ bits) = buffer := by
  rw [bufferWith, ofBuffer_eq_mod hlength, Nat.mod_add_div, ← hlength, toBigEndian_ofBigEndian]

/-- A number that fits is kept as it is. -/
theorem ofBuffer_toBigEndian {v : Nat} (hv : v < 2 ^ bits) :
    ofBuffer bits (toBigEndian (bufferSize bits) v) = v := by
  have hkept := ofBuffer_bufferWith hv (Nat.two_pow_pos _)
  rwa [bufferWith, Nat.mul_zero, Nat.add_zero] at hkept

/-- Both parts of a buffer can be read off it. -/
theorem eq_and_eq_of_add_mul_eq {b v v' high high' : Nat} (hv : v < b) (hv' : v' < b)
    (h : v + b * high = v' + b * high') : v = v' ∧ high = high' := by
  have hmod := congrArg (· % b) h
  have hdiv := congrArg (· / b) h
  simp only [Nat.add_mul_mod_self_left, Nat.mod_eq_of_lt hv, Nat.mod_eq_of_lt hv'] at hmod
  simp only [Nat.add_mul_div_left _ _ (Nat.zero_lt_of_lt hv), Nat.div_eq_of_lt hv,
    Nat.div_eq_of_lt hv', Nat.zero_add] at hdiv
  exact ⟨hmod, hdiv⟩

/-- **Every number that can be kept is kept of the same number of buffers**, one for each value of
the bits that are thrown away. -/
theorem ncard_buffers (values : Finset Nat) (hvalues : ∀ v ∈ values, v < 2 ^ bits) :
    {buffer : List UInt8 | buffer.length = bufferSize bits ∧ ofBuffer bits buffer ∈ values}.ncard
      = values.card * 2 ^ (8 * bufferSize bits - bits) := by
  -- A buffer is a pair of what is kept of it and what is thrown away.
  set parts := values ×ˢ Finset.range (2 ^ (8 * bufferSize bits - bits)) with hparts
  have hmem {x : Nat × Nat} (hx : x ∈ parts) :
      x.1 ∈ values ∧ x.2 < 2 ^ (8 * bufferSize bits - bits) := by
    rw [hparts, Finset.mem_product, Finset.mem_range] at hx
    exact hx
  have hset : {buffer : List UInt8 | buffer.length = bufferSize bits ∧ ofBuffer bits buffer ∈ values}
      = (parts.image fun x => bufferWith bits x.1 x.2 : Finset (List UInt8)) := by
    ext buffer
    rw [Set.mem_ofPred_eq, Finset.mem_coe, Finset.mem_image]
    constructor
    · intro hbuffer
      obtain ⟨hlength, hv⟩ := hbuffer
      refine ⟨(ofBuffer bits buffer, ofBigEndian buffer / 2 ^ bits), ?_,
        bufferWith_ofBigEndian hlength⟩
      rw [hparts, Finset.mem_product, Finset.mem_range]
      refine ⟨hv, Nat.div_lt_of_lt_mul ?_⟩
      rw [two_pow_mul_two_pow (bits_le_bufferSize bits), ← hlength]
      exact ofBigEndian_lt buffer
    · intro himage
      obtain ⟨x, hx, rfl⟩ := himage
      refine ⟨length_bufferWith _ _ _, ?_⟩
      rw [ofBuffer_bufferWith (hvalues _ (hmem hx).1) (hmem hx).2]
      exact (hmem hx).1
  have hinjective : Set.InjOn (fun x : Nat × Nat => bufferWith bits x.1 x.2) parts := by
    intro x hx y hy hxy
    dsimp only at hxy
    have hsum : x.1 + 2 ^ bits * x.2 = y.1 + 2 ^ bits * y.2 := by
      rw [← ofBigEndian_bufferWith (hvalues _ (hmem hx).1) (hmem hx).2,
        ← ofBigEndian_bufferWith (hvalues _ (hmem hy).1) (hmem hy).2, hxy]
    obtain ⟨hfst, hsnd⟩ :=
      eq_and_eq_of_add_mul_eq (hvalues _ (hmem hx).1) (hvalues _ (hmem hy).1) hsum
    exact Prod.ext hfst hsnd
  rw [hset, Set.ncard_coe_finset, Finset.card_image_of_injOn hinjective, hparts,
    Finset.card_product, Finset.card_range]

/-- How many buffers keep one number. -/
theorem ncard_buffers_of_lt {v : Nat} (hv : v < 2 ^ bits) :
    {buffer : List UInt8 | buffer.length = bufferSize bits ∧ ofBuffer bits buffer = v}.ncard
      = 2 ^ (8 * bufferSize bits - bits) := by
  have hone := ncard_buffers {v} fun w hw => by rwa [Finset.mem_singleton.1 hw]
  simpa only [Finset.mem_singleton, Finset.card_singleton, Nat.one_mul] using hone

end ProbablePrime
