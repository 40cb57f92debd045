/-
  ProbablePrime.Proofs.Sampling.Uniform — draws below a bound are exactly uniform.

  On a tape, a draw below a bound cuts off one buffer after the other until one holds a number below
  the bound.  `FoundAfter` says this of the tape alone.  Tapes can then be counted buffer by buffer:
  all but the last are among those that are rejected, the last is one of those that hold the answer,
  and there are equally many of these for every answer.

  Main results:
    * `endsBelow_iff` — a draw ends on a tape as `FoundAfter` says;
    * `ncard_foundAfter` — how many tapes lead to a given number after a given number of requests;
    * `randomBelow_uniform` — the draw is uniform, stays below its bound, and accepts half its buffers.
-/
import ProbablePrime.Number.Lemmas
import ProbablePrime.Proofs.Entropy.Recorded
import ProbablePrime.Proofs.Sampling.Below
import ProbablePrime.Proofs.Sampling.BigEndian

namespace ProbablePrime

open Entropy (Source Recorded Tape fill_tape_of_le fill_tape_of_lt requests_asked)
open Number (bitLength bitLength_le_iff lt_two_pow_bitLength)
open Draw (Ends)

/-! ## §1. Draws from a tape. -/

/-- How many bits of the bytes of an attempt are too many. -/
def excessBits (bound : Nat) : Nat := 8 * attemptSize bound - bitLength bound

/-- From a session on, a draw below `bound` ends with `v` after `attempts` requests, each of the size
of one attempt. -/
def EndsBelow (bound attempts v : Nat) (session : Session (Recorded Tape)) : Prop :=
  ∃ session', Ends (fun fuel => randomBelow fuel bound) session (.ok v) session'
    ∧ session'.source.requests
      = session.source.requests ++ List.replicate attempts (attemptSize bound)

/-- The first number below `bound` that a tape holds stands in its buffer number `attempts`, and is
`v`. -/
def FoundAfter (bound v : Nat) : (attempts : Nat) → List UInt8 → Prop
  | 0, _ => False
  | attempts + 1, tape =>
    attemptSize bound ≤ tape.length
      ∧ if ofBuffer (bitLength bound) (tape.take (attemptSize bound)) < bound
        then attempts = 0 ∧ ofBuffer (bitLength bound) (tape.take (attemptSize bound)) = v
        else FoundAfter bound v attempts (tape.drop (attemptSize bound))

variable {bound v : Nat}

/-- What the tape answers to the next request, where it can serve it. -/
theorem answer_of_le {session : Session (Recorded Tape)} {count : Nat}
    (h : count ≤ session.source.source.bytes.length) :
    (Source.fill count session.source).1 = .ok (session.source.source.bytes.take count) := by
  show (Source.fill count session.source.source).1 = _
  rw [fill_tape_of_le h]

/-- What is then left of the tape. -/
theorem bytes_asked_of_le {session : Session (Recorded Tape)} {count : Nat}
    (h : count ≤ session.source.source.bytes.length) :
    (session.asked count).source.source.bytes = session.source.source.bytes.drop count := by
  show (Source.fill count session.source.source).2.bytes = _
  rw [fill_tape_of_le h]

/-- What a run below a bound shows of its tape. -/
theorem foundAfter_of_runIn (hbound : 0 < bound) {fuel : Nat}
    {session session' : Session (Recorded Tape)}
    (h : (randomBelowLoop bound fuel).runIn session = (.ok v, session')) :
    ∃ attempts, FoundAfter bound v attempts session.source.source.bytes
      ∧ session'.source.requests
        = session.source.requests ++ List.replicate attempts (attemptSize bound) := by
  -- Each turn reads one buffer, so the tape that is left is the tape without its first buffer.
  induction fuel generalizing session with
  | zero => simp [randomBelowLoop] at h
  | succ fuel ih =>
    by_cases hlength : attemptSize bound ≤ session.source.source.bytes.length
    · rw [runIn_randomBelowLoop_of_served hbound fuel (answer_of_le hlength)] at h
      split at h
      · next hlt =>
        rw [Prod.mk.injEq, Except.ok.injEq] at h
        refine ⟨1, ⟨hlength, ?_⟩, ?_⟩
        · rw [if_pos hlt]
          exact ⟨rfl, h.1⟩
        · rw [← h.2]
          exact requests_asked session _
      · next hge =>
        obtain ⟨attempts, hfound, hmore⟩ := ih h
        refine ⟨attempts + 1, ⟨hlength, ?_⟩, ?_⟩
        · rw [if_neg hge]
          rwa [bytes_asked_of_le hlength] at hfound
        · rw [hmore, requests_asked, List.replicate_succ, ← List.append_cons]
    · have hrefused : (Source.fill (attemptSize bound) session.source).1
          = .error (.entropy "tape exhausted") := by
        show (Source.fill (attemptSize bound) session.source.source).1 = _
        exact fill_tape_of_lt (by omega)
      rw [runIn_randomBelowLoop_of_refused hbound fuel hrefused] at h
      simp at h

/-- A tape that holds a number below the bound makes the draw end with it. -/
theorem endsBelow_of_foundAfter (hbound : 0 < bound) {attempts : Nat}
    {session : Session (Recorded Tape)}
    (h : FoundAfter bound v attempts session.source.source.bytes) :
    EndsBelow bound attempts v session := by
  induction attempts generalizing session with
  | zero => exact absurd h id
  | succ attempts ih =>
    obtain ⟨hlength, hfound⟩ := h
    split at hfound
    · next hlt =>
      obtain ⟨rfl, rfl⟩ := hfound
      exact ⟨_, ends_randomBelow_of_accepted (answer_of_le hlength) hlt, requests_asked session _⟩
    · next hge =>
      rw [← bytes_asked_of_le hlength] at hfound
      obtain ⟨session', hends, hmore⟩ := ih hfound
      refine ⟨session', ends_randomBelow_of_rejected hbound (answer_of_le hlength) hge hends, ?_⟩
      rw [hmore, requests_asked, List.replicate_succ, ← List.append_cons]

/-- **A draw below a bound ends on a tape exactly as the tape says.** -/
theorem endsBelow_iff (hbound : 0 < bound) {attempts : Nat} {session : Session (Recorded Tape)} :
    EndsBelow bound attempts v session
      ↔ FoundAfter bound v attempts session.source.source.bytes := by
  constructor
  · intro h
    obtain ⟨session', hends, hrequests⟩ := h
    rw [randomBelow_of_pos hbound] at hends
    obtain ⟨least, hrun⟩ := hends
    obtain ⟨attempts', hfound, hrequests'⟩ := foundAfter_of_runIn hbound (hrun least le_rfl)
    -- The record tells how often the source was asked.
    have hsame : attempts' = attempts := by
      have hlength := congrArg List.length (hrequests'.symm.trans hrequests)
      simpa using hlength
    rwa [hsame] at hfound
  · exact endsBelow_of_foundAfter hbound

/-! ## §2. Counting tapes. -/

/-- Lists that are cut at a fixed place are counted part by part. -/
theorem ncard_take_drop {α : Type} (m n : Nat) (P Q : List α → Prop) :
    {t : List α | t.length = m + n ∧ P (t.take m) ∧ Q (t.drop m)}.ncard
      = {x : List α | x.length = m ∧ P x}.ncard * {y : List α | y.length = n ∧ Q y}.ncard := by
  have hset : {t : List α | t.length = m + n ∧ P (t.take m) ∧ Q (t.drop m)}
      = (fun x : List α × List α => x.1 ++ x.2)
          '' ({x | x.length = m ∧ P x} ×ˢ {y | y.length = n ∧ Q y}) := by
    ext t
    constructor
    · intro ht
      obtain ⟨hlength, hP, hQ⟩ := ht
      refine ⟨(t.take m, t.drop m), ⟨⟨?_, hP⟩, ⟨?_, hQ⟩⟩, List.take_append_drop m t⟩
      · rw [List.length_take]
        omega
      · rw [List.length_drop]
        omega
    · intro ht
      obtain ⟨⟨x, y⟩, ⟨⟨hx, hP⟩, ⟨hy, hQ⟩⟩, rfl⟩ := ht
      dsimp only at hx hP hy hQ ⊢
      subst hx hy
      refine ⟨List.length_append, ?_, ?_⟩
      · rwa [List.take_left]
      · rwa [List.drop_left]
  have hinjective : Set.InjOn (fun x : List α × List α => x.1 ++ x.2)
      ({x | x.length = m ∧ P x} ×ˢ {y | y.length = n ∧ Q y}) := by
    intro x hx y hy hxy
    obtain ⟨hfst, hsnd⟩ := List.append_inj hxy (hx.1.1.trans hy.1.1.symm)
    exact Prod.ext hfst hsnd
  rw [hset, hinjective.ncard_image, Set.ncard_prod]

theorem bitLength_le_attemptSize (bound : Nat) : bitLength bound ≤ 8 * attemptSize bound :=
  bits_le_bufferSize _

theorem two_pow_bitLength_mul (bound : Nat) :
    2 ^ bitLength bound * 2 ^ excessBits bound = 256 ^ attemptSize bound :=
  two_pow_mul_two_pow (bitLength_le_attemptSize bound)

/-- How many buffers of an attempt keep one of the given numbers. -/
theorem ncard_buffers_mem (values : Finset Nat) (hvalues : ∀ w ∈ values, w < 2 ^ bitLength bound) :
    {buffer : List UInt8 | buffer.length = attemptSize bound
        ∧ ofBuffer (bitLength bound) buffer ∈ values}.ncard
      = values.card * 2 ^ excessBits bound :=
  ncard_buffers values hvalues

/-- How many buffers an attempt accepts for one number. -/
theorem ncard_buffers_eq (hv : v < bound) :
    {buffer : List UInt8 | buffer.length = attemptSize bound
        ∧ ofBuffer (bitLength bound) buffer = v}.ncard = 2 ^ excessBits bound :=
  ncard_buffers_of_lt (hv.trans (lt_two_pow_bitLength bound))

/-- How many buffers an attempt accepts. -/
theorem ncard_buffers_lt (bound : Nat) :
    {buffer : List UInt8 | buffer.length = attemptSize bound
        ∧ ofBuffer (bitLength bound) buffer < bound}.ncard = bound * 2 ^ excessBits bound := by
  have h := ncard_buffers_mem (Finset.range bound) fun w hw =>
    (Finset.mem_range.1 hw).trans (lt_two_pow_bitLength bound)
  simpa only [Finset.mem_range, Finset.card_range] using h

/-- How many buffers an attempt rejects. -/
theorem ncard_buffers_ge (bound : Nat) :
    {buffer : List UInt8 | buffer.length = attemptSize bound
        ∧ ¬ ofBuffer (bitLength bound) buffer < bound}.ncard
      = 256 ^ attemptSize bound - bound * 2 ^ excessBits bound := by
  have h := ncard_buffers_mem (Finset.Ico bound (2 ^ bitLength bound)) fun w hw =>
    (Finset.mem_Ico.1 hw).2
  have hkept (buffer : List UInt8) : buffer.length = attemptSize bound
        ∧ ofBuffer (bitLength bound) buffer ∈ Finset.Ico bound (2 ^ bitLength bound)
      ↔ buffer.length = attemptSize bound ∧ ¬ ofBuffer (bitLength bound) buffer < bound := by
    refine and_congr_right fun hlength => ?_
    rw [Finset.mem_Ico, Nat.not_lt]
    exact and_iff_left (ofBuffer_lt hlength)
  simp only [hkept, Nat.card_Ico] at h
  rw [h, Nat.sub_mul, two_pow_bitLength_mul]

/-- A tape of one buffer holds one number. -/
theorem foundAfter_one_iff {tape : List UInt8} (hlength : tape.length = attemptSize bound) :
    FoundAfter bound v 1 tape
      ↔ ofBuffer (bitLength bound) tape < bound ∧ ofBuffer (bitLength bound) tape = v := by
  rw [FoundAfter, List.take_of_length_le (by omega)]
  constructor
  · intro h
    obtain ⟨-, h⟩ := h
    split at h
    · next hlt => exact ⟨hlt, h.2⟩
    · exact absurd h id
  · intro h
    obtain ⟨hlt, hv⟩ := h
    rw [if_pos hlt]
    exact ⟨by omega, rfl, hv⟩

/-- **How many tapes lead to a number below the bound after `attempts + 1` requests**: so many for
the last buffer, and for each of the others as many as are rejected. -/
theorem ncard_foundAfter (hv : v < bound) (attempts : Nat) :
    {tape : List UInt8 | tape.length = (attempts + 1) * attemptSize bound
        ∧ FoundAfter bound v (attempts + 1) tape}.ncard
      = 2 ^ excessBits bound
        * (256 ^ attemptSize bound - bound * 2 ^ excessBits bound) ^ attempts := by
  induction attempts with
  | zero =>
    have hset : {tape : List UInt8 | tape.length = (0 + 1) * attemptSize bound
          ∧ FoundAfter bound v (0 + 1) tape}
        = {buffer | buffer.length = attemptSize bound ∧ ofBuffer (bitLength bound) buffer = v} := by
      ext tape
      rw [Set.mem_ofPred_eq, Set.mem_ofPred_eq, Nat.zero_add, Nat.one_mul]
      refine and_congr_right fun hlength => ?_
      rw [foundAfter_one_iff hlength]
      exact and_iff_right_of_imp fun h => h ▸ hv
    rw [hset, ncard_buffers_eq hv, pow_zero, Nat.mul_one]
  | succ attempts ih =>
    -- The first buffer is rejected, and the rest of the tape is one that was counted before.
    have hset : {tape : List UInt8 | tape.length = (attempts + 1 + 1) * attemptSize bound
          ∧ FoundAfter bound v (attempts + 1 + 1) tape}
        = {tape | tape.length = attemptSize bound + (attempts + 1) * attemptSize bound
            ∧ ¬ ofBuffer (bitLength bound) (tape.take (attemptSize bound)) < bound
            ∧ FoundAfter bound v (attempts + 1) (tape.drop (attemptSize bound))} := by
      ext tape
      rw [Set.mem_ofPred_eq, Set.mem_ofPred_eq, Nat.succ_mul (attempts + 1), Nat.add_comm (_ * _)]
      refine and_congr_right fun hlength => ?_
      rw [FoundAfter]
      constructor
      · intro h
        obtain ⟨-, h⟩ := h
        split at h
        · exact absurd h.1 (by omega)
        · next hge => exact ⟨hge, h⟩
      · intro h
        rw [if_neg h.1]
        exact ⟨by omega, h.2⟩
    rw [hset, ncard_take_drop _ _ (fun buffer => ¬ ofBuffer (bitLength bound) buffer < bound),
      ncard_buffers_ge, ih, pow_succ]
    ring

/-! ## §3. Uniformity. -/

/-- At least half of what the bits of a bound can say is below the bound. -/
theorem pow_attemptSize_le (hbound : 0 < bound) :
    256 ^ attemptSize bound ≤ 2 * bound * 2 ^ excessBits bound := by
  -- The highest bit of the bound is set.
  have hhalf : 2 ^ bitLength bound ≤ 2 * bound := by
    obtain ⟨k, hk⟩ : ∃ k, bitLength bound = k + 1 :=
      ⟨bitLength bound - 1, by have := bitLength_ne_zero hbound; omega⟩
    have hlow : ¬ bound < 2 ^ k := by
      rw [← bitLength_le_iff]
      omega
    rw [hk, Nat.pow_succ]
    omega
  rw [← two_pow_bitLength_mul]
  exact Nat.mul_le_mul_right _ hhalf

/-- The session in which a tape of the given bytes is about to be read. -/
def onTape (bytes : List UInt8) : Session (Recorded Tape) := Session.start (Recorded.start ⟨bytes⟩)

/-- **A draw below a bound is exactly uniform.**  Each number below the bound is the answer, after
the same number of requests, on the same number of tapes; no other number is ever the answer; and an
attempt accepts at least half of its buffers. -/
theorem randomBelow_uniform {bound : Nat} (hbound : 1 ≤ bound) :
    (∀ attempts v, 1 ≤ attempts → v < bound →
      {tape : List UInt8 | tape.length = attempts * attemptSize bound
          ∧ EndsBelow bound attempts v (onTape tape)}.ncard
        = 2 ^ excessBits bound
          * (256 ^ attemptSize bound - bound * 2 ^ excessBits bound) ^ (attempts - 1))
    ∧ (∀ (σ : Type) [Source σ] (fuel v : Nat) (session session' : Session σ),
        (randomBelow fuel bound).runIn session = (.ok v, session') → v < bound)
    ∧ {buffer : List UInt8 | buffer.length = attemptSize bound
          ∧ ∃ v, EndsBelow bound 1 v (onTape buffer)}.ncard = bound * 2 ^ excessBits bound
    ∧ 256 ^ attemptSize bound ≤ 2 * (bound * 2 ^ excessBits bound) := by
  refine ⟨?_, ?_, ?_, ?_⟩
  · intro attempts v hattempts hv
    obtain ⟨attempts, rfl⟩ : ∃ k, attempts = k + 1 := ⟨attempts - 1, by omega⟩
    simp only [endsBelow_iff hbound]
    exact ncard_foundAfter hv attempts
  · intro σ _ fuel v session session' h
    exact lt_of_randomBelow h
  · rw [← ncard_buffers_lt]
    congr 1
    ext buffer
    refine and_congr_right fun hlength => ?_
    simp only [endsBelow_iff hbound]
    constructor
    · intro h
      obtain ⟨v, h⟩ := h
      exact ((foundAfter_one_iff hlength).1 h).1
    · intro hlt
      exact ⟨_, (foundAfter_one_iff hlength).2 ⟨hlt, rfl⟩⟩
  · rw [← Nat.mul_assoc]
    exact pow_attemptSize_le hbound

/-- Below five, three bits of one byte are kept: a number that is drawn at the third attempt comes
from `2 ^ 5 * 96 ^ 2` tapes. -/
theorem randomBelow_uniform_five :
    1 ≤ 5 ∧ {tape : List UInt8 | tape.length = 3 * attemptSize 5
        ∧ EndsBelow 5 3 4 (onTape tape)}.ncard = 2 ^ 5 * 96 ^ 2 := by
  refine ⟨by decide, ?_⟩
  rw [(randomBelow_uniform (by decide)).1 3 4 (by decide) (by decide)]
  decide

end ProbablePrime
