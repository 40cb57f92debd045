/-
  ProbablePrime.Proofs.Entropy.Recorded — tapes, and sources with a record of what they were asked.

  A tape serves requests from its front as long as it lasts.  The meter of a session counts requests
  and adds up their sizes; where it matters how large each request was, a source keeps a record, and
  answers as it would without one.

  Main results:
    * `exists_consumed_of_reaches` — what a recorded tape has served was cut off its front.
-/
import ProbablePrime.Proofs.Draw.Refusal

namespace ProbablePrime.Entropy

/-! ## §1. Tapes. -/

/-- A tape that is long enough is cut. -/
theorem fill_tape_of_le {tape : Tape} {count : Nat} (h : count ≤ tape.bytes.length) :
    Source.fill count tape = (.ok (tape.bytes.take count), ⟨tape.bytes.drop count⟩) := by
  show Tape.fill count tape = _
  rw [Tape.fill, if_pos h]

/-- A tape that is too short refuses. -/
theorem fill_tape_of_lt {tape : Tape} {count : Nat} (h : tape.bytes.length < count) :
    (Source.fill count tape).1 = .error (.entropy "tape exhausted") := by
  show (Tape.fill count tape).1 = _
  rw [Tape.fill, if_neg (by omega)]

/-! ## §2. The record. -/

/-- A source and the sizes of the requests made to it, the first request first. -/
structure Recorded (σ : Type) where
  /-- The source that answers. -/
  source : σ
  /-- The sizes of the requests so far. -/
  requests : List Nat

/-- A source of which nothing was asked yet. -/
def Recorded.start {σ : Type} (source : σ) : Recorded σ := ⟨source, []⟩

instance {σ : Type} [Source σ] : Source (Recorded σ) where
  fill count recorded :=
    let (answer, source) := Source.fill count recorded.source
    (answer, ⟨source, recorded.requests ++ [count]⟩)
  length_of_fill h := Source.length_of_fill h

/-! ## §3. Requests in a session. -/

/-- Every request is recorded, whatever the answer to it is. -/
theorem requests_asked {σ : Type} [Source σ] (session : Session (Recorded σ)) (count : Nat) :
    (session.asked count).source.requests = session.source.requests ++ [count] := rfl

/-! ## §4. What a recorded tape has served. -/

/-- Between two states of a tape, the requests `requests` were served with the bytes `used`. -/
structure Consumed (before after : Recorded Tape) (requests : List Nat) (used : List UInt8) :
    Prop where
  /-- The requests were made in this order, and no others. -/
  record : after.requests = before.requests ++ requests
  /-- The bytes were cut off the front of the tape. -/
  tape : before.source.bytes = used ++ after.source.bytes
  /-- There are as many of them as were asked for. -/
  size : used.length = requests.sum

theorem Consumed.nothing (recorded : Recorded Tape) : Consumed recorded recorded [] [] where
  record := (List.append_nil _).symm
  tape := rfl
  size := rfl

theorem Consumed.trans {before mid after : Recorded Tape} {requests requests' : List Nat}
    {used used' : List UInt8} (h : Consumed before mid requests used)
    (h' : Consumed mid after requests' used') :
    Consumed before after (requests ++ requests') (used ++ used') where
  record := by rw [h'.record, h.record, List.append_assoc]
  tape := by rw [h.tape, h'.tape, List.append_assoc]
  size := by rw [List.length_append, List.sum_append, h.size, h'.size]

/-- One request that is served takes as many bytes as it names. -/
theorem exists_consumed_of_serves {before after : Recorded Tape} (h : Source.Serves before after) :
    ∃ requests used, Consumed before after requests used := by
  obtain ⟨count, buffer, hfill⟩ := h
  have hafter : after = ⟨(Source.fill count before.source).2, before.requests ++ [count]⟩ :=
    (congrArg Prod.snd hfill).symm
  have hserved : (Source.fill count before.source).1 = .ok buffer := congrArg Prod.fst hfill
  have hle : count ≤ before.source.bytes.length := by
    by_contra hshort
    rw [fill_tape_of_lt (Nat.lt_of_not_le hshort)] at hserved
    cases hserved
  subst hafter
  rw [fill_tape_of_le hle]
  refine ⟨[count], before.source.bytes.take count, rfl, ?_, ?_⟩
  · exact (List.take_append_drop count before.source.bytes).symm
  · simp [hle]

/-- **What a recorded tape has served was cut off its front**, request by request. -/
theorem exists_consumed_of_reaches {before after : Recorded Tape}
    (h : Source.Reaches before after) :
    ∃ requests used, Consumed before after requests used := by
  -- The induction is on the requests that were served, the last one at the end.
  induction h with
  | refl => exact ⟨[], [], Consumed.nothing before⟩
  | tail _ hserves ih =>
    obtain ⟨requests, used, hconsumed⟩ := ih
    obtain ⟨requests', used', hlast⟩ := exists_consumed_of_serves hserves
    exact ⟨_, _, hconsumed.trans hlast⟩

end ProbablePrime.Entropy
