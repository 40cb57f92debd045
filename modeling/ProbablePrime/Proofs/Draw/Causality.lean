/-
  ProbablePrime.Proofs.Draw.Causality — draws that depend on the bytes they have read, and on no
  others.

  On a tape, a run that no refusal has ended has read a front part of it.  `Reads` says what that
  part does: whatever else stands behind it on another tape, the run goes the same way, and a tape
  that breaks off within it ends the run with the refusal of the tape.  A draw is causal when each of
  its runs has read some bytes in this sense.

  A sequence reads what its first part reads, and then what its second part reads, so a tape that is
  too short breaks off in one of the two.  That is all there is to a program without a place where an
  error is caught.

  Main results:
    * `Reads.bind` — what a sequence reads;
    * `Causal.bind` — a sequence of causal draws is causal;
    * `causal_bytes` — a single request is.
-/
import ProbablePrime.Proofs.Draw.Ending
import ProbablePrime.Proofs.Entropy.Recorded

namespace ProbablePrime

open Entropy (Source Tape fill_tape_of_le fill_tape_of_lt)

/-! ## §1. Sessions on tapes. -/

/-- The session with other bytes on its tape. -/
def Session.onTape (session : Session Tape) (bytes : List UInt8) : Session Tape :=
  { session with source := ⟨bytes⟩ }

/-- What a tape answers to a request that it cannot serve. -/
def Entropy.Tape.exhausted : PrimeError := .entropy "tape exhausted"

theorem Session.onTape_self (session : Session Tape) :
    session.onTape session.source.bytes = session := rfl

theorem Session.onTape_start (bytes bytes' : List UInt8) :
    (Session.start (⟨bytes⟩ : Tape)).onTape bytes' = Session.start ⟨bytes'⟩ := rfl

namespace Draw

variable {ε ε' α β : Type} {refusal : ε} {draw : Draw Tape ε α} {next : α → Draw Tape ε β}
  {session session' session'' : Session Tape}

/-- A request for the bytes in front of the tape cuts them off. -/
theorem runIn_bytes_append (session : Session Tape) (front rest : List UInt8) :
    (bytes front.length).runIn (session.onTape (front ++ rest))
      = (.ok front, { session with source := ⟨rest⟩, meter := session.meter.add front.length }) := by
  have hfill : Source.fill front.length (⟨front ++ rest⟩ : Tape) = (.ok front, ⟨rest⟩) := by
    rw [fill_tape_of_le (by simp)]
    simp
  rw [runIn_bytes, Session.asked, Session.onTape, hfill]
  rfl

/-- A request for more bytes than there are is refused. -/
theorem runIn_bytes_of_lt {count : Nat} (session : Session Tape) {front : List UInt8}
    (h : front.length < count) :
    ∃ short, (bytes count).runIn (session.onTape front)
      = (.error (.error Tape.exhausted), short) := by
  have hrefuse : (Source.fill count (⟨front⟩ : Tape)).1 = .error Tape.exhausted :=
    fill_tape_of_lt h
  refine ⟨(session.onTape front).asked count, ?_⟩
  rw [runIn_bytes, Session.onTape, hrefuse]
  rfl

/-! ## §2. What a run has read. -/

/-- The run from `session` that ends with `result` in `session'` has read the bytes `used`. -/
structure Reads (refusal : ε) (draw : Draw Tape ε α) (session : Session Tape)
    (result : Except (Stop ε) α) (session' : Session Tape) (used : List UInt8) : Prop where
  /-- The bytes stood in front of what is left of the tape. -/
  tape : session.source.bytes = used ++ session'.source.bytes
  /-- They are what the meter has counted. -/
  metered : session'.meter.bytes = session.meter.bytes + used.length
  /-- What stands behind them does not matter. -/
  replay : ∀ rest, draw.runIn (session.onTape (used ++ rest)) = (result, session'.onTape rest)
  /-- A tape that ends within them is refused. -/
  refused : ∀ cut tail, used = cut ++ tail → tail ≠ [] →
    ∃ short, draw.runIn (session.onTape cut) = (.error (.error refusal), short)

/-- A run that changes neither the tape nor the meter has read nothing. -/
theorem Reads.nothing {result : Except (Stop ε) α}
    (hrun : ∀ bytes, draw.runIn (session.onTape bytes) = (result, session'.onTape bytes))
    (htape : session.source = session'.source) (hmeter : session.meter = session'.meter) :
    Reads refusal draw session result session' [] where
  tape := by rw [htape, List.nil_append]
  metered := by rw [hmeter, List.length_nil, Nat.add_zero]
  replay rest := hrun rest
  refused cut tail hused htail := by
    obtain ⟨-, rfl⟩ := List.append_eq_nil_iff.1 hused.symm
    exact absurd rfl htail

/-- **What a sequence reads**: first what its first part reads, then what its second part does. -/
theorem Reads.bind {a : α} {result : Except (Stop ε) β} {used used' : List UInt8}
    (hfirst : Reads refusal draw session (.ok a) session' used)
    (hsecond : Reads refusal (next a) session' result session'' used') :
    Reads refusal (draw >>= next) session result session'' (used ++ used') where
  tape := by rw [hfirst.tape, hsecond.tape, List.append_assoc]
  metered := by rw [hsecond.metered, hfirst.metered, List.length_append, Nat.add_assoc]
  replay rest := by
    rw [List.append_assoc, runIn_bind_of_ok (hfirst.replay (used' ++ rest)), hsecond.replay rest]
  refused cut tail hused htail := by
    -- The cut lies within the first bytes, or behind them and within the second ones.
    rcases List.append_eq_append_iff.1 hused with ⟨cut', rfl, hcut⟩ | ⟨tail', hcut, rfl⟩
    · obtain ⟨short, hrun⟩ := hsecond.refused cut' tail hcut htail
      exact ⟨short, by rw [runIn_bind_of_ok (hfirst.replay cut'), hrun]⟩
    · by_cases hempty : tail' = []
      · -- It ends between the two, where the second part finds nothing to read.
        subst hempty
        rw [List.append_nil] at hcut
        subst hcut
        obtain ⟨short, hrun⟩ := hsecond.refused [] _ rfl htail
        have hreplay := hfirst.replay []
        rw [List.append_nil] at hreplay
        exact ⟨short, by rw [runIn_bind_of_ok hreplay, hrun]⟩
      · obtain ⟨short, hrun⟩ := hfirst.refused cut tail' hcut hempty
        exact ⟨short, runIn_bind_of_error hrun next⟩

/-- A sequence that stops in its first part reads what that part reads. -/
theorem Reads.bind_error {stop : Stop ε} {used : List UInt8}
    (hfirst : Reads refusal draw session (.error stop) session' used) (next : α → Draw Tape ε β) :
    Reads refusal (draw >>= next) session (.error stop) session' used where
  tape := hfirst.tape
  metered := hfirst.metered
  replay rest := runIn_bind_of_error (hfirst.replay rest) next
  refused cut tail hused htail := by
    obtain ⟨short, hrun⟩ := hfirst.refused cut tail hused htail
    exact ⟨short, runIn_bind_of_error hrun next⟩

/-! ## §3. Causal draws. -/

/-- Every run that the refusal has not ended has read some bytes. -/
def Causal (refusal : ε) (draw : Draw Tape ε α) : Prop :=
  ∀ ⦃session session' : Session Tape⦄ ⦃result : Except (Stop ε) α⦄,
    draw.runIn session = (result, session') → result ≠ .error (.error refusal) →
      ∃ used, Reads refusal draw session result session' used

/-- A draw that ends where it begins is causal. -/
theorem causal_of_ended {result : Except (Stop ε) α}
    (h : ∀ session, draw.runIn session = (result, session)) : Causal refusal draw := by
  intro session session' result' hrun _
  rw [h session] at hrun
  obtain ⟨rfl, rfl⟩ := Prod.mk.inj hrun
  exact ⟨[], Reads.nothing (fun bytes => h (session.onTape bytes)) rfl rfl⟩

theorem causal_pure (a : α) : Causal refusal (pure a : Draw Tape ε α) :=
  causal_of_ended (runIn_pure a)

theorem causal_fail (cause : ε) : Causal refusal (fail cause : Draw Tape ε α) :=
  causal_of_ended (runIn_fail cause)

theorem causal_outOfFuel : Causal refusal (outOfFuel : Draw Tape ε α) :=
  causal_of_ended runIn_outOfFuel

theorem causal_note (event : Log.Event) : Causal refusal (note event : Draw Tape ε Unit) := by
  intro session session' result hrun _
  obtain ⟨rfl, rfl⟩ := Prod.mk.inj hrun
  exact ⟨[], Reads.nothing (fun _ => rfl) rfl rfl⟩

/-- **A request is causal**: it reads as many bytes as it asks for, or it is refused. -/
theorem causal_bytes (count : Nat) : Causal Tape.exhausted (bytes count) := by
  intro session session' result hrun hresult
  by_cases hcount : count ≤ session.source.bytes.length
  · obtain ⟨front, rest, hsource, rfl⟩ :
        ∃ front rest, session.source.bytes = front ++ rest ∧ front.length = count :=
      ⟨_, _, (List.take_append_drop count session.source.bytes).symm, List.length_take_of_le hcount⟩
    have hserved := runIn_bytes_append session front rest
    rw [← hsource, Session.onTape_self, hrun] at hserved
    obtain ⟨rfl, rfl⟩ := Prod.mk.inj hserved
    refine ⟨front, hsource, rfl, fun rest' => runIn_bytes_append session front rest', ?_⟩
    intro cut tail hused htail
    have hshort : cut.length < front.length := by
      have hlength : front.length = cut.length + tail.length := by rw [hused, List.length_append]
      have hpos : 0 < tail.length := List.length_pos_iff.2 htail
      omega
    exact runIn_bytes_of_lt session hshort
  · -- A request that is refused ends with the very error that is excluded.
    obtain ⟨short, hrefused⟩ := runIn_bytes_of_lt session (Nat.lt_of_not_le hcount)
    rw [Session.onTape_self, hrun] at hrefused
    obtain ⟨rfl, -⟩ := Prod.mk.inj hrefused
    exact absurd rfl hresult

/-- **A sequence of causal draws is causal.** -/
theorem Causal.bind (hdraw : Causal refusal draw) (hnext : ∀ a, Causal refusal (next a)) :
    Causal refusal (draw >>= next) := by
  intro session session'' result hrun hresult
  rcases hfirst : draw.runIn session with ⟨first, session'⟩
  cases first with
  | ok a =>
    rw [runIn_bind_of_ok hfirst] at hrun
    obtain ⟨used, hreads⟩ := hdraw hfirst (by simp)
    obtain ⟨used', hreads'⟩ := hnext a hrun hresult
    exact ⟨used ++ used', hreads.bind hreads'⟩
  | error stop =>
    rw [runIn_bind_of_error hfirst] at hrun
    obtain ⟨rfl, rfl⟩ := Prod.mk.inj hrun
    have hstop : (.error stop : Except (Stop ε) α) ≠ .error (.error refusal) := by
      intro heq
      obtain rfl := Except.error.inj heq
      exact hresult rfl
    obtain ⟨used, hreads⟩ := hdraw hfirst hstop
    exact ⟨used, hreads.bind_error next⟩

/-- A causal draw whose errors are seen as other errors is causal. -/
theorem Causal.widen (hdraw : Causal refusal draw) (f : ε → ε') :
    Causal (f refusal) (draw.widen f) := by
  intro session session' result hrun hresult
  rcases hinner : draw.runIn session with ⟨inner, after⟩
  rw [runIn_widen, hinner] at hrun
  obtain ⟨rfl, rfl⟩ := Prod.mk.inj hrun
  have hstop : inner ≠ .error (.error refusal) := by
    rintro rfl
    exact hresult rfl
  obtain ⟨used, hreads⟩ := hdraw hinner hstop
  refine ⟨used, hreads.tape, hreads.metered, ?_, ?_⟩
  · intro rest
    rw [runIn_widen, hreads.replay rest]
  · intro cut tail hused htail
    obtain ⟨short, hshort⟩ := hreads.refused cut tail hused htail
    exact ⟨short, by rw [runIn_widen, hshort]; rfl⟩

/-- Causal draws for the elements of a list, one after the other, are causal. -/
theorem causal_mapM {f : α → Draw Tape ε β} (hf : ∀ a, Causal refusal (f a)) (as : List α) :
    Causal refusal (as.mapM f) := by
  induction as with
  | nil => exact causal_pure []
  | cons a as ih =>
    rw [List.mapM_cons]
    exact (hf a).bind fun b => ih.bind fun bs => causal_pure (b :: bs)

/-! ## §4. Families of draws. -/

/-- Causality where fuel is no object.  If the draw from a tape ends, and not for want of bytes, it
ends in the same way on every tape with the same front, and on every tape that breaks off within
this front it ends with the refusal. -/
def CausalEnds (refusal : String → ε) (draw : Nat → Draw Tape ε α) : Prop :=
  ∀ (tape : List UInt8) (answer : Except ε α) (session' : Session Tape),
    Ends draw (Session.start ⟨tape⟩) answer session' →
    (∀ reason, answer ≠ .error (refusal reason)) →
      (∀ tape', tape'.take session'.meter.bytes = tape.take session'.meter.bytes →
        Ends draw (Session.start ⟨tape'⟩) answer
          (session'.onTape (tape'.drop session'.meter.bytes)))
      ∧ ∀ cut, cut <+: tape → cut.length < session'.meter.bytes →
        ∃ least, ∀ fuel, least ≤ fuel →
          ((draw fuel).runIn (Session.start ⟨cut⟩)).1
            = .error (.error (refusal "tape exhausted"))

/-- The bytes that a run from the start of a tape has read are as many as the meter has counted. -/
theorem Reads.eq_take {result : Except (Stop ε) α} {tape used : List UInt8}
    (h : Reads refusal draw (Session.start ⟨tape⟩) result session' used) :
    used = tape.take session'.meter.bytes ∧ used.length = session'.meter.bytes := by
  have hmetered : session'.meter.bytes = used.length := h.metered.trans (Nat.zero_add _)
  have htape : tape = used ++ session'.source.bytes := h.tape
  refine ⟨?_, hmetered.symm⟩
  rw [hmetered, htape, List.take_left]

theorem CausalEnds.of_causal {refusal : String → ε} {draw : Nat → Draw Tape ε α}
    (hdraw : ∀ fuel, Causal (refusal "tape exhausted") (draw fuel)) : CausalEnds refusal draw := by
  intro tape answer session' hends hanswer
  obtain ⟨least, hrun⟩ := hends
  have hresult : answer.mapError Stop.error ≠ .error (.error (refusal "tape exhausted")) := by
    cases answer with
    | ok a => simp [Except.mapError]
    | error cause =>
      intro heq
      obtain rfl : cause = refusal "tape exhausted" := by simpa [Except.mapError] using heq
      exact hanswer "tape exhausted" rfl
  constructor
  · intro tape' hfront
    refine ⟨least, fun fuel hle => ?_⟩
    obtain ⟨used, hreads⟩ := hdraw fuel (hrun fuel hle) hresult
    obtain ⟨hused, -⟩ := hreads.eq_take
    have hreplay := hreads.replay (tape'.drop session'.meter.bytes)
    rw [hused, ← hfront, List.take_append_drop, Session.onTape_start] at hreplay
    exact hreplay
  · intro cut hprefix hlt
    refine ⟨least, fun fuel hle => ?_⟩
    obtain ⟨used, hreads⟩ := hdraw fuel (hrun fuel hle) hresult
    obtain ⟨hused, hlength⟩ := hreads.eq_take
    obtain ⟨tail, htail⟩ : cut <+: used := by
      refine List.prefix_of_prefix_length_le hprefix ?_ (by omega)
      rw [hused]
      exact List.take_prefix _ _
    have hnonempty : tail ≠ [] := by
      rintro rfl
      rw [List.append_nil] at htail
      rw [htail] at hlt
      omega
    obtain ⟨short, hshort⟩ := hreads.refused cut tail htail.symm hnonempty
    rw [Session.onTape_start] at hshort
    rw [hshort]

end Draw

end ProbablePrime
