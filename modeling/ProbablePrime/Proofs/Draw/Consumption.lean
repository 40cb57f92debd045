/-
  ProbablePrime.Proofs.Draw.Consumption — draws that use up the tape they read.

  A loop without a counter still comes to an end on a tape, if each of its turns reads something: what
  is left of the tape is the measure.  `Course` says how a run may go: its requests name at least one
  byte each and are served, or the last of them is refused and the run stops with the refusal at once.
  `Consuming` adds that a run does not want for fuel as long as there is more of it than tape.

  A sequence is consuming when both parts are; where the first part has read a byte the second part
  may have a unit of fuel less, and this is the step of every loop.

  Main results:
    * `Spends.calls` and `Spends.length_le` — served requests are no more than the bytes they took;
    * `Consuming.bind` and `Consuming.bind_of_shortens` — sequences, and the turns of a loop;
    * `EndsOnTapes.of_consuming` — consuming draws end on every tape.
-/
import ProbablePrime.Proofs.Draw.Causality

namespace ProbablePrime

open Entropy (Tape)

/-! ## §1. Courses. -/

/-- From `session` to the other session the tape has served requests of the given sizes, none of them
empty, while events were noted. -/
inductive Session.Spends (session : Session Tape) : List Nat → Session Tape → Prop
  /-- Nothing has happened. -/
  | nothing : Spends session [] session
  /-- An event was noted. -/
  | noted {sizes : List Nat} {mid : Session Tape} (event : Log.Event) : Spends session sizes mid →
      Spends session sizes (mid.noted event)
  /-- A request was served. -/
  | asked {sizes : List Nat} {mid : Session Tape} {count : Nat} : Spends session sizes mid →
      0 < count → count ≤ mid.source.bytes.length →
      Spends session (sizes ++ [count]) (mid.asked count)

/-- The bytes that are left on the tape. -/
def Session.left (session : Session Tape) : Nat := session.source.bytes.length

theorem Session.left_asked_of_le {session : Session Tape} {count : Nat}
    (h : count ≤ session.source.bytes.length) :
    (session.asked count).left + count = session.left := by
  rw [left, asked, Entropy.fill_tape_of_le h, List.length_drop, left]
  omega

namespace Session.Spends

variable {session mid session' : Session Tape} {sizes sizes' : List Nat}

theorem trans (h : Spends session sizes mid) (h' : Spends mid sizes' session') :
    Spends session (sizes ++ sizes') session' := by
  induction h' with
  | nothing => rwa [List.append_nil]
  | noted event _ ih => exact ih.noted event
  | asked _ hpos hle ih =>
    rw [← List.append_assoc]
    exact ih.asked hpos hle

/-- The bytes of the requests are gone from the tape. -/
theorem left (h : Spends session sizes session') : session'.left + sizes.sum = session.left := by
  induction h with
  | nothing => rfl
  | noted event _ ih => exact ih
  | asked _ _ hle ih =>
    have hleft := left_asked_of_le hle
    rw [List.sum_append, List.sum_singleton]
    omega

/-- Every request is metered once. -/
theorem calls (h : Spends session sizes session') :
    session'.meter.calls = session.meter.calls + sizes.length := by
  induction h with
  | nothing => rfl
  | noted event _ ih => exact ih
  | asked _ _ _ ih =>
    rw [List.length_append, List.length_singleton, ← Nat.add_assoc, ← ih]
    rfl

/-- There are no more requests than bytes. -/
theorem length_le (h : Spends session sizes session') : sizes.length ≤ sizes.sum := by
  induction h with
  | nothing => exact le_rfl
  | noted _ _ ih => exact ih
  | asked _ hpos _ ih =>
    rw [List.length_append, List.length_singleton, List.sum_append, List.sum_singleton]
    omega

end Session.Spends

open Session (Spends)

namespace Draw

variable {ε ε' α β : Type} {refusal : ε} {limit : Nat} {draw : Draw Tape ε α}
  {next : α → Draw Tape ε β} {session mid session' : Session Tape}

/-- How a run on a tape may go. -/
inductive Course (refusal : ε) (session : Session Tape) :
    Except (Stop ε) α → Session Tape → Prop
  /-- All its requests were served. -/
  | served {sizes : List Nat} {session' : Session Tape} {result : Except (Stop ε) α} :
      Spends session sizes session' → Course refusal session result session'
  /-- Its last request was for more than there was, and the run stopped there. -/
  | refused {sizes : List Nat} {mid : Session Tape} {count : Nat} : Spends session sizes mid →
      mid.source.bytes.length < count →
      Course refusal session (.error (.error refusal)) (mid.asked count)

/-- A course goes on from where other requests were served. -/
theorem Course.after {sizes : List Nat} {result : Except (Stop ε) α}
    (h : Spends session sizes mid) (hcourse : Course refusal mid result session') :
    Course refusal session result session' := by
  cases hcourse with
  | served hspends => exact .served (h.trans hspends)
  | refused hspends hlt => exact .refused (h.trans hspends) hlt

/-- A run that has come to a value was refused nothing. -/
theorem Course.spends_of_ok {a : α} (h : Course refusal session (.ok a) session') :
    ∃ sizes, Spends session sizes session' := by
  cases h with
  | served hspends => exact ⟨_, hspends⟩

/-- A course makes one request more than the tape has bytes, at the most. -/
theorem Course.calls_le {result : Except (Stop ε) α} (h : Course refusal session result session') :
    session'.meter.calls ≤ session.meter.calls + session.left + 1 := by
  cases h with
  | served hspends =>
    have := hspends.calls
    have := hspends.length_le
    have := hspends.left
    omega
  | @refused sizes mid count hspends _ =>
    have hlast : (mid.asked count).meter.calls = mid.meter.calls + 1 := rfl
    have := hspends.calls
    have := hspends.length_le
    have := hspends.left
    omega

/-! ## §2. Consuming draws. -/

/-- All runs take a course, and none of them runs out of fuel from where less than `limit` bytes are
left. -/
structure Consuming (refusal : ε) (limit : Nat) (draw : Draw Tape ε α) : Prop where
  /-- How the runs go. -/
  course : ∀ {session session' : Session Tape} {result : Except (Stop ε) α},
    draw.runIn session = (result, session') → Course refusal session result session'
  /-- Where there is fuel. -/
  ended : ∀ {session : Session Tape}, session.left < limit →
    (draw.runIn session).1 ≠ .error .outOfFuel

/-- A draw that leaves fewer bytes on the tape wherever it comes to a value. -/
def Shortens (draw : Draw Tape ε α) : Prop :=
  ∀ ⦃session session' : Session Tape⦄ ⦃a : α⦄,
    draw.runIn session = (.ok a, session') → session'.left < session.left

theorem Consuming.mono {limit' : Nat} (h : Consuming refusal limit draw) (hle : limit' ≤ limit) :
    Consuming refusal limit' draw where
  course := h.course
  ended hlt := h.ended (Nat.lt_of_lt_of_le hlt hle)

/-- Without fuel nothing is promised but the course. -/
theorem consuming_outOfFuel : Consuming refusal 0 (outOfFuel : Draw Tape ε α) where
  course hrun := by
    obtain ⟨-, rfl⟩ := Prod.mk.inj hrun
    exact .served .nothing
  ended hlt := absurd hlt (Nat.not_lt_zero _)

theorem consuming_pure (a : α) : Consuming refusal limit (pure a : Draw Tape ε α) where
  course hrun := by
    obtain ⟨-, rfl⟩ := Prod.mk.inj hrun
    exact .served .nothing
  ended _ := by simp

theorem consuming_fail (cause : ε) : Consuming refusal limit (fail cause : Draw Tape ε α) where
  course hrun := by
    obtain ⟨-, rfl⟩ := Prod.mk.inj hrun
    exact .served .nothing
  ended _ := by simp

theorem consuming_note (event : Log.Event) :
    Consuming refusal limit (note event : Draw Tape ε Unit) where
  course hrun := by
    obtain ⟨-, rfl⟩ := Prod.mk.inj hrun
    exact .served (Spends.nothing.noted event)
  ended _ := by simp

/-- How a request goes that names a byte at least. -/
theorem consuming_bytes {count : Nat} (hpos : 0 < count) :
    Consuming Tape.exhausted limit (bytes count) where
  course {session session' result} hrun := by
    rw [runIn_bytes] at hrun
    obtain ⟨rfl, rfl⟩ := Prod.mk.inj hrun
    by_cases hle : count ≤ session.source.bytes.length
    · exact .served (Spends.nothing.asked hpos hle)
    · have hrefused : (Entropy.Source.fill count session.source).1 = .error Tape.exhausted :=
        Entropy.fill_tape_of_lt (Nat.lt_of_not_le hle)
      rw [hrefused]
      exact .refused .nothing (Nat.lt_of_not_le hle)
  ended _ := by
    rw [runIn_bytes]
    exact mapError_ne_outOfFuel _

theorem shortens_bytes {count : Nat} (hpos : 0 < count) : Shortens (bytes count) := by
  intro session session' buffer hrun
  rw [runIn_bytes] at hrun
  obtain ⟨hserved, rfl⟩ := Prod.mk.inj hrun
  by_cases hle : count ≤ session.source.bytes.length
  · have := Session.left_asked_of_le hle
    omega
  · rw [Entropy.fill_tape_of_lt (Nat.lt_of_not_le hle)] at hserved
    cases hserved

/-! ## §3. Sequences. -/

/-- The course of a sequence. -/
theorem Consuming.course_bind {limit' : Nat} {result : Except (Stop ε) β}
    (hdraw : Consuming refusal limit draw) (hnext : ∀ a, Consuming refusal limit' (next a))
    (hrun : (draw >>= next).runIn session = (result, session')) :
    Course refusal session result session' := by
  -- A first part that was refused a request has stopped, so a refusal is always the last request.
  rcases hfirst : draw.runIn session with ⟨first, mid⟩
  have hcourse := hdraw.course hfirst
  cases first with
  | ok a =>
    rw [runIn_bind_of_ok hfirst] at hrun
    obtain ⟨sizes, hspends⟩ := hcourse.spends_of_ok
    exact ((hnext a).course hrun).after hspends
  | error stop =>
    rw [runIn_bind_of_error hfirst] at hrun
    obtain ⟨rfl, rfl⟩ := Prod.mk.inj hrun
    cases hcourse with
    | served hspends => exact .served hspends
    | refused hspends hlt => exact .refused hspends hlt

/-- A sequence has fuel if its first part has, and leaves a tape that its second part has fuel for. -/
theorem Consuming.ended_bind {limit' : Nat} (hdraw : Consuming refusal limit draw)
    (hnext : ∀ a, Consuming refusal limit' (next a)) (hlt : session.left < limit)
    (hleft : ∀ {a : α} {mid : Session Tape}, draw.runIn session = (.ok a, mid) → mid.left < limit') :
    ((draw >>= next).runIn session).1 ≠ .error .outOfFuel := by
  rcases hfirst : draw.runIn session with ⟨first, mid⟩
  cases first with
  | ok a =>
    rw [runIn_bind_of_ok hfirst]
    exact (hnext a).ended (hleft hfirst)
  | error stop =>
    have hended := hdraw.ended hlt
    rw [hfirst] at hended
    rw [runIn_bind_of_error hfirst]
    intro hout
    exact hended (congrArg Except.error (Except.error.inj hout))

/-- **A sequence of consuming draws is consuming.** -/
theorem Consuming.bind (hdraw : Consuming refusal limit draw)
    (hnext : ∀ a, Consuming refusal limit (next a)) : Consuming refusal limit (draw >>= next) where
  course := hdraw.course_bind hnext
  ended hlt := hdraw.ended_bind hnext hlt fun hfirst => by
    obtain ⟨sizes, hspends⟩ := (hdraw.course hfirst).spends_of_ok
    have := hspends.left
    omega

/-- **Where the first part reads something, the second needs less fuel.** -/
theorem Consuming.bind_of_shortens (hdraw : Consuming refusal (limit + 1) draw) (hshort : Shortens draw)
    (hnext : ∀ a, Consuming refusal limit (next a)) :
    Consuming refusal (limit + 1) (draw >>= next) where
  course := hdraw.course_bind hnext
  ended hlt := hdraw.ended_bind hnext hlt fun hfirst => by
    have := hshort hfirst
    omega

/-- What is computed from a value does not put back what was read for it. -/
theorem Shortens.bind_pure (hshort : Shortens draw) (f : α → β) :
    Shortens (draw >>= fun a => pure (f a)) := by
  intro session session' b hrun
  obtain ⟨a, mid, hfirst, hpure⟩ := runIn_bind_eq_ok.1 hrun
  obtain ⟨-, rfl⟩ := runIn_pure_eq_ok.1 hpure
  exact hshort hfirst

/-- A consuming draw whose errors are seen as other errors is consuming. -/
theorem Consuming.widen (h : Consuming refusal limit draw) (f : ε → ε') :
    Consuming (f refusal) limit (draw.widen f) where
  course {session session' result} hrun := by
    rcases hinner : draw.runIn session with ⟨inner, after⟩
    rw [runIn_widen, hinner] at hrun
    obtain ⟨rfl, rfl⟩ := Prod.mk.inj hrun
    have hcourse := h.course hinner
    cases hcourse with
    | served hspends => exact .served hspends
    | refused hspends hlt => exact .refused hspends hlt
  ended {session} hlt := by
    rw [runIn_widen]
    have hended := h.ended hlt
    match hrun : (draw.runIn session).1 with
    | .ok a => simp [Except.mapError]
    | .error (.error cause) => simp [Except.mapError, Stop.map]
    | .error .outOfFuel => exact absurd hrun hended

/-- Consuming draws for the elements of a list, one after the other, are consuming. -/
theorem consuming_mapM {f : α → Draw Tape ε β} (hf : ∀ a, Consuming refusal limit (f a))
    (as : List α) : Consuming refusal limit (as.mapM f) := by
  induction as with
  | nil => exact consuming_pure []
  | cons a as ih =>
    rw [List.mapM_cons]
    exact (hf a).bind fun b => ih.bind fun bs => consuming_pure (b :: bs)

/-! ## §4. Families of draws. -/

/-- On every tape the draw ends, with no more requests than one for each byte and one more: each of
them was for a byte at least and was served, except that the last one may have been refused, and that
is then how the draw has ended. -/
def EndsOnTapes (refusal : ε) (draw : Nat → Draw Tape ε α) : Prop :=
  ∀ tape : List UInt8, ∃ answer session', Ends draw (Session.start ⟨tape⟩) answer session'
    ∧ session'.meter.calls ≤ tape.length + 1
    ∧ Course refusal (Session.start ⟨tape⟩) (answer.mapError Stop.error) session'

/-- **Consuming draws end on every tape**, if there is fuel for more bytes than any tape has. -/
theorem EndsOnTapes.of_consuming {draw : Nat → Draw Tape ε α} (bound : Nat)
    (hsteady : Steady draw) (h : ∀ fuel, Consuming refusal (fuel - bound) (draw fuel)) :
    EndsOnTapes refusal draw := by
  intro tape
  have hlt : (Session.start (⟨tape⟩ : Tape)).left < bound + tape.length + 1 - bound := by
    show tape.length < _
    omega
  have hended := (h _).ended hlt
  rcases hsteady.ends_or_endless (Session.start ⟨tape⟩) with ⟨answer, session', hends⟩ | hendless
  · obtain ⟨least, hrun⟩ := id hends
    have hcourse := (h least).course (hrun least le_rfl)
    refine ⟨answer, session', hends, ?_, hcourse⟩
    have hcalls := hcourse.calls_le
    rwa [show (Session.start (⟨tape⟩ : Tape)).meter.calls = 0 from rfl, Nat.zero_add] at hcalls
  · exact absurd (hendless _) hended

end Draw

end ProbablePrime
