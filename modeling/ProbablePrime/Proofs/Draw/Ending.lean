/-
  ProbablePrime.Proofs.Draw.Ending — how runs end when fuel is no object.

  A loop that may go on for ever is a family of draws, one for each amount of fuel.  Such a family
  is steady when fuel only decides whether a run ends, never how: a run that has ended is not changed
  by more fuel.  A steady family then ends in one way or goes on without end.

  Main results:
    * `Steady.bind` — a sequence of steady families is steady;
    * `Steady.ends_or_endless` — a steady family ends in a session, or is endless there;
    * `ends_bind_ok_iff` and `ends_bind_error_iff` — how a sequence ends;
    * `endless_bind_iff` — a sequence goes on for ever in its first part or in its second.
-/
import ProbablePrime.Proofs.Draw.Run

namespace ProbablePrime.Draw

variable {σ ε α β : Type}

/-! ## §1. Ends. -/

/-- With enough fuel the run from `session` ends with `answer`, in `session'`. -/
def Ends (draw : Nat → Draw σ ε α) (session : Session σ) (answer : Except ε α)
    (session' : Session σ) : Prop :=
  ∃ least, ∀ fuel, least ≤ fuel →
    (draw fuel).runIn session = (answer.mapError Stop.error, session')

/-- No amount of fuel brings the run from `session` to an end. -/
def Endless (draw : Nat → Draw σ ε α) (session : Session σ) : Prop :=
  ∀ fuel, ((draw fuel).runIn session).1 = .error .outOfFuel

/-- More fuel does not change a run that has ended. -/
def Steady (draw : Nat → Draw σ ε α) : Prop :=
  ∀ ⦃fuel fuel' : Nat⦄, fuel ≤ fuel' → ∀ session : Session σ,
    ((draw fuel).runIn session).1 ≠ .error .outOfFuel →
      (draw fuel').runIn session = (draw fuel).runIn session

/-- An answer is an end, so it is not that the fuel was used up. -/
theorem mapError_ne_outOfFuel (answer : Except ε α) :
    answer.mapError Stop.error ≠ .error .outOfFuel := by
  cases answer with
  | ok a => simp [Except.mapError]
  | error cause => simp [Except.mapError]

/-! ## §2. Families that do not depend on fuel. -/

theorem steady_const (draw : Draw σ ε α) : Steady fun _ => draw := by
  intro fuel fuel' _ session _
  rfl

theorem Ends.of_const {draw : Draw σ ε α} {session session' : Session σ} {answer : Except ε α}
    (h : draw.runIn session = (answer.mapError Stop.error, session')) :
    Ends (fun _ => draw) session answer session' :=
  ⟨0, fun _ _ => h⟩

theorem ends_const_iff {draw : Draw σ ε α} {session session' : Session σ} {answer : Except ε α} :
    Ends (fun _ => draw) session answer session'
      ↔ draw.runIn session = (answer.mapError Stop.error, session') := by
  constructor
  · rintro ⟨least, hrun⟩
    exact hrun least le_rfl
  · exact Ends.of_const

/-! ## §3. Sequences. -/

/-- The draw `draw'` runs as `draw` does, wherever that does not run out of fuel. -/
def Extends (draw draw' : Draw σ ε α) : Prop :=
  ∀ session : Session σ, (draw.runIn session).1 ≠ .error .outOfFuel →
    draw'.runIn session = draw.runIn session

theorem Extends.refl (draw : Draw σ ε α) : Extends draw draw := by
  intro session _
  rfl

/-- What has no fuel at all is extended by everything. -/
theorem Extends.of_outOfFuel (draw : Draw σ ε α) : Extends outOfFuel draw := by
  intro session hended
  exact absurd rfl hended

/-- A sequence is extended part by part. -/
theorem Extends.bind {draw draw' : Draw σ ε α} {next next' : α → Draw σ ε β}
    (hdraw : Extends draw draw') (hnext : ∀ a, Extends (next a) (next' a)) :
    Extends (draw >>= next) (draw' >>= next') := by
  intro session hended
  rcases hfirst : draw.runIn session with ⟨result, session'⟩
  cases result with
  | ok a =>
    have hfirst' : draw'.runIn session = (.ok a, session') := by
      rw [hdraw session (by simp [hfirst]), hfirst]
    rw [runIn_bind_of_ok hfirst] at hended ⊢
    rw [runIn_bind_of_ok hfirst']
    exact hnext a session' hended
  | error stop =>
    rw [runIn_bind_of_error hfirst] at hended ⊢
    have hstop : stop ≠ .outOfFuel := fun hout => hended (by rw [hout])
    have hfirst' : draw'.runIn session = (.error stop, session') := by
      rw [hdraw session (by simpa [hfirst] using hstop), hfirst]
    rw [runIn_bind_of_error hfirst']

/-- Two steady families, one after the other, are a steady family. -/
theorem Steady.bind {draw : Nat → Draw σ ε α} {next : Nat → α → Draw σ ε β}
    (hdraw : Steady draw) (hnext : ∀ a, Steady (next · a)) :
    Steady fun fuel => draw fuel >>= next fuel := by
  intro fuel fuel' hle
  exact Extends.bind (hdraw hle) fun a => hnext a hle

/-- Steady families for the elements of a list, one after the other, are a steady family. -/
theorem Steady.mapM {f : Nat → α → Draw σ ε β} (hf : ∀ a, Steady (f · a)) (as : List α) :
    Steady fun fuel => as.mapM (f fuel) := by
  induction as with
  | nil => exact steady_const (pure [])
  | cons a as ih =>
    simp only [List.mapM_cons]
    exact (hf a).bind fun b => ih.bind fun bs => steady_const (pure (b :: bs))

/-- Where the first part ends with a value, the sequence ends as the second part does. -/
theorem Ends.bind {draw : Nat → Draw σ ε α} {next : Nat → α → Draw σ ε β}
    {session session' session'' : Session σ} {a : α} {answer : Except ε β}
    (hdraw : Ends draw session (.ok a) session') (hnext : Ends (next · a) session' answer session'') :
    Ends (fun fuel => draw fuel >>= next fuel) session answer session'' := by
  obtain ⟨least, hdraw⟩ := hdraw
  obtain ⟨least', hnext⟩ := hnext
  refine ⟨max least least', fun fuel hle => ?_⟩
  rw [runIn_bind_of_ok (hdraw fuel (by omega))]
  exact hnext fuel (by omega)

/-- Where the first part ends with an error, so does the sequence. -/
theorem Ends.bind_error {draw : Nat → Draw σ ε α} {session session' : Session σ} {cause : ε}
    (hdraw : Ends draw session (.error cause) session') (next : Nat → α → Draw σ ε β) :
    Ends (fun fuel => draw fuel >>= next fuel) session (.error cause) session' := by
  obtain ⟨least, hdraw⟩ := hdraw
  exact ⟨least, fun fuel hle => runIn_bind_of_error (hdraw fuel hle) (next fuel)⟩

/-! ## §4. To end or not to end. -/

/-- What one run of a steady family shows holds of all runs with more fuel. -/
theorem Steady.ends {draw : Nat → Draw σ ε α} (hdraw : Steady draw) {fuel : Nat}
    {session session' : Session σ} {answer : Except ε α}
    (h : (draw fuel).runIn session = (answer.mapError Stop.error, session')) :
    Ends draw session answer session' := by
  refine ⟨fuel, fun fuel' hle => ?_⟩
  rw [hdraw hle session ?_, h]
  rw [h]
  cases answer <;> simp [Except.mapError]

/-- A steady family ends in a session, in one way, or it is endless there. -/
theorem Steady.ends_or_endless {draw : Nat → Draw σ ε α} (hdraw : Steady draw)
    (session : Session σ) :
    (∃ answer session', Ends draw session answer session') ∨ Endless draw session := by
  by_cases hendless : Endless draw session
  · exact Or.inr hendless
  · left
    obtain ⟨fuel, hended⟩ := not_forall.1 hendless
    rcases hrun : (draw fuel).runIn session with ⟨result, session'⟩
    match result with
    | .ok a => exact ⟨.ok a, session', hdraw.ends hrun⟩
    | .error (.error cause) => exact ⟨.error cause, session', hdraw.ends hrun⟩
    | .error .outOfFuel => exact absurd (by rw [hrun]) hended

/-- An end is seen with any amount of fuel that suffices, so there is at most one. -/
theorem Ends.unique {draw : Nat → Draw σ ε α} {session s s' : Session σ} {answer answer' : Except ε α}
    (h : Ends draw session answer s) (h' : Ends draw session answer' s') :
    answer = answer' ∧ s = s' := by
  obtain ⟨least, h⟩ := h
  obtain ⟨least', h'⟩ := h'
  have hrun := (h (max least least') (by omega)).symm.trans (h' (max least least') (by omega))
  cases answer <;> cases answer' <;> simp_all [Except.mapError]

/-- A run that ends is not endless. -/
theorem Ends.not_endless {draw : Nat → Draw σ ε α} {session session' : Session σ}
    {answer : Except ε α} (h : Ends draw session answer session') : ¬ Endless draw session := by
  obtain ⟨least, hrun⟩ := h
  intro hendless
  have hout := hendless least
  rw [hrun least le_rfl] at hout
  exact mapError_ne_outOfFuel answer hout

/-- A sequence that ends has ended in its first part with an error, or in its second. -/
theorem Ends.of_bind {draw : Nat → Draw σ ε α} {next : Nat → α → Draw σ ε β}
    {session session'' : Session σ} {answer : Except ε β} (hdraw : Steady draw)
    (h : Ends (fun fuel => draw fuel >>= next fuel) session answer session'') :
    (∃ cause, answer = .error cause ∧ Ends draw session (.error cause) session'')
      ∨ ∃ a session', Ends draw session (.ok a) session'
        ∧ Ends (next · a) session' answer session'' := by
  obtain ⟨least, hrun⟩ := h
  rcases hdraw.ends_or_endless session with ⟨first, session', hends⟩ | hendless
  · obtain ⟨least', hfirst⟩ := id hends
    cases first with
    | error cause =>
      left
      obtain ⟨hanswer, rfl⟩ := Ends.unique ⟨least, hrun⟩ (hends.bind_error next)
      exact ⟨cause, hanswer, hends⟩
    | ok a =>
      right
      refine ⟨a, session', hends, max least least', fun fuel hle => ?_⟩
      have hseq := hrun fuel (by omega)
      rw [runIn_bind_of_ok (hfirst fuel (by omega))] at hseq
      exact hseq
  · -- Without an end in its first part the sequence has none.
    exfalso
    have hout := hendless least
    rcases hfirst : (draw least).runIn session with ⟨result, session'⟩
    rw [hfirst] at hout
    obtain rfl : result = .error .outOfFuel := hout
    have hseq := (runIn_bind_of_error hfirst (next least)).symm.trans (hrun least le_rfl)
    exact mapError_ne_outOfFuel answer (Prod.mk.inj hseq).1.symm

/-- **A sequence ends with a value behind both its parts.** -/
theorem ends_bind_ok_iff {draw : Nat → Draw σ ε α} {next : Nat → α → Draw σ ε β}
    {session session'' : Session σ} {b : β} (hdraw : Steady draw) :
    Ends (fun fuel => draw fuel >>= next fuel) session (.ok b) session''
      ↔ ∃ a session', Ends draw session (.ok a) session'
        ∧ Ends (next · a) session' (.ok b) session'' := by
  constructor
  · intro h
    rcases Ends.of_bind hdraw h with ⟨cause, hcause, -⟩ | hboth
    · cases hcause
    · exact hboth
  · rintro ⟨a, session', hfirst, hsecond⟩
    exact hfirst.bind hsecond

/-- **A sequence ends with an error in its first part, or behind it in its second.** -/
theorem ends_bind_error_iff {draw : Nat → Draw σ ε α} {next : Nat → α → Draw σ ε β}
    {session session'' : Session σ} {cause : ε} (hdraw : Steady draw) :
    Ends (fun fuel => draw fuel >>= next fuel) session (.error cause) session''
      ↔ Ends draw session (.error cause) session''
        ∨ ∃ a session', Ends draw session (.ok a) session'
          ∧ Ends (next · a) session' (.error cause) session'' := by
  constructor
  · intro h
    rcases Ends.of_bind hdraw h with ⟨cause', hcause, hfirst⟩ | hboth
    · obtain rfl := Except.error.inj hcause
      exact Or.inl hfirst
    · exact Or.inr hboth
  · rintro (hfirst | ⟨a, session', hfirst, hsecond⟩)
    · exact hfirst.bind_error next
    · exact hfirst.bind hsecond

/-- A sequence that has no end goes on for ever in its first part, or after it. -/
theorem Endless.of_bind {draw : Nat → Draw σ ε α} {next : Nat → α → Draw σ ε β}
    {session : Session σ} (hdraw : Steady draw) (hnext : ∀ a, Steady (next · a))
    (h : Endless (fun fuel => draw fuel >>= next fuel) session) :
    Endless draw session
      ∨ ∃ a session', Ends draw session (.ok a) session' ∧ Endless (next · a) session' := by
  rcases hdraw.ends_or_endless session with ⟨answer, session', hends⟩ | hendless
  · right
    cases answer with
    | error cause => exact absurd h (hends.bind_error next).not_endless
    | ok a =>
      refine ⟨a, session', hends, ?_⟩
      rcases (hnext a).ends_or_endless session' with ⟨answer, session'', hends'⟩ | hendless
      · exact absurd h (hends.bind hends').not_endless
      · exact hendless
  · exact Or.inl hendless

/-- A sequence whose first part has no end has none. -/
theorem Endless.bind {draw : Nat → Draw σ ε α} {session : Session σ} (h : Endless draw session)
    (next : Nat → α → Draw σ ε β) : Endless (fun fuel => draw fuel >>= next fuel) session := by
  intro fuel
  have hout := h fuel
  rcases hrun : (draw fuel).runIn session with ⟨result, session'⟩
  rw [hrun] at hout
  obtain rfl : result = .error .outOfFuel := hout
  rw [runIn_bind_of_error hrun]

/-- A sequence whose second part has no end has none. -/
theorem Endless.bind_of_ends {draw : Nat → Draw σ ε α} {next : Nat → α → Draw σ ε β}
    {session session' : Session σ} {a : α} (hdraw : Steady draw)
    (hends : Ends draw session (.ok a) session') (h : Endless (next · a) session') :
    Endless (fun fuel => draw fuel >>= next fuel) session := by
  intro fuel
  rcases hrun : (draw fuel).runIn session with ⟨result, mid⟩
  match result with
  | .ok b =>
    have hfirst : Ends draw session (.ok b) mid := hdraw.ends hrun
    obtain ⟨hvalue, rfl⟩ := hends.unique hfirst
    obtain rfl := Except.ok.inj hvalue
    rw [runIn_bind_of_ok hrun]
    exact h fuel
  | .error (.error cause) =>
    have hfirst : Ends draw session (.error cause) mid := hdraw.ends hrun
    cases (hends.unique hfirst).1
  | .error .outOfFuel => rw [runIn_bind_of_error hrun]

/-- **A sequence has no end when one of its parts has none.** -/
theorem endless_bind_iff {draw : Nat → Draw σ ε α} {next : Nat → α → Draw σ ε β}
    {session : Session σ} (hdraw : Steady draw) (hnext : ∀ a, Steady (next · a)) :
    Endless (fun fuel => draw fuel >>= next fuel) session
      ↔ Endless draw session
        ∨ ∃ a session', Ends draw session (.ok a) session' ∧ Endless (next · a) session' := by
  constructor
  · exact Endless.of_bind hdraw hnext
  · rintro (hfirst | ⟨a, session', hfirst, hsecond⟩)
    · exact hfirst.bind next
    · exact Endless.bind_of_ends hdraw hfirst hsecond

/-! ## §5. Errors seen as other errors. -/

variable {ε' : Type} {draw : Nat → Draw σ ε α}

theorem Ends.widen {session session' : Session σ} {answer : Except ε α}
    (h : Ends draw session answer session') (f : ε → ε') :
    Ends (fun fuel => (draw fuel).widen f) session (answer.mapError f) session' := by
  obtain ⟨least, hrun⟩ := h
  refine ⟨least, fun fuel hle => ?_⟩
  rw [runIn_widen, hrun fuel hle]
  cases answer with
  | ok a => rfl
  | error cause => rfl

theorem Endless.widen {session : Session σ} (h : Endless draw session) (f : ε → ε') :
    Endless (fun fuel => (draw fuel).widen f) session := by
  intro fuel
  rw [runIn_widen, h fuel]
  rfl

theorem Steady.widen (hdraw : Steady draw) (f : ε → ε') : Steady fun fuel => (draw fuel).widen f := by
  intro fuel fuel' hle session hended
  have hinner : ((draw fuel).runIn session).1 ≠ .error .outOfFuel := by
    intro hout
    exact hended (by rw [runIn_widen, hout]; rfl)
  rw [runIn_widen, runIn_widen, hdraw hle session hinner]

/-- A family whose errors are seen as others ends with a value where it did before. -/
theorem ends_widen_ok_iff {f : ε → ε'} {session session' : Session σ} {a : α} :
    Ends (fun fuel => (draw fuel).widen f) session (.ok a) session'
      ↔ Ends draw session (.ok a) session' := by
  constructor
  · rintro ⟨least, hrun⟩
    exact ⟨least, fun fuel hle => runIn_widen_eq_ok.1 (hrun fuel hle)⟩
  · intro h
    exact h.widen f

/-- It ends with an error where it did before, and the error is the former one seen as another. -/
theorem ends_widen_error_iff (hdraw : Steady draw) {f : ε → ε'} {session session' : Session σ}
    {cause : ε'} :
    Ends (fun fuel => (draw fuel).widen f) session (.error cause) session'
      ↔ ∃ inner, f inner = cause ∧ Ends draw session (.error inner) session' := by
  constructor
  · rintro ⟨least, hrun⟩
    obtain ⟨inner, hcause, hinner⟩ := runIn_widen_eq_error.1 (hrun least le_rfl)
    exact ⟨inner, hcause, hdraw.ends hinner⟩
  · rintro ⟨inner, rfl, h⟩
    exact h.widen f

theorem Endless.of_widen {f : ε → ε'} {session : Session σ}
    (h : Endless (fun fuel => (draw fuel).widen f) session) : Endless draw session := by
  intro fuel
  have hout := h fuel
  rw [runIn_widen] at hout
  rcases hrun : (draw fuel).runIn session with ⟨result, session'⟩
  rw [hrun] at hout
  match result with
  | .ok a => cases hout
  | .error (.error cause) => cases hout
  | .error .outOfFuel => rfl

end ProbablePrime.Draw
