/-
  ProbablePrime.Proofs.Vectors.InOrder — the classification of all lists as one row of steps.

  The lists are classified in the order of the categories, each from front to back, and the end of
  each list is noted.  These are the steps of one row.  A classification takes one step after the
  other, for as long as the numbers are what their categories say; at the first number that is not,
  it ends where the check of that number has ended, and at the first check without an end it has none.

  What a draw does to the row is kept by sequences, so it is known of one number first, then of one
  list and then of all of them.

  Main results:
    * `Follows.bind` — a sequence follows the rows of its parts, one behind the other;
    * `follows_ofInputs` — the classification follows the row of all lists;
    * `ofInputs_in_order` — its values, its errors and its endless runs.
-/
import ProbablePrime.Proofs.Primality.Passing
import ProbablePrime.Proofs.Primality.Verdict
import ProbablePrime.Vectors.TestVector

namespace ProbablePrime.Vectors

open Entropy (Ones Source Tape)
open Primality (Decomposition Settled Verdict check decompose oddPart steady_check twos)
open Draw (Endless Ends Steady)

/-! ## §1. The row of steps. -/

/-- A step of the classification of all lists. -/
inductive Step where
  /-- A number of a list is checked. -/
  | number (category : Category) (n : Nat)
  /-- The end of a list is noted. -/
  | finished (category : Category) (count : Nat)

/-- The steps for the list of a category: its numbers from front to back, and its end. -/
def listSteps (inputs : Inputs) (category : Category) : List Step :=
  (inputs.get category).map (.number category)
    ++ [.finished category (inputs.get category).length]

/-- The steps for all lists, in the order of the categories. -/
def allSteps (inputs : Inputs) : List Step := Category.all.flatMap (listSteps inputs)

theorem mem_allSteps {inputs : Inputs} {category : Category} {n : Nat} :
    .number category n ∈ allSteps inputs ↔ n ∈ inputs.get category := by
  simp [allSteps, listSteps, Category.mem_all]

variable {σ : Type} [Source σ] {rounds n : Nat} {category : Category} {before mid after : Session σ}
  {row row' : List Step}

/-- The check of `n` ends in `after` with the verdict that the category expects. -/
def Accepts (rounds : Nat) (category : Category) (n : Nat) (before after : Session σ) : Prop :=
  ∃ verdict, Ends (fun fuel => check fuel rounds n) before (.ok verdict) after
    ∧ verdict.probablePrime = category.expectsPrime ∧ 2 ≤ n

/-- A settled number is accepted at once where it is what its category says. -/
theorem accepts_of_settled (hrounds : rounds ≠ 0) (hn : Settled n) (htwo : 2 ≤ n)
    (hkind : decide n.Prime = category.expectsPrime) (session : Session σ) :
    Accepts rounds category n session session :=
  ⟨_, Primality.ends_check_of_settled hrounds hn session, hkind, htwo⟩

/-- The check of `n` ends in `after`, and there is something to complain about. -/
inductive Offends (rounds : Nat) (category : Category) (n : Nat) (before : Session σ) :
    VectorError → Session σ → Prop
  /-- The check itself fails. -/
  | check {cause : PrimeError} {after : Session σ} :
    Ends (fun fuel => check fuel rounds n) before (.error cause) after →
      Offends rounds category n before (.prime cause) after
  /-- The number has no decomposition, whatever its category is. -/
  | undecomposable {verdict : Verdict} {after : Session σ} :
    Ends (fun fuel => Primality.check fuel rounds n) before (.ok verdict) after → n < 2 →
      Offends rounds category n before (.undecomposable category n) after
  /-- The verdict is not the one that the category expects. -/
  | mismatch {verdict : Verdict} {after : Session σ} :
    Ends (fun fuel => Primality.check fuel rounds n) before (.ok verdict) after → 2 ≤ n →
      verdict.probablePrime ≠ category.expectsPrime →
        Offends rounds category n before (.mismatch category n) after

/-- All steps of the row are taken from `before` to `after`, and every number is accepted. -/
inductive Passes (rounds : Nat) : (before : Session σ) → List Step → (after : Session σ) → Prop
  /-- There is no step. -/
  | done (session : Session σ) : Passes rounds session [] session
  /-- A number is accepted. -/
  | number {category : Category} {n : Nat} {before mid after : Session σ} {row : List Step} :
    Accepts rounds category n before mid → Passes rounds mid row after →
      Passes rounds before (.number category n :: row) after
  /-- The end of a list is noted. -/
  | finished {category : Category} {count : Nat} {before after : Session σ} {row : List Step} :
    Passes rounds (before.noted (classified count category)) row after →
      Passes rounds before (.finished category count :: row) after

/-- Steps from `before` lead to a number of the row of which `found` is true: those in front of it
are taken, and `found` is true of the session behind them. -/
def LeadsTo (rounds : Nat) (before : Session σ) (row : List Step)
    (found : (mid : Session σ) → Category → Nat → Prop) : Prop :=
  ∃ front category n back mid, row = front ++ .number category n :: back
    ∧ Passes rounds before front mid ∧ found mid category n

/-! ## §2. Rows, step by step. -/

variable {found : Session σ → Category → Nat → Prop}

theorem passes_nil_iff : Passes rounds before [] after ↔ before = after := by
  constructor
  · rintro ⟨⟩
    rfl
  · rintro rfl
    exact .done _

theorem passes_number_iff :
    Passes rounds before (.number category n :: row) after
      ↔ ∃ mid, Accepts rounds category n before mid ∧ Passes rounds mid row after := by
  constructor
  · intro h
    cases h with
    | number haccept hrest => exact ⟨_, haccept, hrest⟩
  · rintro ⟨mid, haccept, hrest⟩
    exact .number haccept hrest

theorem passes_finished_iff {count : Nat} :
    Passes rounds before (.finished category count :: row) after
      ↔ Passes rounds (before.noted (classified count category)) row after := by
  constructor
  · intro h
    cases h with
    | finished hrest => exact hrest
  · exact .finished

/-- Rows one behind the other are passed one after the other. -/
theorem passes_append_iff :
    Passes rounds before (row ++ row') after
      ↔ ∃ mid, Passes rounds before row mid ∧ Passes rounds mid row' after := by
  induction row generalizing before with
  | nil => simp [passes_nil_iff]
  | cons step row ih =>
    cases step with
    | number category n =>
      simp only [List.cons_append, passes_number_iff, ih]
      constructor
      · rintro ⟨first, haccept, mid, hrow, hrow'⟩
        exact ⟨mid, ⟨first, haccept, hrow⟩, hrow'⟩
      · rintro ⟨mid, ⟨first, haccept, hrow⟩, hrow'⟩
        exact ⟨first, haccept, mid, hrow, hrow'⟩
    | finished category count => simp only [List.cons_append, passes_finished_iff, ih]

/-- The numbers of a row that is passed are accepted. -/
theorem Passes.exists_accepts (h : Passes rounds before row after)
    (hmem : .number category n ∈ row) :
    ∃ mid mid' : Session σ, Accepts rounds category n mid mid' := by
  induction h with
  | done session => simp at hmem
  | @number category' n' before mid after row haccept _ ih =>
    rcases List.mem_cons.1 hmem with heq | hrest
    · obtain ⟨rfl, rfl⟩ := Step.number.inj heq
      exact ⟨before, mid, haccept⟩
    · exact ih hrest
  | finished _ ih => exact ih (by simpa using hmem)

theorem not_leadsTo_nil : ¬ LeadsTo rounds before [] found := by
  rintro ⟨front, category, n, back, mid, hrow, -⟩
  simp at hrow

/-- A row that begins with a number leads to it or, if it is accepted, on from there. -/
theorem leadsTo_number_iff :
    LeadsTo rounds before (.number category n :: row) found
      ↔ found before category n
        ∨ ∃ mid, Accepts rounds category n before mid ∧ LeadsTo rounds mid row found := by
  constructor
  · rintro ⟨front, category', n', back, mid, hrow, hfront, hfound⟩
    cases front with
    | nil =>
      obtain ⟨hstep, rfl⟩ := List.cons.inj hrow
      obtain ⟨rfl, rfl⟩ := Step.number.inj hstep
      rw [passes_nil_iff] at hfront
      subst hfront
      exact Or.inl hfound
    | cons step front =>
      obtain ⟨rfl, rfl⟩ := List.cons.inj hrow
      obtain ⟨first, haccept, hfront⟩ := passes_number_iff.1 hfront
      exact Or.inr ⟨first, haccept, front, category', n', back, mid, rfl, hfront, hfound⟩
  · rintro (hfound | ⟨first, haccept, front, category', n', back, mid, rfl, hfront, hfound⟩)
    · exact ⟨[], category, n, row, before, rfl, .done before, hfound⟩
    · exact ⟨_ :: front, category', n', back, mid, rfl, .number haccept hfront, hfound⟩

theorem leadsTo_finished_iff {count : Nat} :
    LeadsTo rounds before (.finished category count :: row) found
      ↔ LeadsTo rounds (before.noted (classified count category)) row found := by
  constructor
  · rintro ⟨front, category', n', back, mid, hrow, hfront, hfound⟩
    cases front with
    | nil => cases (List.cons.inj hrow).1
    | cons step front =>
      obtain ⟨rfl, rfl⟩ := List.cons.inj hrow
      exact ⟨front, category', n', back, mid, rfl, passes_finished_iff.1 hfront, hfound⟩
  · rintro ⟨front, category', n', back, mid, rfl, hfront, hfound⟩
    exact ⟨_ :: front, category', n', back, mid, rfl, .finished hfront, hfound⟩

/-- Two rows lead to a number in the first or, once that is passed, in the second. -/
theorem leadsTo_append_iff :
    LeadsTo rounds before (row ++ row') found
      ↔ LeadsTo rounds before row found
        ∨ ∃ mid, Passes rounds before row mid ∧ LeadsTo rounds mid row' found := by
  induction row generalizing before with
  | nil => simp [passes_nil_iff, not_leadsTo_nil]
  | cons step row ih =>
    cases step with
    | number category n =>
      simp only [List.cons_append, leadsTo_number_iff, passes_number_iff, ih]
      constructor
      · rintro (hfound | ⟨first, haccept, hrow | ⟨mid, hrow, hrow'⟩⟩)
        · exact Or.inl (Or.inl hfound)
        · exact Or.inl (Or.inr ⟨first, haccept, hrow⟩)
        · exact Or.inr ⟨mid, ⟨first, haccept, hrow⟩, hrow'⟩
      · rintro ((hfound | ⟨first, haccept, hrow⟩) | ⟨mid, ⟨first, haccept, hrow⟩, hrow'⟩)
        · exact Or.inl hfound
        · exact Or.inr ⟨first, haccept, Or.inl hrow⟩
        · exact Or.inr ⟨first, haccept, Or.inr ⟨mid, hrow, hrow'⟩⟩
    | finished category count =>
      simp only [List.cons_append, leadsTo_finished_iff, passes_finished_iff, ih]

/-! ## §3. Draws that follow a row. -/

variable {α β : Type}

/-- The draw takes the steps of the row.  Its value is `value` behind the last of them, its error is
the first complaint about one of the numbers, and it has no end if it comes to a check without one. -/
structure Follows (rounds : Nat) (draw : Nat → Draw σ VectorError α) (row : List Step) (value : α) :
    Prop where
  /-- Fuel does not change how it ends. -/
  steady : Steady draw
  /-- Its value. -/
  ok : ∀ {before after : Session σ} {a : α}, Ends draw before (.ok a) after
    ↔ Passes rounds before row after ∧ a = value
  /-- Its errors. -/
  error : ∀ {before after : Session σ} {cause : VectorError}, Ends draw before (.error cause) after
    ↔ LeadsTo rounds before row fun mid category n => Offends rounds category n mid cause after
  /-- Its endless runs. -/
  endless : ∀ {before : Session σ}, Endless draw before
    ↔ LeadsTo rounds before row fun mid _ n => Endless (fun fuel => check fuel rounds n) mid

namespace Follows

variable {draw : Nat → Draw σ VectorError α} {a : α}

/-- What comes behind the draw comes behind the row. -/
theorem exists_iff (h : Follows rounds draw row a) (P : α → Session σ → Prop) :
    (∃ b mid, Ends draw before (.ok b) mid ∧ P b mid)
      ↔ ∃ mid, Passes rounds before row mid ∧ P a mid := by
  constructor
  · rintro ⟨b, mid, hends, hP⟩
    obtain ⟨hpasses, rfl⟩ := h.ok.1 hends
    exact ⟨mid, hpasses, hP⟩
  · rintro ⟨mid, hpasses, hP⟩
    exact ⟨a, mid, h.ok.2 ⟨hpasses, rfl⟩, hP⟩

/-- **A sequence follows the rows of its parts**, one behind the other. -/
theorem bind {next : Nat → α → Draw σ VectorError β} {b : β} (hdraw : Follows rounds draw row a)
    (hsteady : ∀ a, Steady (next · a)) (hnext : Follows rounds (next · a) row' b) :
    Follows rounds (fun fuel => draw fuel >>= next fuel) (row ++ row') b where
  steady := hdraw.steady.bind hsteady
  ok := by
    intro before after value
    rw [Draw.ends_bind_ok_iff hdraw.steady,
      hdraw.exists_iff fun a mid => Ends (next · a) mid (.ok value) after, passes_append_iff]
    simp only [hnext.ok]
    constructor
    · rintro ⟨mid, hrow, hrow', rfl⟩
      exact ⟨⟨mid, hrow, hrow'⟩, rfl⟩
    · rintro ⟨⟨mid, hrow, hrow'⟩, rfl⟩
      exact ⟨mid, hrow, hrow', rfl⟩
  error := by
    intro before after cause
    rw [Draw.ends_bind_error_iff hdraw.steady, hdraw.error,
      hdraw.exists_iff fun a mid => Ends (next · a) mid (.error cause) after, leadsTo_append_iff]
    simp only [hnext.error]
  endless := by
    intro before
    rw [Draw.endless_bind_iff hdraw.steady hsteady, hdraw.endless,
      hdraw.exists_iff fun a mid => Endless (next · a) mid, leadsTo_append_iff]
    simp only [hnext.endless]

theorem pure (a : α) : Follows rounds (fun _ => (Pure.pure a : Draw σ VectorError α)) [] a where
  steady := Draw.steady_const _
  ok := by
    intro before after value
    rw [Draw.ends_const_iff, passes_nil_iff]
    show (Pure.pure a : Draw σ VectorError α).runIn before = (.ok value, after) ↔ _
    rw [Draw.runIn_pure_eq_ok, and_comm, eq_comm (a := a)]
  error := by
    intro before after cause
    rw [Draw.ends_const_iff]
    simp [Except.mapError, not_leadsTo_nil]
  endless := by
    intro before
    simp [Endless, not_leadsTo_nil]

/-- The note at the end of a list. -/
theorem note (count : Nat) (category : Category) :
    Follows rounds (fun _ => (Draw.note (classified count category) : Draw σ VectorError Unit))
      [.finished category count] () where
  steady := Draw.steady_const _
  ok := by
    intro before after value
    rw [Draw.ends_const_iff, passes_finished_iff, passes_nil_iff]
    simp [Except.mapError]
  error := by
    intro before after cause
    rw [Draw.ends_const_iff]
    simp [Except.mapError, leadsTo_finished_iff, not_leadsTo_nil]
  endless := by
    intro before
    simp [Endless, leadsTo_finished_iff, not_leadsTo_nil]

/-- **Draws for the elements of a list follow the rows of the elements.** -/
theorem mapM {f : Nat → α → Draw σ VectorError β} {rowOf : α → List Step} {valueOf : α → β}
    (h : ∀ a, Follows rounds (f · a) (rowOf a) (valueOf a)) (as : List α) :
    Follows rounds (fun fuel => as.mapM (f fuel)) (as.flatMap rowOf) (as.map valueOf) := by
  induction as with
  | nil => exact .pure []
  | cons a as ih =>
    have hrest (b : β) : Follows rounds (fun fuel => as.mapM (f fuel) >>= fun bs => Pure.pure (b :: bs))
        (as.flatMap rowOf ++ []) (b :: as.map valueOf) :=
      ih.bind (fun bs => Draw.steady_const _) (.pure _)
    simp only [List.mapM_cons, List.flatMap_cons, List.map_cons]
    rw [← List.append_nil (as.flatMap rowOf)]
    exact (h a).bind (fun b => (hrest b).steady) (hrest (valueOf a))

/-- **Draws for the categories follow the rows of the categories**, in their order. -/
theorem build {f : Nat → Category → Draw σ VectorError α} {rowOf : Category → List Step}
    {valueOf : Category → α} (h : ∀ category, Follows rounds (f · category) (rowOf category)
      (valueOf category)) :
    Follows rounds (fun fuel => PerCategory.build (f fuel)) (Category.all.flatMap rowOf)
      (.ofFn valueOf) := by
  have hlast (a b c : α) : Follows rounds
      (fun fuel => f fuel .largeComposites >>= fun d => Pure.pure (PerCategory.mk a b c d))
      (rowOf .largeComposites ++ []) ⟨a, b, c, valueOf .largeComposites⟩ :=
    (h .largeComposites).bind (fun d => Draw.steady_const _) (.pure _)
  have hthird (a b : α) : Follows rounds
      (fun fuel => f fuel .smallComposites >>= fun c => f fuel .largeComposites >>= fun d =>
        Pure.pure (PerCategory.mk a b c d))
      (rowOf .smallComposites ++ (rowOf .largeComposites ++ []))
      ⟨a, b, valueOf .smallComposites, valueOf .largeComposites⟩ :=
    (h .smallComposites).bind (fun c => (hlast a b c).steady) (hlast a b _)
  have hsecond (a : α) : Follows rounds
      (fun fuel => f fuel .largePrimes >>= fun b => f fuel .smallComposites >>= fun c =>
        f fuel .largeComposites >>= fun d => Pure.pure (PerCategory.mk a b c d))
      (rowOf .largePrimes ++ (rowOf .smallComposites ++ (rowOf .largeComposites ++ [])))
      ⟨a, valueOf .largePrimes, valueOf .smallComposites, valueOf .largeComposites⟩ :=
    (h .largePrimes).bind (fun b => (hthird a b).steady) (hthird a _)
  exact (h .smallPrimes).bind (fun a => (hsecond a).steady) (hsecond _)

end Follows

/-! ## §4. One number. -/

/-- The test vector of a number that is not below two. -/
def TestVector.of (n : Nat) : TestVector := ⟨n, oddPart (n - 1), twos (n - 1)⟩

/-- The vector is about `n`, and its parts are a decomposition of it. -/
def TestVector.Decomposes (n : Nat) (vector : TestVector) : Prop :=
  vector.n = n ∧ Decomposition.Of n ⟨vector.d, vector.s⟩

/-- A number that is not below two is decomposed in one way. -/
theorem TestVector.decomposes_iff (hn : 2 ≤ n) {vector : TestVector} :
    vector.Decomposes n ↔ vector = TestVector.of n := by
  have hparts := Primality.decompose_of_two_le hn
  constructor
  · rintro ⟨rfl, hof⟩
    have heq := Option.some.inj (hof.decompose_eq.symm.trans hparts)
    obtain ⟨hd, hs⟩ := Decomposition.mk.inj heq
    rw [TestVector.of, ← hd, ← hs]
  · rintro rfl
    exact ⟨rfl, Decomposition.Of.of_decompose hparts⟩

/-- What a verdict on `n` comes to: one of the two complaints, or the test vector. -/
def judged (category : Category) (n : Nat) (verdict : Verdict) : Except VectorError TestVector :=
  if n < 2 then .error (.undecomposable category n)
  else if verdict.probablePrime = category.expectsPrime then .ok (TestVector.of n)
  else .error (.mismatch category n)

theorem judged_eq_ok_iff {verdict : Verdict} {vector : TestVector} :
    judged category n verdict = .ok vector
      ↔ (verdict.probablePrime = category.expectsPrime ∧ 2 ≤ n) ∧ vector = TestVector.of n := by
  unfold judged
  split
  · next hn =>
    have hlow : ¬ 2 ≤ n := by omega
    simp [hlow]
  · next hn =>
    have htwo : 2 ≤ n := by omega
    split
    · next hkind => simp [hkind, htwo, eq_comm]
    · next hkind => simp [hkind]

theorem judged_eq_error_iff {verdict : Verdict} {cause : VectorError} :
    judged category n verdict = .error cause
      ↔ n < 2 ∧ cause = .undecomposable category n
        ∨ 2 ≤ n ∧ verdict.probablePrime ≠ category.expectsPrime ∧ cause = .mismatch category n := by
  unfold judged
  split
  · next hn =>
    have hlow : ¬ 2 ≤ n := by omega
    simp only [Except.error.injEq, hn, hlow, true_and, false_and, or_false, eq_comm]
  · next hn =>
    have htwo : 2 ≤ n := by omega
    split
    · next hkind => simp [hkind, hn]
    · next hkind =>
      simp only [Except.error.injEq, hn, hkind, htwo, ne_eq, not_false_eq_true, true_and, false_and,
        false_or, eq_comm]

/-- A classification ends where its check has ended, in what the verdict comes to. -/
theorem ends_classify_iff {answer : Except VectorError TestVector} :
    Ends (fun fuel => classify fuel rounds category n) before answer after
      ↔ (∃ cause, answer = .error (.prime cause)
          ∧ Ends (fun fuel => check fuel rounds n) before (.error cause) after)
        ∨ ∃ verdict, Ends (fun fuel => check fuel rounds n) before (.ok verdict) after
          ∧ judged category n verdict = answer := by
  -- Behind a check nothing is drawn, and the verdict carries the decomposition of the number.
  have hjudged {verdict : Verdict} {mid : Session σ}
      (h : Ends (fun fuel => check fuel rounds n) before (.ok verdict) mid) :
      Ends (fun fuel => classify fuel rounds category n) before (judged category n verdict) mid := by
    obtain ⟨least, hrun⟩ := id h
    refine (h.widen VectorError.prime).bind ?_
    rw [Primality.decomposition_of_check (hrun least le_rfl), Draw.ends_const_iff, judged]
    by_cases hn : n < 2
    · rw [decompose, if_pos hn, if_pos hn]
      rfl
    · rw [Primality.decompose_of_two_le (by omega), if_neg hn]
      dsimp only
      split
      · rfl
      · rfl
  constructor
  · intro h
    rcases Ends.of_bind ((steady_check rounds n).widen _) h with ⟨cause, rfl, hcheck⟩ |
      ⟨verdict, mid, hcheck, -⟩
    · obtain ⟨inner, rfl, hinner⟩ := (Draw.ends_widen_error_iff (steady_check rounds n)).1 hcheck
      exact Or.inl ⟨inner, rfl, hinner⟩
    · rw [Draw.ends_widen_ok_iff] at hcheck
      obtain ⟨rfl, rfl⟩ := (hjudged hcheck).unique h
      exact Or.inr ⟨verdict, hcheck, rfl⟩
  · rintro (⟨cause, rfl, hcheck⟩ | ⟨verdict, hcheck, rfl⟩)
    · exact (hcheck.widen VectorError.prime).bind_error _
    · exact hjudged hcheck

/-- Only its check can keep a classification from ending. -/
theorem endless_classify_iff :
    Endless (fun fuel => classify fuel rounds category n) before
      ↔ Endless (fun fuel => check fuel rounds n) before := by
  constructor
  · intro h
    rcases (steady_check rounds n).ends_or_endless before with ⟨answer, after, hcheck⟩ | hendless
    · exfalso
      cases answer with
      | ok verdict => exact (ends_classify_iff.2 (Or.inr ⟨verdict, hcheck, rfl⟩)).not_endless h
      | error cause => exact (ends_classify_iff.2 (Or.inl ⟨cause, rfl, hcheck⟩)).not_endless h
    · exact hendless
  · intro h
    exact (h.widen VectorError.prime).bind _

/-- **The classification of a number is one step.** -/
theorem follows_classify (rounds : Nat) (category : Category) (n : Nat) :
    Follows rounds (fun fuel => (classify fuel rounds category n : Draw σ VectorError TestVector))
      [.number category n] (TestVector.of n) where
  steady := ((steady_check rounds n).widen _).bind fun verdict => Draw.steady_const _
  ok := by
    intro before after vector
    simp only [ends_classify_iff, judged_eq_ok_iff, passes_number_iff, passes_nil_iff, Accepts]
    constructor
    · rintro (⟨cause, hcause, -⟩ | ⟨verdict, hcheck, hkind, hvector⟩)
      · cases hcause
      · exact ⟨⟨after, ⟨verdict, hcheck, hkind⟩, rfl⟩, hvector⟩
    · rintro ⟨⟨mid, ⟨verdict, hcheck, hkind⟩, rfl⟩, hvector⟩
      exact Or.inr ⟨verdict, hcheck, hkind, hvector⟩
  error := by
    intro before after cause
    simp only [ends_classify_iff, judged_eq_error_iff, leadsTo_number_iff, not_leadsTo_nil, and_false,
      exists_false, or_false, Except.error.injEq]
    constructor
    · rintro (⟨inner, rfl, hcheck⟩ | ⟨verdict, hcheck, ⟨hlow, rfl⟩ | ⟨htwo, hkind, rfl⟩⟩)
      · exact .check hcheck
      · exact .undecomposable hcheck hlow
      · exact .mismatch hcheck htwo hkind
    · intro h
      cases h with
      | check hcheck => exact Or.inl ⟨_, rfl, hcheck⟩
      | undecomposable hcheck hlow => exact Or.inr ⟨_, hcheck, Or.inl ⟨hlow, rfl⟩⟩
      | mismatch hcheck htwo hkind => exact Or.inr ⟨_, hcheck, Or.inr ⟨htwo, hkind, rfl⟩⟩
  endless := by
    intro before
    simp only [endless_classify_iff, leadsTo_number_iff, not_leadsTo_nil, and_false, exists_false,
      or_false]

/-! ## §5. All lists. -/

variable {inputs : Inputs}

/-- The classification of a list follows its steps. -/
theorem follows_classifyList (rounds : Nat) (inputs : Inputs) (category : Category) :
    Follows rounds (fun fuel => (classifyList fuel rounds inputs category : Draw σ VectorError _))
      (listSteps inputs category) ((inputs.get category).map TestVector.of) := by
  have hnumbers : Follows rounds (fun fuel => (inputs.get category).mapM (classify fuel rounds category :
      Nat → Draw σ VectorError TestVector)) _ _ :=
    Follows.mapM (follows_classify rounds category) (inputs.get category)
  have hrest (vectors : List TestVector) : Follows rounds (fun _ =>
      (do Draw.note (classified vectors.length category); return vectors :
        Draw σ VectorError (List TestVector)))
      ([.finished category vectors.length] ++ []) vectors :=
    (Follows.note vectors.length category).bind (fun _ => Draw.steady_const _) (.pure vectors)
  have hlist := hnumbers.bind (fun vectors => (hrest vectors).steady) (hrest _)
  rw [List.length_map, List.append_nil, ← List.map_eq_flatMap] at hlist
  exact hlist

/-- **The classification of all lists follows the row of all steps.** -/
theorem follows_ofInputs (rounds : Nat) (inputs : Inputs) :
    Follows rounds (fun fuel => (TestVectors.ofInputs fuel rounds inputs : Draw σ VectorError _))
      (allSteps inputs) (.ofFn fun category => (inputs.get category).map TestVector.of) := by
  exact Follows.build (follows_classifyList rounds inputs)

/-- Where no number is below two, the vectors that decompose the numbers are their test vectors. -/
theorem forall₂_decomposes_iff {numbers : List Nat} (hnumbers : ∀ n ∈ numbers, 2 ≤ n)
    {vectors : List TestVector} :
    List.Forall₂ TestVector.Decomposes numbers vectors ↔ vectors = numbers.map TestVector.of := by
  induction numbers generalizing vectors with
  | nil => rw [List.forall₂_nil_left_iff, List.map_nil]
  | cons n numbers ih =>
    have hn : 2 ≤ n := hnumbers n List.mem_cons_self
    have hrest := @ih fun n hn => hnumbers n (List.mem_cons_of_mem _ hn)
    simp only [List.forall₂_cons_left_iff, TestVector.decomposes_iff hn, hrest, List.map_cons]
    constructor
    · rintro ⟨_, _, rfl, rfl, rfl⟩
      rfl
    · rintro rfl
      exact ⟨_, _, rfl, rfl, rfl⟩

/-- What belongs to the categories are the values of a function if each of them is. -/
theorem PerCategory.eq_ofFn_iff {xs : PerCategory α} {f : Category → α} :
    xs = .ofFn f ↔ ∀ category, xs.get category = f category := by
  constructor
  · rintro rfl category
    exact PerCategory.get_ofFn f category
  · intro h
    obtain ⟨a, b, c, d⟩ := xs
    obtain rfl := h .smallPrimes
    obtain rfl := h .largePrimes
    obtain rfl := h .smallComposites
    obtain rfl := h .largeComposites
    rfl

/-- A row of all lists that is passed has no number below two. -/
theorem two_le_of_passes (h : Passes rounds before (allSteps inputs) after) (category : Category) :
    ∀ n ∈ inputs.get category, 2 ≤ n := by
  intro n hn
  obtain ⟨mid, mid', verdict, hcheck, hkind, htwo⟩ := h.exists_accepts (mem_allSteps.2 hn)
  exact htwo

/-- No check of a prime ends with the verdict that it has failed. -/
theorem probablePrime_of_ends {verdict : Verdict} (hn : n.Prime)
    (h : Ends (fun fuel => check fuel rounds n) before (.ok verdict) after) :
    verdict.probablePrime = true := by
  obtain ⟨least, hrun⟩ := h
  exact Primality.probablePrime_of_prime hn (hrun least le_rfl)

/-- **All lists, in order.**  The classification of lists has a value when each number in turn, list
after list, is accepted by its check, and then the vectors of a category are the decompositions of its
numbers, in their order.  It has an error when the steps lead to a number with something to complain
about, which is the error, and the session is the one in which the check of that number has ended.  It
has no end when they lead to a check without one.  One of these it does.  No prime is complained about
in a list of primes, and none is accepted in a list of composites. -/
theorem ofInputs_in_order (inputs : Inputs) (rounds : Nat) (session : Session σ) :
    (∀ vectors after,
      Ends (fun fuel => TestVectors.ofInputs fuel rounds inputs) session (.ok vectors) after
        ↔ Passes rounds session (allSteps inputs) after
          ∧ ∀ category, List.Forall₂ TestVector.Decomposes (inputs.get category)
              (vectors.get category))
    ∧ (∀ cause after,
      Ends (fun fuel => TestVectors.ofInputs fuel rounds inputs) session (.error cause) after
        ↔ LeadsTo rounds session (allSteps inputs) fun mid category n =>
            Offends rounds category n mid cause after)
    ∧ (Endless (fun fuel => TestVectors.ofInputs fuel rounds inputs) session
        ↔ LeadsTo rounds session (allSteps inputs) fun mid _ n =>
            Endless (fun fuel => check fuel rounds n) mid)
    ∧ ((∃ answer after,
          Ends (fun fuel => TestVectors.ofInputs fuel rounds inputs) session answer after)
        ∨ Endless (fun fuel => TestVectors.ofInputs fuel rounds inputs) session)
    ∧ ∀ category n, n.Prime →
      (category.expectsPrime = true → ∀ cause after,
        Ends (fun fuel => TestVectors.ofInputs fuel rounds inputs) session (.error cause) after →
          cause ≠ .mismatch category n ∧ cause ≠ .undecomposable category n)
      ∧ (category.expectsPrime = false → n ∈ inputs.get category → ∀ vectors after,
          ¬ Ends (fun fuel => TestVectors.ofInputs fuel rounds inputs) session (.ok vectors)
              after) := by
  have hfollows : Follows rounds (fun fuel => (TestVectors.ofInputs fuel rounds inputs :
      Draw σ VectorError TestVectors)) _ _ := follows_ofInputs rounds inputs
  refine ⟨?_, fun cause after => hfollows.error, hfollows.endless,
    hfollows.steady.ends_or_endless session, ?_⟩
  · intro vectors after
    rw [hfollows.ok, PerCategory.eq_ofFn_iff]
    refine and_congr_right fun hpasses => forall_congr' fun category => ?_
    exact (forall₂_decomposes_iff (two_le_of_passes hpasses category)).symm
  · intro category n hprime
    constructor
    · intro hexpects cause after hends
      obtain ⟨front, category', n', back, mid, -, -, hoffends⟩ := hfollows.error.1 hends
      cases hoffends with
      | check hcheck => exact ⟨VectorError.noConfusion, VectorError.noConfusion⟩
      | undecomposable hcheck hlow =>
        refine ⟨VectorError.noConfusion, ?_⟩
        intro heq
        obtain ⟨-, rfl⟩ := VectorError.undecomposable.inj heq
        exact absurd hprime.two_le (by omega)
      | mismatch hcheck htwo hkind =>
        refine ⟨?_, VectorError.noConfusion⟩
        intro heq
        obtain ⟨rfl, rfl⟩ := VectorError.mismatch.inj heq
        exact hkind ((probablePrime_of_ends hprime hcheck).trans hexpects.symm)
    · intro hexpects hmem vectors after hends
      obtain ⟨hpasses, -⟩ := hfollows.ok.1 hends
      obtain ⟨mid, mid', verdict, hcheck, hkind, -⟩ :=
        hpasses.exists_accepts (mem_allSteps.2 hmem)
      rw [probablePrime_of_ends hprime hcheck, hexpects] at hkind
      cases hkind

/-- Two primes in lists of primes are accepted with the two bytes that make a witness for the second,
and with bytes of ones they are not, since its check has no end.  A prime in a list of composites is
named, and the number behind it is not looked at. -/
theorem ofInputs_in_order_1009 :
    Ends (fun fuel => TestVectors.ofInputs fuel 1 ⟨[2], [1009], [], []⟩)
        (Session.start (⟨[0, 0]⟩ : Tape)) (.ok ⟨[⟨2, 1, 0⟩], [⟨1009, 63, 4⟩], [], []⟩)
        ⟨⟨[]⟩, ⟨1, 2⟩, [classified 1 .smallPrimes, classified 1 .largePrimes,
          classified 0 .smallComposites, classified 0 .largeComposites]⟩
      ∧ Endless (fun fuel => TestVectors.ofInputs fuel 1 ⟨[2], [1009], [], []⟩)
          (Session.start (⟨⟩ : Ones))
      ∧ Nat.Prime 3 ∧ Ends (fun fuel => TestVectors.ofInputs fuel 1 ⟨[2], [], [3, 1009], []⟩)
          (Session.start (⟨[0, 0]⟩ : Tape)) (.error (.mismatch .smallComposites 3))
          ⟨⟨[0, 0]⟩, ⟨0, 0⟩, [classified 1 .smallPrimes, classified 0 .largePrimes]⟩ := by
  have hkind : decide (Nat.Prime 2) = Category.smallPrimes.expectsPrime := decide_eq_true Nat.prime_two
  have htwo {τ : Type} [Source τ] (session : Session τ) : Accepts 1 .smallPrimes 2 session session :=
    accepts_of_settled one_ne_zero (Or.inl (by decide)) le_rfl hkind session
  refine ⟨?_, ?_, Nat.prime_three, ?_⟩
  · refine ((ofInputs_in_order _ 1 _).1 _ _).2 ⟨?_, fun category => ?_⟩
    · have hlarge : Accepts 1 .largePrimes 1009
          (⟨⟨[0, 0]⟩, ⟨0, 0⟩, [classified 1 .smallPrimes]⟩ : Session Tape)
          ⟨⟨[]⟩, ⟨1, 2⟩, [classified 1 .smallPrimes]⟩ :=
        ⟨_, (steady_check 1 1009).ends (Primality.runIn_check_1009 0 _ _ _), rfl, by decide⟩
      exact .number (htwo _) (.finished (.number hlarge
        (.finished (.finished (.finished (.done _))))))
    · cases category with
      | smallPrimes => exact .cons ⟨rfl, by decide, by decide⟩ .nil
      | largePrimes => exact .cons ⟨rfl, by decide, by decide⟩ .nil
      | smallComposites => exact .nil
      | largeComposites => exact .nil
  · exact (ofInputs_in_order _ 1 _).2.2.1.2 ⟨[.number .smallPrimes 2, .finished .smallPrimes 1],
      .largePrimes, 1009, _, _, rfl, .number (htwo _) (.finished (.done _)),
      Primality.endless_check_of_ones one_ne_zero Primality.not_settled_1009 _⟩
  · -- The verdict on three is right, and not what the list says.
    have hthree (session : Session Tape) :=
      Primality.ends_check_of_settled one_ne_zero (Or.inl (by decide) : Settled 3) session
    refine ((ofInputs_in_order _ 1 _).2.1 _ _).2
      ⟨[.number .smallPrimes 2, .finished .smallPrimes 1, .finished .largePrimes 0],
        .smallComposites, 3, _, _, rfl, .number (htwo _) (.finished (.finished (.done _))),
        .mismatch (hthree _) (by decide) ?_⟩
    rw [decide_eq_true Nat.prime_three]
    exact Bool.noConfusion

end ProbablePrime.Vectors
