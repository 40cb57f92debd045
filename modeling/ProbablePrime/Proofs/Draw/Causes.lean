/-
  ProbablePrime.Proofs.Draw.Causes — which errors a draw can end with.

  A draw that stops with an error was refused a request, or it reports an error of its own.  `FailsBy`
  says which errors those are.  It is kept by sequences, so the errors of an operation are those of its
  steps, and they are read off the operation from front to back.

  The bound below which a witness is drawn is never empty: a number meets the rounds only where trial
  division does not decide about it, and then it is larger than three.  So no operation reports an
  empty range, unless that is what it was asked for.

  Main results:
    * `FailsBy.bind`, `FailsBy.mapM` and `FailsBy.build` — sequences, lists and categories;
    * `failsBy_check` and `failsBy_probablePrime` — the check and the search;
    * `Command.proper_runTask` — all that a run can do;
    * `errors_exact` — all operations, on a source that can only lack entropy.
-/
import ProbablePrime.Command.Run
import ProbablePrime.Proofs.Generator.Search
import ProbablePrime.Proofs.Primality.Guarded
import ProbablePrime.Proofs.Vectors.ListForm

namespace ProbablePrime

open Entropy (Source)
open Entropy.Source (Reaches Refuses)

variable {σ ε ε' α β : Type} [Source σ]

/-! ## §1. Errors of a draw. -/

/-- The draw serves its requests one after another and stops with the cause of a refusal, seen as
`seen` makes it, or with an error of its own. -/
structure Draw.FailsBy (seen : PrimeError → ε) (own : ε → Prop) (draw : Draw σ ε α) : Prop where
  /-- A value is reached by requests that were all served. -/
  reaches : ∀ {session session' : Session σ} {a : α},
    draw.runIn session = (.ok a, session') → Reaches session.source session'.source
  /-- An error is the draw's own, or it is that of a refusal. -/
  error : ∀ {session session' : Session σ} {cause : ε},
    draw.runIn session = (.error (.error cause), session') →
      own cause ∨ ∃ refusal, cause = seen refusal ∧ Refuses session.source refusal session'.source

namespace Draw.FailsBy

variable {seen : PrimeError → ε} {own own' : ε → Prop} {draw : Draw σ ε α}

/-- A faithful draw has no error of its own. -/
theorem of_faithful {draw : Draw σ PrimeError α} (h : Faithful draw) (own : PrimeError → Prop) :
    FailsBy id own draw where
  reaches := h.reaches_of_ok
  error hrun := Or.inr ⟨_, rfl, h.refuses_of_error hrun⟩

theorem mono (h : FailsBy seen own draw) (hown : ∀ cause, own cause → own' cause) :
    FailsBy seen own' draw where
  reaches := h.reaches
  error hrun := (h.error hrun).imp_left (hown _)

theorem pure (a : α) : FailsBy seen own (Pure.pure a : Draw σ ε α) where
  reaches hrun := by
    rw [runIn_pure_eq_ok] at hrun
    rw [← hrun.2]
    exact Reaches.refl _
  error hrun := by simp at hrun

theorem note (event : Log.Event) : FailsBy seen own (Draw.note event : Draw σ ε Unit) where
  reaches hrun := by
    obtain ⟨-, rfl⟩ := Prod.mk.inj hrun
    exact Reaches.refl _
  error hrun := by simp at hrun

theorem fail {cause : ε} (hown : own cause) : FailsBy seen own (Draw.fail cause : Draw σ ε α) where
  reaches hrun := by simp at hrun
  error hrun := by
    obtain ⟨hcause, -⟩ := Prod.mk.inj hrun
    obtain rfl := Stop.error.inj (Except.error.inj hcause)
    exact Or.inl hown

theorem outOfFuel : FailsBy seen own (Draw.outOfFuel : Draw σ ε α) where
  reaches hrun := by simp at hrun
  error hrun := by simp at hrun

/-- A computation that draws nothing has its own errors only. -/
theorem ofExcept {value : Except ε α} (hown : ∀ cause, value = .error cause → own cause) :
    FailsBy seen own (Draw.ofExcept value : Draw σ ε α) := by
  cases value with
  | ok a => exact .pure a
  | error cause => exact .fail (hown cause rfl)

/-- **A sequence fails by the errors of its parts.** -/
theorem bind {next : α → Draw σ ε β} (hdraw : FailsBy seen own draw)
    (hnext : ∀ a, FailsBy seen own (next a)) : FailsBy seen own (draw >>= next) where
  reaches hrun := by
    obtain ⟨a, mid, hfirst, hsecond⟩ := runIn_bind_eq_ok.1 hrun
    exact (hdraw.reaches hfirst).trans ((hnext a).reaches hsecond)
  error hrun := by
    rcases runIn_bind_eq_error.1 hrun with hfirst | ⟨a, mid, hfirst, hsecond⟩
    · exact hdraw.error hfirst
    · rcases (hnext a).error hsecond with hown | ⟨refusal, hcause, hrefuse⟩
      · exact Or.inl hown
      · exact Or.inr ⟨refusal, hcause, (hdraw.reaches hfirst).refuses hrefuse⟩

/-- Errors that are seen as others are own errors, or refusals, as before. -/
theorem widen {own : ε → Prop} {own' : ε' → Prop} (h : FailsBy seen own draw) (f : ε → ε')
    (hown : ∀ cause, own cause → own' (f cause)) :
    FailsBy (fun refusal => f (seen refusal)) own' (draw.widen f) where
  reaches hrun := h.reaches (runIn_widen_eq_ok.1 hrun)
  error hrun := by
    obtain ⟨inner, rfl, hinner⟩ := runIn_widen_eq_error.1 hrun
    rcases h.error hinner with hcause | ⟨refusal, rfl, hrefuse⟩
    · exact Or.inl (hown inner hcause)
    · exact Or.inr ⟨refusal, rfl, hrefuse⟩

/-- Draws for the elements of a list, one after the other. -/
theorem mapM {f : α → Draw σ ε β} (h : ∀ a, FailsBy seen own (f a)) (as : List α) :
    FailsBy seen own (as.mapM f) := by
  induction as with
  | nil => exact .pure []
  | cons a as ih =>
    rw [List.mapM_cons]
    exact (h a).bind fun b => ih.bind fun bs => .pure (b :: bs)

/-- Draws for the categories, one after the other. -/
theorem build {f : Vectors.Category → Draw σ ε α} (h : ∀ category, FailsBy seen own (f category)) :
    FailsBy seen own (Vectors.PerCategory.build f) := by
  unfold Vectors.PerCategory.build
  refine (h .smallPrimes).bind fun smallPrimes => ?_
  refine (h .largePrimes).bind fun largePrimes => ?_
  refine (h .smallComposites).bind fun smallComposites => ?_
  exact (h .largeComposites).bind fun largeComposites => .pure _

end Draw.FailsBy

open Draw (FailsBy)

/-! ## §2. The check. -/

/-- An integer needs one bit at least. -/
theorem failsBy_randomInteger (bits : Nat) :
    FailsBy id (fun cause => bits = 0 ∧ cause = .invalidBitSize bits 1)
      (randomInteger bits : Draw σ PrimeError Nat) := by
  by_cases hbits : bits = 0
  · rw [randomInteger, if_pos hbits]
    exact .fail ⟨hbits, rfl⟩
  · exact .of_faithful (faithful_randomInteger hbits) _

/-- **A check of its own accord refuses no rounds, and nothing else.** -/
theorem failsBy_check (fuel rounds n : Nat) :
    FailsBy id (fun cause => rounds = 0 ∧ cause = .zeroRounds)
      (Primality.check fuel rounds n : Draw σ PrimeError Primality.Verdict) := by
  by_cases hrounds : rounds = 0
  · rw [Primality.check, if_pos hrounds]
    exact .fail ⟨hrounds, rfl⟩
  · exact .of_faithful (Primality.faithful_check hrounds n fuel) _

/-! ## §3. The search. -/

/-- The errors that a search reports of its own accord. -/
inductive SearchFault (config : Config) (bits : Nat) : PrimeError → Prop
  /-- There is no prime of so few bits. -/
  | tooShort : bits < leastPrimeBits → SearchFault config bits (.invalidBitSize bits leastPrimeBits)
  /-- The first candidate could not be checked. -/
  | noRounds : leastPrimeBits ≤ bits → config.rounds = 0 → SearchFault config bits .zeroRounds
  /-- As many candidates were examined as the cap allows. -/
  | exhausted {cap : Nat} : leastPrimeBits ≤ bits → config.maxAttempts = some cap →
      SearchFault config bits (.attemptsExhausted bits cap)

theorem failsBy_searchFrom {config : Config} {bits : Nat} (hbits : leastPrimeBits ≤ bits)
    (fuel turns : Nat) {attempts : Nat}
    (hcap : ∀ cap, config.maxAttempts = some cap → attempts ≤ cap) :
    FailsBy id (SearchFault config bits)
      (searchFrom config fuel bits turns attempts : Draw σ PrimeError Nat) := by
  -- A turn fails at its cap, with its candidate or with its check; otherwise there is one turn less.
  induction turns generalizing attempts with
  | zero => exact .outOfFuel
  | succ turns ih =>
    have hcandidate : FailsBy id (SearchFault config bits)
        (randomCandidate bits : Draw σ PrimeError Nat) :=
      .of_faithful (faithful_randomCandidate (ne_zero_of_leastPrimeBits_le hbits)) _
    unfold searchFrom
    split
    · next hopen =>
      obtain ⟨cap, hmax, hle⟩ := exhausted_eq_true_iff.1 hopen
      obtain rfl : attempts = cap := Nat.le_antisymm (hcap cap hmax) hle
      exact (FailsBy.note _).bind fun _ => .fail (.exhausted hbits hmax)
    · next hopen =>
      have hmore : ∀ cap, config.maxAttempts = some cap → attempts + 1 ≤ cap := by
        intro cap hmax
        by_contra hgt
        exact hopen (exhausted_eq_true_iff.2 ⟨cap, hmax, by omega⟩)
      refine hcandidate.bind fun candidate => ?_
      refine ((failsBy_check fuel config.rounds candidate).mono ?_).bind fun verdict => ?_
      · rintro cause ⟨hrounds, rfl⟩
        exact .noRounds hbits hrounds
      · split
        · exact (FailsBy.note _).bind fun _ => .pure candidate
        · exact ih hmore

/-- **The errors of a search for a prime.** -/
theorem failsBy_probablePrime (config : Config) (fuel bits : Nat) :
    FailsBy id (SearchFault config bits)
      (probablePrime config fuel bits : Draw σ PrimeError Nat) := by
  unfold probablePrime
  split
  · next hbits => exact .fail (.tooShort hbits)
  · next hbits =>
    exact failsBy_searchFrom (Nat.le_of_not_lt hbits) fuel fuel fun cap _ => Nat.zero_le cap

/-! ## §4. What is made of them. -/

/-- An error that has nothing to do with an empty range. -/
def Proper (cause : PrimeError) : Prop := cause ≠ .emptyRange

theorem SearchFault.proper {config : Config} {bits : Nat} {cause : PrimeError}
    (h : SearchFault config bits cause) : Proper cause := by
  cases h <;> exact PrimeError.noConfusion

/-- A search has proper errors only. -/
theorem proper_probablePrime (config : Config) (fuel bits : Nat) :
    FailsBy id Proper (probablePrime config fuel bits : Draw σ PrimeError Nat) :=
  (failsBy_probablePrime config fuel bits).mono fun _ => SearchFault.proper

/-- An integer of a size has proper errors only. -/
theorem proper_randomInteger (bits : Nat) :
    FailsBy id Proper (randomInteger bits : Draw σ PrimeError Nat) := by
  refine (failsBy_randomInteger bits).mono ?_
  rintro cause ⟨-, rfl⟩
  exact PrimeError.noConfusion

/-- A check has proper errors only. -/
theorem proper_check (fuel rounds n : Nat) :
    FailsBy id Proper (Primality.check fuel rounds n : Draw σ PrimeError Primality.Verdict) := by
  refine (failsBy_check fuel rounds n).mono ?_
  rintro cause ⟨-, rfl⟩
  exact PrimeError.noConfusion

theorem proper_isProbablePrime (fuel rounds n : Nat) :
    FailsBy id Proper (Primality.isProbablePrime fuel rounds n : Draw σ PrimeError Bool) :=
  (proper_check fuel rounds n).bind fun _ => .pure _

namespace Sample

theorem proper_draw (config : Config) (fuel : Nat) :
    FailsBy id Proper (draw config fuel : Draw σ PrimeError Sample) := by
  unfold draw configuredPrime
  refine (proper_randomInteger config.bitSize).bind fun random => ?_
  refine (proper_probablePrime config fuel config.bitSize).bind fun p => ?_
  refine (proper_probablePrime config fuel config.bitSize).bind fun q => ?_
  exact (FailsBy.note _).bind fun _ => .pure _

theorem proper_verify (sample : Sample) (fuel rounds : Nat) :
    FailsBy id Proper (sample.verify fuel rounds : Draw σ PrimeError Unit) := by
  have hflaw (flaw : Flaw) :
      FailsBy id Proper (Draw.fail (.verification flaw) : Draw σ PrimeError Unit) :=
    .fail PrimeError.noConfusion
  have hsize (which : Drawn) :
      FailsBy id Proper (sample.verifySize which : Draw σ PrimeError Unit) := by
    unfold verifySize
    dsimp only
    split
    · exact .pure ()
    · exact hflaw _
  have hprime (which : Drawn) :
      FailsBy id Proper (sample.verifyPrime fuel rounds which : Draw σ PrimeError Unit) := by
    unfold verifyPrime
    refine (proper_check fuel rounds _).bind fun verdict => ?_
    split
    · exact .pure ()
    · exact hflaw _
  unfold verify
  refine (hsize .random).bind fun _ => (hsize .p).bind fun _ => (hsize .q).bind fun _ => ?_
  refine (hprime .p).bind fun _ => (hprime .q).bind fun _ => ?_
  split
  · exact .pure ()
  · exact hflaw _

end Sample

namespace Vectors

theorem proper_scanFrom (fuel rounds count turns n : Nat) (primes composites : List Nat) :
    FailsBy id Proper (scanFrom fuel rounds count turns n primes composites
      : Draw σ PrimeError (List Nat × List Nat)) := by
  induction turns generalizing n primes composites with
  | zero => exact .outOfFuel
  | succ turns ih =>
    unfold scanFrom
    split
    · refine (proper_isProbablePrime fuel rounds n).bind fun passed => ?_
      split
      · exact ih (n + 1) (fillUp count n primes) composites
      · exact ih (n + 1) primes (fillUp count n composites)
    · exact .pure _

theorem proper_drawLarge (config : Config) (fuel bits count : Nat) :
    FailsBy id Proper (drawLarge config fuel bits count
      : Draw σ PrimeError (List Nat × List Nat)) := by
  have hsemiprime : FailsBy id Proper (semiprime config fuel bits : Draw σ PrimeError Nat) := by
    unfold semiprime
    refine (proper_probablePrime config fuel (factorBits bits)).bind fun p => ?_
    exact (proper_probablePrime config fuel (factorBits bits)).bind fun q => .pure _
  induction count with
  | zero => exact .pure _
  | succ count ih =>
    unfold drawLarge
    refine (proper_probablePrime config fuel bits).bind fun prime => ?_
    exact hsemiprime.bind fun composite => ih.bind fun lists => .pure _

theorem proper_synthesize (config : Config) (fuel count bits : Nat) :
    FailsBy id Proper (synthesize config fuel count bits : Draw σ PrimeError Inputs) := by
  unfold synthesize scan
  refine (proper_scanFrom fuel config.rounds count fuel 2 [] []).bind fun small => ?_
  exact (proper_drawLarge config fuel bits count).bind fun large => .pure _

/-- An error around which there is no empty range. -/
def ProperVector (cause : VectorError) : Prop := cause ≠ .prime .emptyRange

theorem ProperVector.of_proper {cause : PrimeError} (h : Proper cause) :
    ProperVector (.prime cause) := by
  intro heq
  exact h (VectorError.prime.inj heq)

theorem proper_classify (fuel rounds : Nat) (category : Category) (n : Nat) :
    FailsBy .prime ProperVector (classify fuel rounds category n : Draw σ VectorError TestVector) := by
  unfold classify
  refine ((proper_check fuel rounds n).widen VectorError.prime fun _ => .of_proper).bind fun verdict => ?_
  split
  · exact .fail VectorError.noConfusion
  · split
    · exact .pure _
    · exact .fail VectorError.noConfusion

/-- **The errors of a classification.** -/
theorem proper_ofInputs (fuel rounds : Nat) (inputs : Inputs) :
    FailsBy .prime ProperVector (TestVectors.ofInputs fuel rounds inputs
      : Draw σ VectorError TestVectors) := by
  unfold TestVectors.ofInputs
  refine .build fun category => ?_
  unfold classifyList
  refine (FailsBy.mapM (proper_classify fuel rounds category) _).bind fun vectors => ?_
  exact (FailsBy.note _).bind fun _ => .pure vectors

/-- A text that is not taken as a list is at fault itself. -/
theorem properVector_of_parseList {json : String} {cause : VectorError}
    (h : parseList json = .error cause) : ProperVector cause := by
  unfold parseList at h
  cases hread : Numeral.reader.list.readAll json.toList with
  | error refusal =>
    rw [hread] at h
    obtain rfl := Except.error.inj h
    exact VectorError.noConfusion
  | ok numerals =>
    rw [hread] at h
    obtain ⟨front, text, back, -, -, -, rfl⟩ := mapM_value_eq_error_iff.1 h
    exact VectorError.noConfusion

/-- **The errors of loading a directory.** -/
theorem proper_load (readText : String → Except FileFault String) (directory : String) :
    FailsBy .prime ProperVector (load readText directory : Draw σ VectorError Inputs) := by
  unfold load
  refine .build fun category => ?_
  unfold loadList
  dsimp only
  refine (FailsBy.ofExcept ?_).bind fun json => ?_
  · intro cause h
    cases hread : readText (Files.join directory category.fileName) with
    | ok text =>
      rw [hread] at h
      cases h
    | error fault =>
      rw [hread] at h
      obtain rfl := Except.error.inj h
      exact VectorError.noConfusion
  · refine (FailsBy.ofExcept fun cause => properVector_of_parseList).bind fun numbers => ?_
    exact (FailsBy.note _).bind fun _ => .pure numbers

end Vectors

/-! ## §5. Runs. -/

namespace Command

open Vectors (ProperVector VectorError proper_load proper_ofInputs proper_synthesize)

/-- **The errors of all that a run draws.** -/
theorem proper_runTask (config : Config) (fuel : Nat)
    (readText : String → Except FileFault String) (task : Task) :
    FailsBy .prime ProperVector (runTask config fuel readText task : Draw σ VectorError Action) := by
  cases task with
  | sample verify =>
    unfold runTask runSample
    refine (FailsBy.note _).bind fun _ => ?_
    refine ((Sample.proper_draw config fuel).widen VectorError.prime fun _ => .of_proper).bind
      fun sample => ?_
    split
    · refine ((sample.proper_verify fuel config.rounds).widen VectorError.prime
        fun _ => .of_proper).bind fun _ => ?_
      exact (FailsBy.note _).bind fun _ => .pure _
    · exact .pure _
  | vectors source output =>
    have hinputs : FailsBy .prime ProperVector
        (inputsOf config fuel readText source : Draw σ VectorError Vectors.Inputs) := by
      cases source with
      | directory path => exact proper_load readText path
      | madeUp count =>
        exact (proper_synthesize config fuel count config.bitSize).widen VectorError.prime
          fun _ => .of_proper
    unfold runTask runVectors
    refine hinputs.bind fun inputs => ?_
    exact (proper_ofInputs fuel config.rounds inputs).bind fun vectors => .pure _

end Command

/-! ## §6. Sources that can only lack entropy. -/

/-- A source that refuses requests for no other reason than that it lacks entropy. -/
def Entropy.Source.OnlyLacksEntropy (start : σ) : Prop :=
  ∀ cause after, Refuses start cause after → ∃ reason, cause = .entropy reason

open Entropy.Source (OnlyLacksEntropy)

/-- A tape can only be exhausted. -/
theorem onlyLacksEntropy_tape (tape : Entropy.Tape) : OnlyLacksEntropy tape := by
  rintro cause after ⟨before, count, -, hfill⟩
  simp only [Source.fill, Entropy.Tape.fill] at hfill
  split at hfill
  · cases hfill
  · obtain ⟨hcause, -⟩ := Prod.mk.inj hfill
    exact ⟨_, (Except.error.inj hcause).symm⟩

/-- The draw ends in this session with this error. -/
def Draw.FailsWith (draw : Draw σ ε α) (session : Session σ) (cause : ε) : Prop :=
  ∃ after, draw.runIn session = (.error (.error cause), after)

/-- The error is that of the source, which lacked entropy for a request and was asked no more. -/
def Lacks (session : Session σ) (cause : PrimeError) (after : Session σ) : Prop :=
  (∃ reason, cause = .entropy reason) ∧ Refuses session.source cause after.source

open Draw (FailsWith)

section

variable {session after : Session σ} {draw : Draw σ PrimeError α} {own : PrimeError → Prop}
  {cause : PrimeError}

/-- On such a source, an error is the draw's own or that of the source. -/
theorem Draw.FailsBy.own_or_lacks (h : FailsBy id own draw)
    (hsource : OnlyLacksEntropy session.source)
    (hrun : draw.runIn session = (.error (.error cause), after)) :
    own cause ∨ Lacks session cause after := by
  rcases h.error hrun with hown | ⟨refusal, rfl, hrefuse⟩
  · exact Or.inl hown
  · exact Or.inr ⟨hsource _ _ hrefuse, hrefuse⟩

/-- A draw that refuses no empty range of its own accord does not report one. -/
theorem Draw.FailsBy.not_failsWith_of_proper (h : FailsBy id Proper draw)
    (hsource : OnlyLacksEntropy session.source) : ¬ FailsWith draw session .emptyRange := by
  rintro ⟨after, hrun⟩
  rcases h.own_or_lacks hsource hrun with hproper | ⟨⟨reason, hcause⟩, -⟩
  · exact hproper rfl
  · cases hcause

/-- The same for an error around others. -/
theorem Draw.FailsBy.not_failsWith_of_properVector {draw : Draw σ Vectors.VectorError α}
    (h : FailsBy .prime Vectors.ProperVector draw) (hsource : OnlyLacksEntropy session.source) :
    ¬ FailsWith draw session (.prime .emptyRange) := by
  rintro ⟨after, hrun⟩
  rcases h.error hrun with hproper | ⟨refusal, hcause, hrefuse⟩
  · exact hproper rfl
  · obtain ⟨reason, rfl⟩ := hsource _ _ hrefuse
    cases hcause

/-- A check reports that it has no rounds exactly if it has none. -/
theorem failsWith_zeroRounds_iff (hsource : OnlyLacksEntropy session.source) (fuel rounds n : Nat) :
    FailsWith (Primality.check fuel rounds n) session .zeroRounds ↔ rounds = 0 := by
  constructor
  · rintro ⟨after, hrun⟩
    rcases (failsBy_check fuel rounds n).own_or_lacks hsource hrun with
      ⟨hrounds, -⟩ | ⟨⟨reason, hcause⟩, -⟩
    · exact hrounds
    · cases hcause
  · rintro rfl
    exact ⟨session, rfl⟩

/-- A search reports that its size is too small exactly if it is. -/
theorem failsWith_invalidBitSize_iff (hsource : OnlyLacksEntropy session.source) (config : Config)
    (fuel bits size least : Nat) :
    FailsWith (probablePrime config fuel bits) session (.invalidBitSize size least)
      ↔ bits < 2 ∧ size = bits ∧ least = 2 := by
  constructor
  · rintro ⟨after, hrun⟩
    rcases (failsBy_probablePrime config fuel bits).own_or_lacks hsource hrun with
      hfault | ⟨⟨reason, hcause⟩, -⟩
    · cases hfault with
      | tooShort hbits => exact ⟨hbits, rfl, rfl⟩
    · cases hcause
  · rintro ⟨hbits, rfl, rfl⟩
    refine ⟨session, ?_⟩
    rw [probablePrime, leastPrimeBits, if_pos hbits]
    rfl

/-- A draw below a bound reports an empty range exactly if the bound is zero. -/
theorem failsWith_emptyRange_iff (hsource : OnlyLacksEntropy session.source) (fuel bound : Nat) :
    FailsWith (randomBelow fuel bound) session .emptyRange ↔ bound = 0 := by
  constructor
  · rintro hfails
    by_contra hbound
    exact (FailsBy.of_faithful (faithful_randomBelow (Nat.pos_of_ne_zero hbound) fuel)
      Proper).not_failsWith_of_proper hsource hfails
  · rintro rfl
    exact ⟨session, rfl⟩

end

/-- **No operation of arithmetic is met where it is not defined, and no error is reported that is not
due.**  On a source that can only lack entropy, a check refuses zero rounds and nothing else; a search
refuses sizes below two bits, has no rounds or reaches its cap, and nothing else; and an empty range is
an error of draws below zero alone, whatever else is drawn, checked, read or made of it. -/
theorem errors_exact (session : Session σ) (hsource : OnlyLacksEntropy session.source) :
    (∀ fuel rounds n, (Primality.Guarded.check fuel rounds n
        : Draw σ Primality.Guarded.Fault Primality.Verdict)
      = (Primality.check fuel rounds n).widen .prime)
    ∧ (∀ fuel rounds n, FailsWith (Primality.check fuel rounds n) session .zeroRounds ↔ rounds = 0)
    ∧ (∀ fuel rounds n cause after,
        (Primality.check fuel rounds n).runIn session = (.error (.error cause), after) →
          cause = .zeroRounds ∨ Lacks session cause after)
    ∧ (∀ config fuel bits size least,
        FailsWith (probablePrime config fuel bits) session (.invalidBitSize size least)
          ↔ bits < 2 ∧ size = bits ∧ least = 2)
    ∧ (∀ config fuel bits cause after,
        (probablePrime config fuel bits).runIn session = (.error (.error cause), after) →
          SearchFault config bits cause ∨ Lacks session cause after)
    ∧ (∀ fuel bound, FailsWith (randomBelow fuel bound) session .emptyRange ↔ bound = 0)
    ∧ ¬ FailsWith randomWord session .emptyRange
    ∧ (∀ bits, ¬ FailsWith (randomBits bits) session .emptyRange)
    ∧ (∀ bits, ¬ FailsWith (randomInteger bits) session .emptyRange)
    ∧ (∀ fuel rounds n, ¬ FailsWith (Primality.check fuel rounds n) session .emptyRange)
    ∧ (∀ fuel rounds n, ¬ FailsWith (Primality.isProbablePrime fuel rounds n) session .emptyRange)
    ∧ (∀ config fuel bits, ¬ FailsWith (probablePrime config fuel bits) session .emptyRange)
    ∧ (∀ config fuel, ¬ FailsWith (Sample.draw config fuel) session .emptyRange)
    ∧ (∀ sample fuel rounds, ¬ FailsWith (Sample.verify sample fuel rounds) session .emptyRange)
    ∧ (∀ config fuel count bits,
        ¬ FailsWith (Vectors.synthesize config fuel count bits) session .emptyRange)
    ∧ (∀ readText directory,
        ¬ FailsWith (Vectors.load readText directory) session (.prime .emptyRange))
    ∧ (∀ fuel rounds inputs,
        ¬ FailsWith (Vectors.TestVectors.ofInputs fuel rounds inputs) session (.prime .emptyRange))
    ∧ ∀ config fuel readText task,
        ¬ FailsWith (Command.runTask config fuel readText task) session (.prime .emptyRange) := by
  have hword : Draw.Faithful (randomWord : Draw σ PrimeError UInt64) :=
    (Draw.faithful_bytes 8).bind fun _ => Draw.faithful_pure _
  refine ⟨Primality.Guarded.check_eq, failsWith_zeroRounds_iff hsource, ?_,
    failsWith_invalidBitSize_iff hsource, ?_, failsWith_emptyRange_iff hsource, ?_, ?_, ?_, ?_, ?_,
    ?_, ?_, ?_, ?_, ?_, ?_, ?_⟩
  · intro fuel rounds n cause after hrun
    exact ((failsBy_check fuel rounds n).own_or_lacks hsource hrun).imp_left And.right
  · intro config fuel bits cause after hrun
    exact (failsBy_probablePrime config fuel bits).own_or_lacks hsource hrun
  · exact (FailsBy.of_faithful hword Proper).not_failsWith_of_proper hsource
  · intro bits
    exact (FailsBy.of_faithful (faithful_randomBits bits) Proper).not_failsWith_of_proper hsource
  · intro bits
    exact (proper_randomInteger bits).not_failsWith_of_proper hsource
  · intro fuel rounds n
    exact (proper_check fuel rounds n).not_failsWith_of_proper hsource
  · intro fuel rounds n
    exact (proper_isProbablePrime fuel rounds n).not_failsWith_of_proper hsource
  · intro config fuel bits
    exact (proper_probablePrime config fuel bits).not_failsWith_of_proper hsource
  · intro config fuel
    exact (Sample.proper_draw config fuel).not_failsWith_of_proper hsource
  · intro sample fuel rounds
    exact (sample.proper_verify fuel rounds).not_failsWith_of_proper hsource
  · intro config fuel count bits
    exact (Vectors.proper_synthesize config fuel count bits).not_failsWith_of_proper hsource
  · intro readText directory
    exact (Vectors.proper_load readText directory).not_failsWith_of_properVector hsource
  · intro fuel rounds inputs
    exact (Vectors.proper_ofInputs fuel rounds inputs).not_failsWith_of_properVector hsource
  · intro config fuel readText task
    exact (Command.proper_runTask config fuel readText task).not_failsWith_of_properVector hsource

/-- On a tape of one byte, a search for a prime of one bit reports that there is none so short. -/
theorem errors_exact_one_byte :
    OnlyLacksEntropy (⟨[0x0f]⟩ : Entropy.Tape)
      ∧ (∀ fuel, FailsWith (probablePrime ⟨8, 40, some 1⟩ fuel 1)
          (Session.start (⟨[0x0f]⟩ : Entropy.Tape)) (.invalidBitSize 1 2)) := by
  have hsource := onlyLacksEntropy_tape ⟨[0x0f]⟩
  obtain ⟨-, -, -, hsize, -⟩ := errors_exact (Session.start (⟨[0x0f]⟩ : Entropy.Tape)) hsource
  exact ⟨hsource, fun fuel => (hsize _ fuel 1 1 2).2 ⟨by decide, rfl, rfl⟩⟩

end ProbablePrime
