/-
  ProbablePrime.Proofs.Command.Report — runs that print a sample.

  A seeded run draws its sample from the stream of the seed and prints it when nothing is left that
  can fail.  With the option `--verify` the same run goes on drawing from the same stream in between,
  and the only thing that can come of it is that one of the primes is found composite: sizes and
  product are right, the stream refuses nothing, and a check that made rounds once makes them again.

  Neither the drawing nor the verification has a bound of its own, so a run is followed to its end
  with as much fuel as it needs (`Options.Exits`), and one that has no end does not exit.  Nor does a
  run draw anything if it cannot read which events to show: it exits at once, with a code of its own.

  Main results:
    * `exitsFrom_of_ends` and `not_exitsFrom_of_endless` — exits are ends of the plan of a run;
    * `exits_zero_iff` — a run without verifying exits with code 0 where a sample is drawn;
    * `rechecks_of_task` — what verifying makes of a run;
    * `report_all_or_nothing` — lines with and without `--verify`;
    * `not_printed_of_unread_filter` — a run that could have printed a sample and does not.
-/
import ProbablePrime.Proofs.Command.Run
import ProbablePrime.Proofs.Draw.Past
import ProbablePrime.Proofs.Draw.Termination

namespace ProbablePrime.Command

open Entropy (Failing KeyStream Source)
open Entropy.Source (NeverRefuses)
open Draw (Ends Endless Steady)
open Vectors (VectorError)

/-! ## §1. Runs to their end. -/

section

variable {σ : Type} [Source σ] {options : Options} {source system : σ} {environment : Option String}
  {files files' files'' : Files} {outcome outcome' : Outcome}

/-- With the bytes of a source, and as much fuel as it needs, a run ends in `outcome` and leaves the
files `files'`. -/
def Options.ExitsFrom (options : Options) (source : σ) (environment : Option String) (files : Files)
    (outcome : Outcome) (files' : Files) : Prop :=
  ∃ least, ∀ fuel, least ≤ fuel →
    options.runFrom fuel source environment files = (outcome, files')
      ∧ ((options.filter environment).isSome →
        ((options.plan fuel files.readText).runIn (Session.start source)).1 ≠ .error .outOfFuel)

/-- With as much fuel as it needs, a run ends in `outcome` and leaves the files `files'`.  It draws from
the stream of its seed, if it has one, and otherwise from what the system provides. -/
def Options.Exits (options : Options) (system : σ) (environment : Option String) (files : Files)
    (outcome : Outcome) (files' : Files) : Prop :=
  match options.seed with
  | some seed =>
    options.ExitsFrom (KeyStream.ofSeed (UInt64.ofNat seed)) environment files outcome files'
  | none => options.ExitsFrom system environment files outcome files'

/-- A run with a seed exits as it does from its stream. -/
theorem exits_iff_of_seed {seed : Nat} (hseed : options.seed = some seed) :
    options.Exits system environment files outcome files'
      ↔ options.ExitsFrom (KeyStream.ofSeed (UInt64.ofNat seed)) environment files outcome files' := by
  rw [Options.Exits, hseed]

/-- How a run exits from every source is how it exits. -/
theorem exits_of_exitsFrom
    (h : ∀ {τ : Type} [Source τ] (source : τ),
      options.ExitsFrom source environment files outcome files') :
    options.Exits system environment files outcome files' := by
  unfold Options.Exits
  split
  · exact h _
  · exact h _

/-- A run exits from a source in one way at most. -/
theorem Options.ExitsFrom.unique (h : options.ExitsFrom source environment files outcome files')
    (h' : options.ExitsFrom source environment files outcome' files'') :
    outcome = outcome' ∧ files' = files'' := by
  obtain ⟨least, hrun⟩ := h
  obtain ⟨least', hrun'⟩ := h'
  exact Prod.mk.inj
    ((hrun _ (le_max_left least least')).1.symm.trans (hrun' _ (le_max_right least least')).1)

/-- A run exits in one way at most. -/
theorem Options.Exits.unique (h : options.Exits system environment files outcome files')
    (h' : options.Exits system environment files outcome' files'') :
    outcome = outcome' ∧ files' = files'' := by
  unfold Options.Exits at h h'
  cases hseed : options.seed with
  | some seed =>
    rw [hseed] at h h'
    exact h.unique h'
  | none =>
    rw [hseed] at h h'
    exact h.unique h'

/-- A run whose filter cannot be read breaks off at its beginning. -/
theorem exits_of_unread (system : σ) (files : Files)
    (hfilter : options.filter environment = none) :
    options.Exits system environment files .aborted files := by
  refine exits_of_exitsFrom fun source => ⟨0, fun fuel _ => ⟨?_, ?_⟩⟩
  · unfold Options.runFrom
    rw [hfilter]
  · rw [hfilter]
    exact fun hsome => absurd hsome Bool.false_ne_true

variable (hfilter : (options.filter environment).isSome)

include hfilter

/-- A run with nothing left to save exits as its plan ends. -/
theorem exitsFrom_of_ends {answer : Except VectorError Action} {session : Session σ}
    (h : Ends (fun fuel => options.plan fuel files.readText) (Session.start source) answer session) :
    (∀ cause, answer = .error cause →
        options.ExitsFrom source environment files (.stopped session.events (.error cause)) files)
      ∧ ∀ text, answer = .ok (.print text) →
        options.ExitsFrom source environment files ⟨0, text, none, session.events⟩ files := by
  obtain ⟨least, hplan⟩ := h
  obtain ⟨filter, hread⟩ := Option.isSome_iff_exists.1 hfilter
  have hended (fuel : Nat) (hle : least ≤ fuel) :
      ((options.plan fuel files.readText).runIn (Session.start source)).1 ≠ .error .outOfFuel := by
    rw [hplan fuel hle]
    exact Draw.mapError_ne_outOfFuel answer
  constructor
  · rintro cause rfl
    refine ⟨least, fun fuel hle => ⟨?_, fun _ => hended fuel hle⟩⟩
    unfold Options.runFrom
    rw [hread, hplan fuel hle]
    rfl
  · rintro text rfl
    refine ⟨least, fun fuel hle => ⟨?_, fun _ => hended fuel hle⟩⟩
    unfold Options.runFrom
    rw [hread, hplan fuel hle]
    rfl

/-- A run whose plan has no end does not exit. -/
theorem not_exitsFrom_of_endless
    (h : Endless (fun fuel => options.plan fuel files.readText) (Session.start source)) :
    ¬ options.ExitsFrom source environment files outcome files' := by
  rintro ⟨least, hrun⟩
  exact (hrun least le_rfl).2 hfilter (h least)

end

/-! ## §2. The plan of a seeded run. -/

/-- The stream of a seed, of which nothing was asked yet. -/
def seedStart (seed : Nat) : Session KeyStream :=
  Session.start (KeyStream.ofSeed (UInt64.ofNat seed))

/-- The session in which a seeded run begins to draw its sample. -/
def drawingStart (seed bits : Nat) : Session KeyStream :=
  ((seedStart seed).noted (seeded seed)).noted (generating bits)

/-- What a run does with a drawn sample. -/
def reporting {σ : Type} [Source σ] (config : Config) (fuel : Nat) (verify : Bool)
    (sample : Sample) : Draw σ VectorError Action :=
  if verify then do
    (sample.verify fuel config.rounds).widen .prime
    Draw.note verified
    return .print sample.report
  else
    return .print sample.report

/-- A run that prints a sample draws it and goes on with it. -/
theorem runSample_eq {σ : Type} [Source σ] (config : Config) (fuel : Nat) (verify : Bool) :
    (runSample config fuel verify : Draw σ VectorError Action)
      = Draw.note (generating config.bitSize) >>= fun _ =>
        (Sample.draw config fuel).widen .prime >>= reporting config fuel verify := by
  cases verify with
  | true => rfl
  | false => rfl

/-- The plan of a seeded run is to draw a sample, and to go on with it. -/
theorem runIn_plan_of_seed {options : Options} {seed : Nat} {verify : Bool}
    (hseed : options.seed = some seed) (htask : options.task = .sample verify) (fuel : Nat)
    (readText : String → Except FileFault String) :
    (options.plan fuel readText).runIn (seedStart seed)
      = ((Sample.draw options.config fuel).widen .prime
          >>= reporting options.config fuel verify).runIn
        (drawingStart seed options.config.bitSize) := by
  unfold Options.plan runTask
  rw [hseed, htask]
  dsimp only
  rw [runSample_eq]
  rfl

variable {options : Options} {seed : Nat} {verify : Bool} {σ : Type} [Source σ] {system : σ}
  {environment : Option String} {files files' : Files} {sample : Sample}
  {after : Session KeyStream}

theorem seedStart_behind (seed bits : Nat) :
    (seedStart seed).behind (drawingStart seed bits) = drawingStart seed bits :=
  Session.start_behind (drawingStart seed bits)

theorem oblivious_draw (config : Config) (fuel : Nat) :
    Draw.Oblivious (Sample.draw config fuel : Draw KeyStream PrimeError Sample) :=
  .of_composed (Sample.composed_draw config fuel)

/-- What is known of a draw from the start of its stream holds in a run from that stream. -/
theorem ends_drawing {config : Config} {answer : Except PrimeError Sample}
    (h : Ends (fun fuel => Sample.draw config fuel) (seedStart seed) answer after) :
    Ends (fun fuel => (Sample.draw config fuel).widen VectorError.prime)
      (drawingStart seed config.bitSize) (answer.mapError .prime)
      (after.behind (drawingStart seed config.bitSize)) := by
  have hbehind := h.behind (oblivious_draw config) (drawingStart seed config.bitSize)
  rw [seedStart_behind] at hbehind
  exact hbehind.widen _

section

variable (hseed : options.seed = some seed) (htask : options.task = .sample verify)

include hseed htask

/-- Where the drawing fails, the plan does, with the same error. -/
theorem ends_plan_of_error {cause : PrimeError}
    (h : Ends (fun fuel => Sample.draw options.config fuel) (seedStart seed) (.error cause) after) :
    Ends (fun fuel => options.plan fuel files.readText) (seedStart seed)
      (.error (.prime cause)) (after.behind (drawingStart seed options.config.bitSize)) := by
  obtain ⟨least, hrun⟩ := (ends_drawing h).bind_error fun fuel =>
    reporting options.config fuel verify
  refine ⟨least, fun fuel hle => ?_⟩
  rw [runIn_plan_of_seed hseed htask]
  exact hrun fuel hle

/-- Where the drawing has no end, the plan has none. -/
theorem endless_plan_of_endless
    (h : Endless (fun fuel => Sample.draw options.config fuel) (seedStart seed)) :
    Endless (fun fuel => options.plan fuel files.readText) (seedStart seed) := by
  have hbehind := h.behind (oblivious_draw options.config)
    (drawingStart seed options.config.bitSize)
  rw [seedStart_behind] at hbehind
  intro fuel
  rw [runIn_plan_of_seed hseed htask]
  exact ((hbehind.widen VectorError.prime).bind fun fuel =>
    reporting options.config fuel verify) fuel

variable (hdraw : Ends (fun fuel => Sample.draw options.config fuel) (seedStart seed) (.ok sample)
  after)

include hdraw

/-- Where a sample is drawn, the plan ends as what is done with the sample. -/
theorem ends_plan_of_ok {answer : Except VectorError Action} {last : Session KeyStream}
    (hreport : Ends (fun fuel => reporting options.config fuel verify sample)
      (after.behind (drawingStart seed options.config.bitSize)) answer last) :
    Ends (fun fuel => options.plan fuel files.readText) (seedStart seed) answer last := by
  have hsequence : Ends (fun fuel => (Sample.draw options.config fuel).widen VectorError.prime
      >>= reporting options.config fuel verify) (drawingStart seed options.config.bitSize) answer
      last := (ends_drawing hdraw).bind hreport
  obtain ⟨least, hrun⟩ := hsequence
  refine ⟨least, fun fuel hle => ?_⟩
  rw [runIn_plan_of_seed hseed htask]
  exact hrun fuel hle

/-- Where a sample is drawn and what is done with it has no end, the plan has none. -/
theorem endless_plan_of_ok
    (hreport : Endless (fun fuel => reporting options.config fuel verify sample)
      (after.behind (drawingStart seed options.config.bitSize))) :
    Endless (fun fuel => options.plan fuel files.readText) (seedStart seed) := by
  intro fuel
  rw [runIn_plan_of_seed hseed htask]
  exact Draw.Endless.bind_of_ends ((Sample.steady_draw options.config).widen _)
    (ends_drawing hdraw) hreport fuel

end

/-! ## §3. Reports of a drawn sample. -/

/-- A sample that is not verified is printed as it is. -/
theorem ends_reporting_plain (config : Config) (sample : Sample) (mid : Session KeyStream) :
    Ends (fun fuel => reporting config fuel false sample) mid (.ok (.print sample.report)) mid :=
  Ends.of_const rfl

/-- A stream serves all its requests. -/
theorem neverRefuses_keyStream (stream : KeyStream) : NeverRefuses stream :=
  NeverRefuses.of_fill (fun _ _ => ⟨_, rfl⟩) stream

/-- **What a verification makes of the report of a drawn sample**: nothing, or one of the primes is
found composite and is, or it has no end. -/
theorem reporting_verified_cases {config : Config} {start : Session KeyStream}
    (hdraw : Ends (fun fuel => Sample.draw config fuel) start (.ok sample) after)
    (mid : Session KeyStream) :
    (∃ last, Ends (fun fuel => reporting config fuel true sample) mid
        (.ok (.print sample.report)) last)
      ∨ (∃ which last, which ≠ .random
        ∧ Ends (fun fuel => reporting config fuel true sample) mid
          (.error (.prime (.verification (.composite which)))) last
        ∧ ¬ (sample.get which).Prime)
      ∨ (Endless (fun fuel => reporting config fuel true sample) mid
        ∧ sample.Stuck config.rounds mid) := by
  obtain ⟨least, hrun⟩ := hdraw
  obtain ⟨-, hsound⟩ := Sample.sound_of_draw (hrun least le_rfl)
  have hrounds : config.rounds ≠ 0 := Sample.rounds_ne_zero_of_draw (hrun least le_rfl)
  have hreporting :
      (fun fuel => (reporting config fuel true sample : Draw KeyStream VectorError Action))
        = fun fuel => (sample.verify fuel config.rounds).widen VectorError.prime >>= fun _ =>
        Draw.note verified >>= fun _ => pure (Action.print sample.report) := rfl
  rw [hreporting]
  -- The session in which the sample was drawn and the one in which it is verified need not meet: all
  -- that is known of the sample is that it is sound.
  rcases hsound.verify_cases hrounds (neverRefuses_keyStream mid.source) with
    ⟨last, hends⟩ | ⟨which, last, hwhich, hends, hcomposite⟩ | hstuck
  · refine Or.inl ⟨last.noted verified, (hends.widen VectorError.prime).bind ?_⟩
    exact Ends.of_const rfl
  · exact Or.inr (Or.inl ⟨which, last, hwhich,
      (hends.widen VectorError.prime).bind_error _, hcomposite⟩)
  · exact Or.inr (Or.inr ⟨(hstuck.1.widen VectorError.prime).bind _, hstuck⟩)

/-! ## §4. How seeded runs exit. -/

/-- A sample is drawn with the settings from the stream of a seed, which is then at `after`. -/
def DrawsSample (config : Config) (seed : Nat) (sample : Sample) (after : Session KeyStream) : Prop :=
  Ends (fun fuel => Sample.draw config fuel) (seedStart seed) (.ok sample) after

section

variable (system files)
variable (hfilter : (options.filter environment).isSome) (hseed : options.seed = some seed)

include hfilter hseed

/-- Where the drawing fails, the run exits with its error, verifying or not. -/
theorem exits_of_failed (htask : options.task = .sample verify) {cause : PrimeError}
    (h : Ends (fun fuel => Sample.draw options.config fuel) (seedStart seed) (.error cause) after) :
    ∃ events, options.Exits system environment files ⟨1, "", some cause.message, events⟩ files :=
  ⟨_, (exits_iff_of_seed hseed).2
    ((exitsFrom_of_ends hfilter (ends_plan_of_error hseed htask h)).1 _ rfl)⟩

/-- Where the drawing has no end, the run does not exit, verifying or not. -/
theorem not_exits_of_endless_draw (htask : options.task = .sample verify)
    (h : Endless (fun fuel => Sample.draw options.config fuel) (seedStart seed)) {outcome : Outcome} :
    ¬ options.Exits system environment files outcome files' :=
  fun hexits => not_exitsFrom_of_endless hfilter (endless_plan_of_endless hseed htask h)
    ((exits_iff_of_seed hseed).1 hexits)

/-- Where a sample is drawn, a run without verifying prints it. -/
theorem exits_of_drawn (htask : options.task = .sample false)
    (h : DrawsSample options.config seed sample after) :
    ∃ events,
      options.Exits system environment files ⟨0, sample.text ++ "\n", none, events⟩ files := by
  have hplan : Ends (fun fuel => options.plan fuel files.readText) (seedStart seed)
      (.ok (.print sample.report)) (after.behind (drawingStart seed options.config.bitSize)) :=
    ends_plan_of_ok hseed htask h (ends_reporting_plain options.config sample _)
  rw [Sample.report_eq] at hplan
  exact ⟨_, (exits_iff_of_seed hseed).2 ((exitsFrom_of_ends hfilter hplan).2 _ rfl)⟩

/-- Where a sample is drawn, a run with verifying prints it too, or one of the primes is found
composite and is, or it is stuck. -/
theorem exits_of_drawn_verified (htask : options.task = .sample true)
    (h : DrawsSample options.config seed sample after) :
    (∃ events,
        options.Exits system environment files ⟨0, sample.text ++ "\n", none, events⟩ files)
      ∨ (∃ which events, which ≠ .random ∧ ¬ (sample.get which).Prime
        ∧ options.Exits system environment files
          ⟨1, "", some (PrimeError.verification (.composite which)).message, events⟩ files)
      ∨ (∀ outcome files', ¬ options.Exits system environment files outcome files')
        ∧ ∃ mid, mid.source = after.source ∧ sample.Stuck options.config.rounds mid := by
  rcases reporting_verified_cases h (after.behind (drawingStart seed options.config.bitSize)) with
    ⟨last, hends⟩ | ⟨which, last, hwhich, hends, hcomposite⟩ | ⟨hendless, hstuck⟩
  · refine Or.inl ⟨last.events, ?_⟩
    rw [← Sample.report_eq]
    exact (exits_iff_of_seed hseed).2
      ((exitsFrom_of_ends hfilter (ends_plan_of_ok hseed htask h hends)).2 _ rfl)
  · exact Or.inr (Or.inl ⟨which, last.events, hwhich, hcomposite,
      (exits_iff_of_seed hseed).2
        ((exitsFrom_of_ends hfilter (ends_plan_of_ok hseed htask h hends)).1 _ rfl)⟩)
  · exact Or.inr (Or.inr ⟨fun outcome files' hexits =>
      not_exitsFrom_of_endless hfilter (endless_plan_of_ok hseed htask h hendless)
        ((exits_iff_of_seed hseed).1 hexits),
      after.behind (drawingStart seed options.config.bitSize), rfl, hstuck⟩)

/-- **A run without verifying exits with code 0 exactly where a sample is drawn.** -/
theorem exits_zero_iff (htask : options.task = .sample false) :
    (∃ outcome, options.Exits system environment files outcome files ∧ outcome.code = 0)
      ↔ ∃ sample after, DrawsSample options.config seed sample after := by
  constructor
  · rintro ⟨outcome, hexits, hcode⟩
    rcases (Sample.steady_draw options.config).ends_or_endless (seedStart seed) with
      ⟨answer, after, hends⟩ | hendless
    · cases answer with
      | ok sample => exact ⟨sample, after, hends⟩
      | error cause =>
        obtain ⟨events, hfailed⟩ := exits_of_failed system files hfilter hseed htask hends
        rw [(hexits.unique hfailed).1] at hcode
        cases hcode
    · exact absurd hexits (not_exits_of_endless_draw system files hfilter hseed htask hendless)
  · rintro ⟨sample, after, hdraw⟩
    obtain ⟨events, hexits⟩ := exits_of_drawn system files hfilter hseed htask hdraw
    exact ⟨_, hexits, rfl⟩

end

/-! ## §5. Samples of two bits. -/

/-- A number of two bits that is made odd is three. -/
theorem integerOf_two_or_one {buffer : List UInt8} (hlength : buffer.length = bufferSize 2) :
    integerOf 2 buffer ||| 1 = 3 := by
  have hsize : Number.bitLength (integerOf 2 buffer) = 2 := bitLength_integerOf two_ne_zero hlength
  have hlt : integerOf 2 buffer < 2 ^ 2 := Number.bitLength_le_iff.1 hsize.le
  have hge : ¬ integerOf 2 buffer < 2 ^ 1 := by
    rw [← Number.bitLength_le_iff, hsize]
    decide
  obtain h | h : integerOf 2 buffer = 2 ∨ integerOf 2 buffer = 3 := by omega
  · rw [h]
    rfl
  · rw [h]
    rfl

/-- A search for a prime of two bits finds the number three at once. -/
theorem runIn_probablePrime_two {config : Config} (hrounds : config.rounds ≠ 0)
    (hopen : config.exhausted 0 = false) (fuel : Nat) (session : Session KeyStream) : ∃ session',
      (probablePrime config (fuel + 1) 2).runIn session = (.ok 3, session') := by
  obtain ⟨buffer, hfill⟩ : ∃ buffer, (Source.fill (bufferSize 2) session.source).1 = .ok buffer :=
    ⟨_, rfl⟩
  refine ⟨(session.asked (bufferSize 2)).noted (found 2 1), ?_⟩
  rw [probablePrime, if_neg (by decide),
    runIn_searchFrom_of_small two_ne_zero hrounds hopen hfill
      (integerOf_two_or_one (Source.length_of_fill hfill)) (by decide), if_pos Nat.prime_three]

/-- **Every seed draws a sample of two bits.** -/
theorem exists_drawsSample_two_bits {rounds : Nat} (hrounds : rounds ≠ 0) (seed : Nat) :
    ∃ random after, DrawsSample ⟨2, rounds, none⟩ seed ⟨2, random, 3, 3, 9⟩ after := by
  obtain ⟨random, s₁, hrandom⟩ : ∃ random s₁,
      (randomInteger 2).runIn (seedStart seed) = (.ok random, s₁) := ⟨_, _, rfl⟩
  have hprime (session : Session KeyStream) : ∃ session',
      (configuredPrime ⟨2, rounds, none⟩ 1).runIn session = (.ok 3, session') :=
    runIn_probablePrime_two hrounds rfl 0 session
  obtain ⟨s₂, hp⟩ := hprime s₁
  obtain ⟨s₃, hq⟩ := hprime s₂
  have hdraw : (Sample.draw ⟨2, rounds, none⟩ 1).runIn (seedStart seed)
      = ((.ok ⟨2, random, 3, 3, 9⟩ : Except PrimeError Sample).mapError Stop.error,
        s₃.noted (Sample.drew 2 4)) := by
    rw [Sample.draw, Draw.runIn_bind_of_ok hrandom, Draw.runIn_bind_of_ok hp,
      Draw.runIn_bind_of_ok hq]
    rfl
  exact ⟨random, _, (Sample.steady_draw ⟨2, rounds, none⟩).ends hdraw⟩

/-! ## §6. Lines with and without verifying. -/

/-- The run that verifies exits as the other does, or it reports that one of the primes of the sample
is composite, which it is. -/
def Confirms (plain : Options) (seed : Nat) (outcome outcome' : Outcome) : Prop :=
  outcome'.code = outcome.code ∧ outcome'.printed = outcome.printed
      ∧ outcome'.error = outcome.error
    ∨ outcome'.code = 1 ∧ outcome'.printed = ""
      ∧ ∃ sample after, DrawsSample plain.config seed sample after
        ∧ (outcome'.error = some "sample verification failed: p is composite" ∧ ¬ sample.p.Prime
          ∨ outcome'.error = some "sample verification failed: q is composite" ∧ ¬ sample.q.Prime)

/-- What verifying makes of a run: where both exit, they do so alike, or the one that verifies has
found a composite number among the primes.  It exits only where the other does, and fails to do so
only where it waits for a witness without end. -/
structure Rechecks (plain checked : Options) (seed : Nat) (system : σ)
    (environment : Option String) (files : Files) : Prop where
  /-- Where both runs exit. -/
  confirms : ∀ {outcome outcome' : Outcome} {files' files'' : Files},
    plain.Exits system environment files outcome files' →
    checked.Exits system environment files outcome' files'' →
      Confirms plain seed outcome outcome'
  /-- Where the run that verifies exits, the other does. -/
  exits_plain : ∀ {outcome' : Outcome} {files'' : Files},
    checked.Exits system environment files outcome' files'' →
      ∃ outcome files', plain.Exits system environment files outcome files'
  /-- Where the other run exits, the one that verifies does, or it is stuck. -/
  exits_checked : ∀ {outcome : Outcome} {files' : Files},
    plain.Exits system environment files outcome files' →
      (∃ outcome' files'', checked.Exits system environment files outcome' files'')
        ∨ ∃ sample after mid, DrawsSample plain.config seed sample after
          ∧ mid.source = after.source ∧ sample.Stuck plain.config.rounds mid

section

variable {plain checked : Options}

/-- Two runs that exit. -/
theorem Rechecks.of_exits {outcome outcome' : Outcome} {files' files'' : Files}
    (hexits : plain.Exits system environment files outcome files')
    (hexits' : checked.Exits system environment files outcome' files'')
    (hconfirms : Confirms plain seed outcome outcome') :
    Rechecks plain checked seed system environment files where
  confirms h h' := by
    rw [(h.unique hexits).1, (h'.unique hexits').1]
    exact hconfirms
  exits_plain _ := ⟨outcome, files', hexits⟩
  exits_checked _ := Or.inl ⟨outcome', files'', hexits'⟩

/-- **What verifying makes of a seeded run.** -/
theorem rechecks_of_task (hfilter : (plain.filter environment).isSome)
    (hseed : plain.seed = some seed) (hplain : plain.task = .sample false)
    (hchecked : checked = { plain with task := .sample true }) :
    Rechecks plain checked seed system environment files := by
  have hfilter' : (checked.filter environment).isSome := by rw [hchecked]; exact hfilter
  have hseed' : checked.seed = some seed := by rw [hchecked]; exact hseed
  have htask' : checked.task = .sample true := by rw [hchecked]
  have hconfig : checked.config = plain.config := by rw [hchecked]
  rcases (Sample.steady_draw plain.config).ends_or_endless (seedStart seed) with
    ⟨answer, after, hends⟩ | hendless
  · cases answer with
    | error cause =>
      -- The drawing fails, and both runs exit with its error.
      obtain ⟨events, hexits⟩ := exits_of_failed system files hfilter hseed hplain hends
      obtain ⟨events', hexits'⟩ :=
        exits_of_failed system files hfilter' hseed' htask' (hconfig ▸ hends)
      exact .of_exits hexits hexits' (Or.inl ⟨rfl, rfl, rfl⟩)
    | ok sample =>
      have hdraw : DrawsSample plain.config seed sample after := hends
      obtain ⟨events, hexits⟩ := exits_of_drawn system files hfilter hseed hplain hdraw
      rcases exits_of_drawn_verified system files hfilter' hseed' htask' (hconfig ▸ hdraw) with
        ⟨events', hexits'⟩ | ⟨which, events', hwhich, hcomposite, hexits'⟩ | ⟨hnot, mid, hmid, hstuck⟩
      · exact .of_exits hexits hexits' (Or.inl ⟨rfl, rfl, rfl⟩)
      · refine .of_exits hexits hexits' (Or.inr ⟨rfl, rfl, sample, after, hdraw, ?_⟩)
        cases which with
        | random => exact absurd rfl hwhich
        | p => exact Or.inl ⟨rfl, hcomposite⟩
        | q => exact Or.inr ⟨rfl, hcomposite⟩
      · refine ⟨fun _ h' => absurd h' (hnot _ _), fun h' => absurd h' (hnot _ _), fun _ => ?_⟩
        exact Or.inr ⟨sample, after, mid, hdraw, hmid, hconfig ▸ hstuck⟩
  · -- The drawing has no end, and neither run exits.
    have hnot (outcome : Outcome) (files' : Files) :
        ¬ plain.Exits system environment files outcome files' :=
      not_exits_of_endless_draw system files hfilter hseed hplain hendless
    have hnot' (outcome : Outcome) (files' : Files) :
        ¬ checked.Exits system environment files outcome files' :=
      not_exits_of_endless_draw system files hfilter' hseed' htask' (hconfig ▸ hendless)
    exact ⟨fun h => absurd h (hnot _ _), fun h' => absurd h' (hnot' _ _),
      fun h => absurd h (hnot _ _)⟩

end

/-- A run that prints a sample comes to nothing else. -/
theorem print_of_runSample {σ : Type} [Source σ] {config : Config} {fuel : Nat} {action : Action}
    {session session' : Session σ}
    (h : (runSample config fuel verify).runIn session = (.ok action, session')) :
    ∃ text, action = .print text := by
  rw [runSample_eq] at h
  obtain ⟨-, s₁, -, h⟩ := Draw.runIn_bind_eq_ok.1 h
  obtain ⟨sample, s₂, -, h⟩ := Draw.runIn_bind_eq_ok.1 h
  unfold reporting at h
  split at h
  · obtain ⟨-, s₃, -, h⟩ := Draw.runIn_bind_eq_ok.1 h
    obtain ⟨-, s₄, -, h⟩ := Draw.runIn_bind_eq_ok.1 h
    exact ⟨_, (Draw.runIn_pure_eq_ok.1 h).1.symm⟩
  · exact ⟨_, (Draw.runIn_pure_eq_ok.1 h).1.symm⟩

/-- A line without the word `vectors` never changes a file, and what exits with code 1 has printed
nothing. -/
theorem unchanged_of_run {root : List Setting} {fuel : Nat} {outcome : Outcome}
    (h : (Options.ofSettings root none).run fuel system environment files = (outcome, files')) :
    files' = files ∧ (outcome.code = 1 → outcome.printed = "") := by
  obtain ⟨τ, _, source, hended⟩ := ended_of_run h
  cases hended with
  | aborted => exact ⟨rfl, fun _ => rfl⟩
  | stopped hstop => exact ⟨rfl, fun _ => rfl⟩
  | printed hprint => exact ⟨rfl, fun hcode => absurd hcode (by simp)⟩
  | saved hsave hwrite =>
    -- Such a run has something to print, not to save.
    obtain ⟨before, hdrawn⟩ := exists_runTask_of_plan hsave
    obtain ⟨text, htext⟩ := print_of_runSample hdrawn
    cases htext
  | unsaved hsave hfault => exact ⟨rfl, fun _ => rfl⟩

/-- **All or nothing.**  A seeded run that prints a sample never changes a file, and prints nothing
where it exits with code 1.  It breaks off at its beginning where its filter cannot be read.
Otherwise, without verifying, it exits with code 0 exactly where a sample is drawn from the stream of
the seed, and then the text of the sample and a line break are printed.  The line may have `--verify`
in front of it; and every line that differs from it in that only exits in the same way, or says that
one of the primes is composite, which is true then. -/
theorem report_all_or_nothing {words : List String} {root : List Setting} {seed : Nat}
    (hwords : Line.ofWords words = .ok (.run root none)) (hseed : .seed seed ∈ root)
    {σ : Type} [Source σ] (system : σ) (environment : Option String) (files : Files) :
    (∀ fuel outcome files',
        (Options.ofSettings root none).run fuel system environment files = (outcome, files') →
          files' = files ∧ (outcome.code = 1 → outcome.printed = ""))
    ∧ ((Options.ofSettings root none).filter environment = none →
        (Options.ofSettings root none).Exits system environment files .aborted files)
    ∧ (.verify ∉ root → ((Options.ofSettings root none).filter environment).isSome →
      ((∃ outcome, (Options.ofSettings root none).Exits system environment files outcome files
            ∧ outcome.code = 0)
          ↔ ∃ sample after, DrawsSample (Options.ofSettings root none).config seed sample after)
      ∧ (∀ sample after, DrawsSample (Options.ofSettings root none).config seed sample after →
          ∀ outcome files',
            (Options.ofSettings root none).Exits system environment files outcome files' →
              outcome.code = 0 ∧ outcome.printed = sample.text ++ "\n")
      ∧ (∃ root', Line.ofWords ("--verify" :: words) = .ok (.run root' none)
          ∧ ∀ setting, setting ∈ root' ↔ setting = .verify ∨ setting ∈ root)
      ∧ ∀ words' root', Line.ofWords words' = .ok (.run root' none) →
          (∀ setting, setting ∈ root' ↔ setting = .verify ∨ setting ∈ root) →
            Rechecks (Options.ofSettings root none) (Options.ofSettings root' none) seed system
              environment files) := by
  have hdistinct := distinct_root_of_ofWords hwords
  have hoptions := seed_of_mem hdistinct hseed
  refine ⟨fun fuel outcome files' hrun => unchanged_of_run hrun, exits_of_unread system files, ?_⟩
  intro hplain hfilter
  have htask : (Options.ofSettings root none).task = .sample false := by
    show Task.sample (root.contains .verify) = _
    rw [List.contains_eq_mem, decide_eq_false hplain]
  refine ⟨exits_zero_iff system files hfilter hoptions htask, ?_, ?_, ?_⟩
  · intro sample after hdraw outcome files' h
    obtain ⟨events, hexits⟩ := exits_of_drawn system files hfilter hoptions htask hdraw
    rw [(h.unique hexits).1]
    exact ⟨rfl, rfl⟩
  · refine ⟨root ++ [.verify], ofWords_verify_cons hwords hplain, fun setting => ?_⟩
    rw [List.mem_append, List.mem_singleton, or_comm]
  · intro words' root' hwords' hverify
    refine rechecks_of_task hfilter hoptions htask ?_
    rw [ofSettings_eq_of_same hdistinct (distinct_root_of_ofWords hwords')]
    · have hmem : .verify ∈ root' := (hverify .verify).2 (Or.inl rfl)
      rw [sampleTask, List.contains_eq_mem, decide_eq_true hmem]
    · intro setting hkind
      rw [hverify]
      constructor
      · exact Or.inr
      · rintro (rfl | hmem)
        · exact absurd rfl hkind
        · exact hmem

/-- The line `--seed 7 --bits 2`, and the same line with `--verify` behind it, whose verification
has nothing to wait for and no composite number to find. -/
theorem report_all_or_nothing_two_bits :
    Line.ofWords ["--seed", "7", "--bits", "2"] = .ok (.run [.bits 2, .seed 7] none)
      ∧ .seed 7 ∈ [Setting.bits 2, .seed 7] ∧ .verify ∉ [Setting.bits 2, .seed 7]
      ∧ ((Options.ofSettings [.bits 2, .seed 7] none).filter none).isSome
      ∧ Line.ofWords ["--seed", "7", "--bits", "2", "--verify"]
        = .ok (.run [.verify, .bits 2, .seed 7] none)
      ∧ ∃ outcome, (Options.ofSettings [.bits 2, .seed 7] none).Exits (KeyStream.ofSeed 0) none
          ⟨[], []⟩ outcome ⟨[], []⟩
        ∧ outcome.code = 0
        ∧ ∃ random, outcome.printed = (⟨2, random, 3, 3, 9⟩ : Sample).text ++ "\n"
        ∧ ∃ outcome' files', (Options.ofSettings [.verify, .bits 2, .seed 7] none).Exits
            (KeyStream.ofSeed 0) none ⟨[], []⟩ outcome' files'
          ∧ outcome'.code = 0 ∧ outcome'.printed = outcome.printed := by
  have hwords : Line.ofWords ["--seed", "7", "--bits", "2"]
      = .ok (.run [.bits 2, .seed 7] none) := by decide +kernel
  have hwords' : Line.ofWords ["--seed", "7", "--bits", "2", "--verify"]
      = .ok (.run [.verify, .bits 2, .seed 7] none) := by decide +kernel
  have hseed : .seed 7 ∈ [Setting.bits 2, .seed 7] := by decide
  have hplain : .verify ∉ [Setting.bits 2, .seed 7] := by decide
  have hfilter : ((Options.ofSettings [.bits 2, .seed 7] none).filter none).isSome := by
    have hlevel : (Options.ofSettings [.bits 2, .seed 7] none).logLevel = standardLogLevel := rfl
    rw [Options.filter, hlevel, choose_standard]
    rfl
  obtain ⟨random, after, hdraw⟩ := exists_drawsSample_two_bits (by decide : (40 : Nat) ≠ 0) 7
  obtain ⟨-, -, hrest⟩ :=
    report_all_or_nothing hwords hseed (KeyStream.ofSeed 0) none ⟨[], []⟩
  obtain ⟨hzero, hprints, -, hchecked⟩ := hrest hplain hfilter
  obtain ⟨outcome, hexits, hcode⟩ := hzero.2 ⟨_, after, hdraw⟩
  have hrechecks := hchecked _ _ hwords' fun setting => List.mem_cons
  -- The witnesses for three are drawn below zero, which is refused at once.
  have hexits' : ∃ outcome' files', (Options.ofSettings [.verify, .bits 2, .seed 7] none).Exits
      (KeyStream.ofSeed 0) none ⟨[], []⟩ outcome' files' := by
    rcases hrechecks.exits_checked hexits with hexits' | ⟨sample, after', mid, hdraw', -, hstuck⟩
    · exact hexits'
    · obtain rfl := Except.ok.inj (hdraw'.unique hdraw).1
      obtain ⟨-, which, hwhich, last, -, hendless⟩ := hstuck
      have hout := hendless 0
      cases which with
      | random => exact absurd rfl hwhich
      | p => cases hout
      | q => cases hout
  obtain ⟨outcome', files', hexits'⟩ := hexits'
  refine ⟨hwords, hseed, hplain, hfilter, hwords', outcome, hexits, hcode, random,
    (hprints _ _ hdraw _ _ hexits).2, outcome', files', hexits', ?_⟩
  rcases hrechecks.confirms hexits hexits' with
    ⟨hcode', hprinted, -⟩ | ⟨-, -, sample, _, hdraw', hcomposite⟩
  · exact ⟨hcode'.trans hcode, hprinted⟩
  · obtain rfl := Except.ok.inj (hdraw'.unique hdraw).1
    rcases hcomposite with ⟨-, hp⟩ | ⟨-, hq⟩
    · exact absurd Nat.prime_three hp
    · exact absurd Nat.prime_three hq

/-- **Not every run with a sample prints it**: the line `--seed 7 --bits 2 --log-level ' é=info'` is
accepted and its sample is drawn, but the filter breaks a character in two, so the run exits with
code 101 before it draws anything.  With `--version` behind it, the line `--seed 7 --bits 2` asks for no
run at all, and what is printed is the version. -/
theorem not_printed_of_unread_filter :
    Line.ofWords ["--seed", "7", "--bits", "2", "--log-level", " é=info"]
        = .ok (.run [.logLevel " é=info", .bits 2, .seed 7] none)
      ∧ (∃ random after,
        DrawsSample (Options.ofSettings [.logLevel " é=info", .bits 2, .seed 7] none).config 7
          ⟨2, random, 3, 3, 9⟩ after)
      ∧ (Options.ofSettings [.logLevel " é=info", .bits 2, .seed 7] none).Exits
          (⟨"no device"⟩ : Failing) none ⟨[], []⟩ ⟨101, "", none, []⟩ ⟨[], []⟩
      ∧ (¬ ∀ words root seed, Line.ofWords words = .ok (.run root none) → .seed seed ∈ root →
        .verify ∉ root → ∀ environment files,
          (∃ outcome, (Options.ofSettings root none).Exits (⟨"no device"⟩ : Failing) environment files
              outcome files ∧ outcome.code = 0)
            ↔ ∃ sample after, DrawsSample (Options.ofSettings root none).config seed sample after)
      ∧ Line.ofWords ["--seed", "7", "--bits", "2", "--version"] = .ok .version
      ∧ versionText = "primegen 0.1.0\n" := by
  have hwords : Line.ofWords ["--seed", "7", "--bits", "2", "--log-level", " é=info"]
      = .ok (.run [.logLevel " é=info", .bits 2, .seed 7] none) := by decide +kernel
  have hfilter :
      (Options.ofSettings [.logLevel " é=info", .bits 2, .seed 7] none).filter none = none := by
    have hcomma : "," = String.singleton ',' := rfl
    show Log.Filter.choose none " é=info" = none
    unfold Log.Filter.choose Log.Filter.ofTextLenient Log.Filter.pieces
    rw [hcomma, Text.splitOn_singleton]
    decide +kernel
  obtain ⟨random, after, hdraw⟩ := exists_drawsSample_two_bits (by decide : (40 : Nat) ≠ 0) 7
  have hexits := exits_of_unread (⟨"no device"⟩ : Failing) ⟨[], []⟩ hfilter
  refine ⟨hwords, ⟨random, after, hdraw⟩, hexits, fun hall => ?_, by decide +kernel, rfl⟩
  obtain ⟨outcome, hexits', hcode⟩ :=
    (hall _ _ 7 hwords (by decide) (by decide) none ⟨[], []⟩).2 ⟨_, after, hdraw⟩
  rw [(hexits'.unique hexits).1] at hcode
  cases hcode

end ProbablePrime.Command
