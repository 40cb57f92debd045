/-
  ProbablePrime.Proofs.Command.Run — how runs of the program end.

  A run on a snapshot has five ways to end, and only one of them changes the snapshot: the last thing
  that a run does is to save its text.  `Ended` lists them with what led to each.  Nothing of this
  depends on where the bytes come from, so it is said of every source, and holds of the stream of a
  seed as of what the system provides.

  A run that makes test vectors of a directory has drawn and classified everything before that.  So
  what it saves is all there is to save, and what it does not save leaves no trace.

  Main results:
    * `ended_of_run` — the ways in which a run ends;
    * `run_of_refused` — a run that the system refuses its bytes;
    * `saved_of_directory` — what is saved fits the lists of the directory, and otherwise nothing is
      changed.
-/
import ProbablePrime.Command.Run
import ProbablePrime.Proofs.Command.Settings
import ProbablePrime.Proofs.Files.Writing
import ProbablePrime.Proofs.Vectors.Classified
import ProbablePrime.Proofs.Vectors.ListForm

namespace ProbablePrime.Command

open Entropy (Failing KeyStream Source)
open Vectors (Category Inputs NumeralList Numeral TestVector TestVectors VectorError loadList parseList
  parseList_eq_ok_iff)

/-! ## §1. Ways to end. -/

section

variable {σ : Type} [Source σ] {options : Options} {fuel : Nat} {source system : σ}
  {environment : Option String} {files files' : Files} {outcome : Outcome}

/-- How a run of the options on a snapshot ends with the bytes of a source, and what it makes of the
snapshot. -/
inductive Ended (options : Options) (fuel : Nat) (source : σ) (files : Files) : Outcome → Files → Prop
  /-- It could not read which events to show. -/
  | aborted : Ended options fuel source files .aborted files
  /-- It stopped while it was drawing. -/
  | stopped {stop : Stop VectorError} {session : Session σ} :
    (options.plan fuel files.readText).runIn (Session.start source) = (.error stop, session) →
      Ended options fuel source files (.stopped session.events stop) files
  /-- It printed a text. -/
  | printed {text : String} {session : Session σ} :
    (options.plan fuel files.readText).runIn (Session.start source)
        = (.ok (.print text), session) →
      Ended options fuel source files ⟨0, text, none, session.events⟩ files
  /-- It saved a text. -/
  | saved {path text : String} {session : Session σ} {files' : Files} :
    (options.plan fuel files.readText).runIn (Session.start source)
        = (.ok (.save path text), session) →
      files.write path text.toUTF8 = .ok files' →
        Ended options fuel source files ⟨0, "", none, session.events ++ [wrote path]⟩ files'
  /-- It could not save its text. -/
  | unsaved {path text : String} {session : Session σ} {fault : FileFault} :
    (options.plan fuel files.readText).runIn (Session.start source)
        = (.ok (.save path text), session) →
      files.write path text.toUTF8 = .error fault →
        Ended options fuel source files (.stopped session.events (.error (.io path fault))) files

/-- A run with the bytes of a source ends in one of these ways. -/
theorem ended_of_runFrom (h : options.runFrom fuel source environment files = (outcome, files')) :
    Ended options fuel source files outcome files' := by
  unfold Options.runFrom at h
  split at h
  · obtain ⟨rfl, rfl⟩ := Prod.mk.inj h
    exact .aborted
  · split at h
    · next hplan =>
      obtain ⟨rfl, rfl⟩ := Prod.mk.inj h
      exact .stopped hplan
    · next action session hplan =>
      cases action with
      | print text =>
        obtain ⟨rfl, rfl⟩ := Prod.mk.inj h
        exact .printed hplan
      | save path text =>
        split at h
        · next written hwrite =>
          obtain ⟨rfl, rfl⟩ := Prod.mk.inj h
          exact .saved hplan hwrite
        · next fault hwrite =>
          obtain ⟨rfl, rfl⟩ := Prod.mk.inj h
          exact .unsaved hplan hwrite

/-- A run with a seed draws from its stream, whatever the system provides. -/
theorem run_of_seed {seed : Nat} (hseed : options.seed = some seed) :
    options.run fuel system environment files
      = options.runFrom fuel (KeyStream.ofSeed (UInt64.ofNat seed)) environment files := by
  rw [Options.run, hseed]

/-- A run without a seed draws from what the system provides. -/
theorem run_of_unseeded (hseed : options.seed = none) :
    options.run fuel system environment files = options.runFrom fuel system environment files := by
  rw [Options.run, hseed]

/-- What comes of a run with the bytes of any source comes of the run. -/
theorem run_of_runFrom {result : Outcome × Files}
    (h : ∀ {τ : Type} [Source τ] (source : τ),
      options.runFrom fuel source environment files = result) :
    options.run fuel system environment files = result := by
  cases hseed : options.seed with
  | some seed => rw [run_of_seed hseed, h]
  | none => rw [run_of_unseeded hseed, h]

/-- **A run ends in one of these ways**, from wherever it has its bytes. -/
theorem ended_of_run (h : options.run fuel system environment files = (outcome, files')) :
    ∃ (τ : Type) (_ : Source τ) (source : τ), Ended options fuel source files outcome files' := by
  cases hseed : options.seed with
  | some seed =>
    rw [run_of_seed hseed] at h
    exact ⟨KeyStream, inferInstance, _, ended_of_runFrom h⟩
  | none =>
    rw [run_of_unseeded hseed] at h
    exact ⟨σ, inferInstance, system, ended_of_runFrom h⟩

end

/-! ## §2. What a run draws. -/

section

variable {σ α : Type} {draw : Draw σ VectorError α} {session session' : Session σ}

/-- To note refusals is to add an event to a draw that was refused a request. -/
theorem runIn_noteRefusal (draw : Draw σ VectorError α) (session : Session σ) :
    (noteRefusal draw).runIn session
      = match draw.runIn session with
        | (.error (.error (.prime (.entropy reason))), after) =>
          (.error (.error (.prime (.entropy reason))), after.noted (refused reason))
        | ended => ended := by
  rw [noteRefusal, Draw.runIn_tryCatch]
  rcases draw.runIn session with ⟨result, after⟩
  match result with
  | .ok a => rfl
  | .error stop =>
    dsimp only
    split
    · rfl
    · next hother =>
      split
      · next hrefused =>
        obtain ⟨hstop, -⟩ := Prod.mk.inj hrefused
        exact absurd (Except.error.inj hstop) (hother _)
      · rfl

/-- A draw that ends with a value was refused nothing. -/
theorem runIn_noteRefusal_eq_ok {a : α} :
    (noteRefusal draw).runIn session = (.ok a, session')
      ↔ draw.runIn session = (.ok a, session') := by
  rw [runIn_noteRefusal]
  split
  · next hrefused => simp [hrefused]
  · exact Iff.rfl

/-- A draw that fails for another reason is as it was. -/
theorem runIn_noteRefusal_of_error {cause : VectorError}
    (hcause : ∀ reason, cause ≠ .prime (.entropy reason))
    (h : draw.runIn session = (.error (.error cause), session')) :
    (noteRefusal draw).runIn session = (.error (.error cause), session') := by
  rw [runIn_noteRefusal, h]
  split
  · next hrefused =>
    obtain ⟨hstop, -⟩ := Prod.mk.inj hrefused
    exact absurd (Stop.error.inj (Except.error.inj hstop)) (hcause _)
  · rfl

end

theorem choose_standard : Log.Filter.choose none standardLogLevel = some [⟨none, none, none, 2⟩] := by
  have hcomma : "," = String.singleton ',' := rfl
  unfold Log.Filter.choose Log.Filter.ofTextLenient Log.Filter.pieces
  rw [hcomma, Text.splitOn_singleton]
  decide +kernel

/-- The filter of a run for which none is set shows warnings and errors. -/
theorem filter_standard {options : Options} (h : options.logLevel = standardLogLevel) :
    options.filter none = some [⟨none, none, none, 2⟩] := by
  rw [Options.filter, h]
  exact choose_standard

section

variable {σ : Type} [Source σ] {options : Options} {fuel : Nat} {session session' : Session σ}

/-- The warning of a seeded run changes nothing about what is drawn behind it, and what an unseeded one
notes of a refusal nothing about what was drawn. -/
theorem exists_runTask_of_plan {readText : String → Except FileFault String} {action : Action}
    (h : (options.plan fuel readText).runIn session = (.ok action, session')) :
    ∃ before, (runTask options.config fuel readText options.task).runIn before
      = (.ok action, session') := by
  unfold Options.plan at h
  split at h
  · obtain ⟨-, mid, -, htask⟩ := Draw.runIn_bind_eq_ok.1 h
    exact ⟨mid, htask⟩
  · exact ⟨session, runIn_noteRefusal_eq_ok.1 h⟩

/-- **A run that the system refuses its bytes** exits with code 1 and says so, in its error and in the
last of its events.  It prints nothing, and the files stay as they are. -/
theorem run_of_refused {system : σ} {environment : Option String} {files : Files} {reason : String}
    (hseed : options.seed = none) (hfilter : (options.filter environment).isSome)
    (h : (runTask options.config fuel files.readText options.task).runIn (Session.start system)
      = (.error (.error (.prime (.entropy reason))), session)) :
    options.run fuel system environment files
      = (⟨1, "", some s!"entropy source failed: {reason}", session.events ++ [refused reason]⟩,
          files) := by
  obtain ⟨filter, hread⟩ := Option.isSome_iff_exists.1 hfilter
  have hplan : (options.plan fuel files.readText).runIn (Session.start system)
      = (.error (.error (.prime (.entropy reason))), session.noted (refused reason)) := by
    rw [Options.plan, hseed]
    dsimp only
    rw [runIn_noteRefusal, h]
  rw [run_of_unseeded hseed, Options.runFrom, hread, hplan]
  rfl

/-- Without a seed, a system that serves nothing stops the first draw of a sample. -/
example : (Options.ofSettings [.bits 16] none).run 1 (⟨"no device"⟩ : Failing) none ⟨[], []⟩
    = (⟨1, "", some "entropy source failed: no device", [generating 16, refused "no device"]⟩,
        ⟨[], []⟩) := by
  have hfilter : ((Options.ofSettings [.bits 16] none).filter none).isSome := by
    rw [filter_standard rfl]
    rfl
  have hrefused : (runTask ⟨16, 40, none⟩ 1 (Files.readText ⟨[], []⟩) (.sample false)).runIn
      (Session.start (⟨"no device"⟩ : Failing))
      = (.error (.error (.prime (.entropy "no device"))), ⟨⟨"no device"⟩, ⟨1, 2⟩, [generating 16]⟩) :=
    rfl
  exact run_of_refused rfl hfilter hrefused

/-- A run that makes test vectors has come to its numbers and classified them all, and is left with
their text to save. -/
theorem exists_vectors_of_runVectors {config : Config}
    {readText : String → Except FileFault String} {source : NumberSource} {output : String}
    {action : Action}
    (h : (runVectors config fuel readText source output).runIn session = (.ok action, session')) :
    ∃ inputs mid vectors, (inputsOf config fuel readText source).runIn session = (.ok inputs, mid)
      ∧ (TestVectors.ofInputs fuel config.rounds inputs).runIn mid = (.ok vectors, session')
      ∧ action = .save output vectors.toJson := by
  unfold runVectors at h
  obtain ⟨inputs, mid, hinputs, h⟩ := Draw.runIn_bind_eq_ok.1 h
  obtain ⟨vectors, last, hvectors, h⟩ := Draw.runIn_bind_eq_ok.1 h
  rw [Draw.runIn_pure_eq_ok] at h
  obtain ⟨rfl, rfl⟩ := h
  exact ⟨inputs, mid, vectors, hinputs, hvectors, rfl⟩

end

/-! ## §3. Test vectors of a directory. -/

/-- The test vectors are those of the lists in a directory, category by category. -/
structure Matches (files : Files) (directory : String) (vectors : TestVectors)
    (category : Category) (numbers : List Nat) : Prop where
  /-- The file of the category is a list, and its elements denote the numbers, one by one. -/
  listed : ∃ text numerals, files.readText (Files.join directory category.fileName) = .ok text
    ∧ NumeralList numerals text.toList ∧ List.Forall₂ Numeral.Denotes numerals numbers
  /-- There is one vector for each number, in the same order. -/
  order : (vectors.get category).map (·.n) = numbers
  /-- Each vector is a decomposition of its number. -/
  decomposed : ∀ vector ∈ vectors.get category,
    vector.d % 2 = 1 ∧ vector.n = vector.d * 2 ^ vector.s + 1
  /-- A list of composites holds no prime. -/
  composite : category.expectsPrime = false → ∀ n ∈ numbers, ¬ n.Prime
  /-- A list of primes holds nothing but primes, as far as the check is exact. -/
  prime : category.expectsPrime = true → ∀ n ∈ numbers, n < 1018081 → n.Prime

section

variable {files : Files} {directory : String} {category : Category}

/-- Vectors that are decompositions of the same number are the same. -/
theorem eq_of_same_number {vector vector' : TestVector}
    (h : vector.d % 2 = 1 ∧ vector.n = vector.d * 2 ^ vector.s + 1)
    (h' : vector'.d % 2 = 1 ∧ vector'.n = vector'.d * 2 ^ vector'.s + 1)
    (hn : vector.n = vector'.n) : vector = vector' := by
  obtain ⟨n, d, s⟩ := vector
  obtain ⟨n', d', s'⟩ := vector'
  obtain rfl : n = n' := hn
  have hparts : Primality.decompose n = some ⟨d, s⟩ := Primality.Decomposition.Of.decompose_eq ⟨h.1, h.2⟩
  have hparts' : Primality.decompose n = some ⟨d', s'⟩ :=
    Primality.Decomposition.Of.decompose_eq ⟨h'.1, h'.2⟩
  obtain ⟨rfl, rfl⟩ := Primality.Decomposition.mk.inj (Option.some.inj (hparts.symm.trans hparts'))
  rfl

/-- Rows of such vectors with the same numbers are the same. -/
theorem eq_of_same_numbers {vectors vectors' : List TestVector}
    (h : ∀ vector ∈ vectors, vector.d % 2 = 1 ∧ vector.n = vector.d * 2 ^ vector.s + 1)
    (h' : ∀ vector ∈ vectors', vector.d % 2 = 1 ∧ vector.n = vector.d * 2 ^ vector.s + 1)
    (hnumbers : vectors.map (·.n) = vectors'.map (·.n)) : vectors = vectors' := by
  induction vectors generalizing vectors' with
  | nil => exact (List.map_eq_nil_iff.1 hnumbers.symm).symm
  | cons vector vectors ih =>
    cases vectors' with
    | nil => cases hnumbers
    | cons vector' vectors' =>
      obtain ⟨hn, hrest⟩ := List.cons.inj hnumbers
      rw [List.forall_mem_cons] at h h'
      rw [ih h.2 h'.2 hrest, eq_of_same_number h.1 h'.1 hn]

/-- **A directory has at most one row of test vectors for each category.** -/
theorem Matches.unique {vectors vectors' : TestVectors} {numbers numbers' : List Nat}
    (h : Matches files directory vectors category numbers)
    (h' : Matches files directory vectors' category numbers') :
    vectors.get category = vectors'.get category := by
  obtain ⟨text, numerals, hread, hlist, hdenotes⟩ := h.listed
  obtain ⟨text', numerals', hread', hlist', hdenotes'⟩ := h'.listed
  obtain rfl := Except.ok.inj (hread.symm.trans hread')
  have hsame : numbers = numbers' := Except.ok.inj
    ((parseList_eq_ok_iff.2 ⟨numerals, hlist, hdenotes⟩).symm.trans
      (parseList_eq_ok_iff.2 ⟨numerals', hlist', hdenotes'⟩))
  exact eq_of_same_numbers h.decomposed h'.decomposed (by rw [h.order, h'.order, hsame])

/-- Vectors that were classified from the lists of a directory are those of the lists. -/
theorem matches_of_classified {σ : Type} [Source σ] {fuel rounds : Nat} {inputs : Inputs}
    {vectors : TestVectors} {session mid session' : Session σ}
    (hload : (Vectors.load files.readText directory).runIn session = (.ok inputs, mid))
    (hvectors : (TestVectors.ofInputs fuel rounds inputs).runIn mid = (.ok vectors, session'))
    (category : Category) : Matches files directory vectors category (inputs.get category) := by
  obtain ⟨horder, hfits⟩ := Vectors.fits_of_ofInputs hvectors category
  have hvector (n : Nat) (hn : n ∈ inputs.get category) :
      ∃ vector : TestVector, vector.Fits category ∧ vector.n = n := by
    rw [← horder] at hn
    obtain ⟨vector, hmem, hname⟩ := List.mem_map.1 hn
    exact ⟨vector, hfits vector hmem, hname⟩
  obtain ⟨text, hread, hparse⟩ := Vectors.exists_text_of_load hload category
  obtain ⟨numerals, hlist, hdenotes⟩ := parseList_eq_ok_iff.1 hparse
  refine ⟨⟨text, numerals, hread, hlist, hdenotes⟩, horder, ?_, ?_, ?_⟩
  · intro vector hmem
    exact ⟨(hfits vector hmem).odd, (hfits vector hmem).eq⟩
  · intro hkind n hn
    obtain ⟨vector, hfit, rfl⟩ := hvector n hn
    exact hfit.composite hkind
  · intro hkind n hn
    obtain ⟨vector, hfit, rfl⟩ := hvector n hn
    exact (hfit.passable hkind).prime_of_lt

end

/-! ## §4. A run to follow. -/

/-- A directory `v` with the number 13 in the list of small primes, and no other numbers. -/
def thirteenFiles : Files :=
  ⟨[], [(["v"], .directory), (["v", "first-primes.json"], .file "[13]".toUTF8),
    (["v", "large-primes.json"], .file "[]".toUTF8),
    (["v", "first-composites.json"], .file "[]".toUTF8),
    (["v", "large-composites.json"], .file "[]".toUTF8)]⟩

/-- The lists of this directory. -/
def thirteenInputs : Inputs := ⟨[13], [], [], []⟩

/-- The test vectors of these lists. -/
def thirteenVectors : TestVectors := ⟨[⟨13, 3, 2⟩], [], [], []⟩

theorem read_thirteen (category : Category) :
    ∃ text, thirteenFiles.readText (Files.join "v" category.fileName) = .ok text
      ∧ parseList text = .ok (thirteenInputs.get category) := by
  unfold Files.readText Files.read Files.walk
  rw [Files.walkParts_eq]
  cases category with
  | smallPrimes => exact ⟨"[13]", by decide +kernel, by decide +kernel⟩
  | largePrimes => exact ⟨"[]", by decide +kernel, by decide +kernel⟩
  | smallComposites => exact ⟨"[]", by decide +kernel, by decide +kernel⟩
  | largeComposites => exact ⟨"[]", by decide +kernel, by decide +kernel⟩

theorem load_thirteen {σ : Type} (session : Session σ) : ∃ after,
    (Vectors.load thirteenFiles.readText "v").runIn session = (.ok thirteenInputs, after) := by
  refine Vectors.exists_runIn_build (fun category before => ?_) session
  obtain ⟨text, hread, hparse⟩ := read_thirteen category
  exact ⟨_, Vectors.runIn_loadList_of_read hread hparse⟩

theorem ofInputs_thirteen {σ : Type} [Source σ] (session : Session σ) : ∃ after,
    (TestVectors.ofInputs 1 40 thirteenInputs).runIn session = (.ok thirteenVectors, after) := by
  refine Vectors.exists_runIn_build (fun category before => ?_) session
  have hparts : Primality.decompose 13 = some ⟨3, 2⟩ := by
    simp [Primality.decompose, Primality.oddPart, Primality.twos]
  have hclassify : (Vectors.classify 1 40 .smallPrimes 13).runIn before
      = (.ok ⟨13, 3, 2⟩, before) :=
    Vectors.runIn_classify_of_settled (by decide) (Or.inl (by decide)) hparts
      (decide_eq_true (by norm_num))
  unfold Vectors.classifyList
  cases category with
  | smallPrimes =>
    refine ⟨before.noted (Vectors.classified 1 .smallPrimes), ?_⟩
    show ((Vectors.classify 1 40 .smallPrimes 13 >>= fun vector => pure [vector]) >>= _).runIn
      before = _
    rw [bind_assoc, Draw.runIn_bind_of_ok hclassify]
    rfl
  | largePrimes => exact ⟨_, rfl⟩
  | smallComposites => exact ⟨_, rfl⟩
  | largeComposites => exact ⟨_, rfl⟩

/-- These vectors are those of the directory. -/
theorem matches_thirteen (category : Category) :
    Matches thirteenFiles "v" thirteenVectors category (thirteenInputs.get category) := by
  obtain ⟨mid, hload⟩ := load_thirteen (Session.start (⟨""⟩ : Failing))
  obtain ⟨after, hvectors⟩ := ofInputs_thirteen mid
  exact matches_of_classified hload hvectors category

/-- What is set when the directory is to be read and the vectors are to go to `out.json`. -/
def thirteenSettings : List Setting := [.output "out.json", .inputDir "v"]

/-- The run from this directory ends with code 0, even if the system provides no bytes. -/
theorem run_thirteen : ∃ outcome files',
    (Options.ofSettings [] (some thirteenSettings)).run 1 (⟨"no device"⟩ : Failing) none thirteenFiles
        = (outcome, files')
      ∧ outcome.code = 0 := by
  have hfilter : (Options.ofSettings [] (some thirteenSettings)).filter none
      = some [⟨none, none, none, 2⟩] := filter_standard rfl
  have hwalk : thirteenFiles.walkToWrite "out.json" = .ok ["out.json"] := by
    unfold Files.walkToWrite
    rw [Files.walkParts_eq]
    decide +kernel
  have hwrite : thirteenFiles.write "out.json" thirteenVectors.toJson.toUTF8
      = .ok (thirteenFiles.put ["out.json"] (.file thirteenVectors.toJson.toUTF8)) := by
    unfold Files.write
    rw [hwalk]
    rfl
  obtain ⟨mid, hload⟩ := load_thirteen (Session.start (⟨"no device"⟩ : Failing))
  obtain ⟨after, hvectors⟩ := ofInputs_thirteen mid
  have hplan : ((Options.ofSettings [] (some thirteenSettings)).plan 1
      thirteenFiles.readText).runIn (Session.start (⟨"no device"⟩ : Failing))
      = (.ok (.save "out.json" thirteenVectors.toJson), after) := by
    show (noteRefusal (Vectors.load thirteenFiles.readText "v" >>= fun inputs =>
      TestVectors.ofInputs 1 40 inputs >>= fun vectors =>
        pure (Action.save "out.json" vectors.toJson))).runIn _ = _
    rw [runIn_noteRefusal_eq_ok, Draw.runIn_bind_of_ok hload, Draw.runIn_bind_of_ok hvectors]
    rfl
  refine ⟨⟨0, "", none, after.events ++ [wrote "out.json"]⟩,
    thirteenFiles.put ["out.json"] (.file thirteenVectors.toJson.toUTF8), ?_, rfl⟩
  rw [run_of_unseeded rfl, Options.runFrom, hfilter, hplan]
  dsimp only [Action.performOn]
  rw [hwrite]
  rfl

/-! ## §5. Runs on a directory. -/

/-- **Test vectors from a directory, end to end.**  A line that names a directory and a file ends
with code 0 only if the file then holds test vectors that match the lists of the directory, and
nothing else has changed.  With code 1 nothing has changed at all.  Neither prints anything.  The
system may provide any bytes, or refuse to. -/
theorem saved_of_directory {words : List String} {root settings : List Setting}
    {directory output : String}
    (hwords : Line.ofWords words = .ok (.run root (some settings)))
    (hdirectory : .inputDir directory ∈ settings) (houtput : .output output ∈ settings)
    (fuel : Nat) {σ : Type} [Source σ] (system : σ) (environment : Option String) (files : Files)
    (outcome : Outcome) (files' : Files)
    (hrun : (Options.ofSettings root (some settings)).run fuel system environment files
      = (outcome, files')) :
    (outcome.code = 0 → outcome.printed = ""
      ∧ ∃ vectors : TestVectors, files'.read output = .ok vectors.toJson.toUTF8
        ∧ (∃ name, files.walk output = .ok name
          ∧ ∀ other, other ≠ name → files'.entry? other = files.entry? other)
        ∧ ∀ category, ∃ numbers, Matches files directory vectors category numbers)
    ∧ (outcome.code = 1 → outcome.printed = "" ∧ files' = files) := by
  have htask : (Options.ofSettings root (some settings)).task
      = .vectors (.directory directory) output :=
    vectorsTask_of_mem (distinct_of_ofWords hwords) hdirectory houtput
  obtain ⟨τ, _, source, hended⟩ := ended_of_run hrun
  have hplan (action : Action) (session : Session τ)
      (h : ((Options.ofSettings root (some settings)).plan fuel files.readText).runIn
        (Session.start source) = (.ok action, session)) :
      ∃ vectors : TestVectors, action = .save output vectors.toJson
        ∧ ∀ category, ∃ numbers, Matches files directory vectors category numbers := by
    obtain ⟨before, hdrawn⟩ := exists_runTask_of_plan h
    rw [htask] at hdrawn
    obtain ⟨inputs, mid, vectors, hload, hvectors, rfl⟩ := exists_vectors_of_runVectors hdrawn
    exact ⟨vectors, rfl, fun category =>
      ⟨inputs.get category, matches_of_classified hload hvectors category⟩⟩
  cases hended with
  | aborted => exact ⟨fun h => absurd h (by decide), fun h => absurd h (by decide)⟩
  | stopped hstop => exact ⟨fun h => absurd h (by simp [Outcome.stopped]), fun _ => ⟨rfl, rfl⟩⟩
  | printed hprint =>
    -- Such a run has something to save, not to print.
    obtain ⟨vectors, hsave, -⟩ := hplan _ _ hprint
    cases hsave
  | saved hsave hwrite =>
    obtain ⟨vectors, haction, hmatches⟩ := hplan _ _ hsave
    obtain ⟨rfl, rfl⟩ := Action.save.inj haction
    refine ⟨fun _ => ⟨rfl, vectors, Files.read_of_write hwrite, Files.entry?_of_write hwrite,
      hmatches⟩, ?_⟩
    intro hcode
    cases hcode
  | unsaved hsave hfault =>
    exact ⟨fun h => absurd h (by simp [Outcome.stopped]), fun _ => ⟨rfl, rfl⟩⟩

/-- The line `vectors --input-dir v -o out.json` on the directory with the number 13, without a seed
and with a system that serves nothing: as 13 = 3 * 2 ^ 2 + 1, that is saved, and nothing else. -/
theorem saved_of_directory_thirteen :
    Line.ofWords ["vectors", "--input-dir", "v", "-o", "out.json"]
        = .ok (.run [] (some thirteenSettings))
      ∧ .inputDir "v" ∈ thirteenSettings ∧ .output "out.json" ∈ thirteenSettings
      ∧ ∃ outcome files',
        (Options.ofSettings [] (some thirteenSettings)).run 1 (⟨"no device"⟩ : Failing) none
            thirteenFiles = (outcome, files')
          ∧ outcome.code = 0 ∧ outcome.printed = ""
          ∧ files'.read "out.json"
            = .ok (TestVectors.toJson ⟨[⟨13, 3, 2⟩], [], [], []⟩).toUTF8 := by
  have hwords : Line.ofWords ["vectors", "--input-dir", "v", "-o", "out.json"]
      = .ok (.run [] (some thirteenSettings)) := by decide +kernel
  have hdirectory : .inputDir "v" ∈ thirteenSettings := by decide
  have houtput : .output "out.json" ∈ thirteenSettings := by decide
  obtain ⟨outcome, files', hrun, hcode⟩ := run_thirteen
  obtain ⟨hprinted, vectors, hread, -, hmatches⟩ :=
    (saved_of_directory hwords hdirectory houtput 1 (⟨"no device"⟩ : Failing) none thirteenFiles
      outcome files' hrun).1 hcode
  obtain rfl : vectors = thirteenVectors := by
    refine Vectors.PerCategory.ext_get fun category => ?_
    obtain ⟨numbers, hmatch⟩ := hmatches category
    exact hmatch.unique (matches_thirteen category)
  exact ⟨hwords, hdirectory, houtput, outcome, files', hrun, hcode, hprinted, hread⟩

end ProbablePrime.Command
