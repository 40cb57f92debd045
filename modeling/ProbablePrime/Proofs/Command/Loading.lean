/-
  ProbablePrime.Proofs.Command.Loading — runs on a directory that is not in order.

  A run that makes test vectors of a directory begins with the loading of the lists.  Where that
  fails, the run has failed: the numbers that were read so far are not classified, no byte was asked
  of the source, whichever it is, and there is nothing to save.

  Main results:
    * `refuses_of_firstSpoiled` — what becomes of a run on such a directory;
    * `directory_in_order` — the loading of directories, alone and within a run.
-/
import ProbablePrime.Proofs.Command.Run
import ProbablePrime.Proofs.Vectors.Directory

namespace ProbablePrime.Command

open Entropy (Failing Source)
open Vectors (Category FirstSpoiled Inputs Lists Spoiled VectorError foldl_noted load loadedEvent
  lists_or_firstSpoiled pathOf runIn_load_of_firstSpoiled runIn_load_of_lists)

/-! ## §1. Runs that stop at their directory. -/

section

variable {σ : Type} [Source σ]

/-- The session in which a run begins with its task, behind the warning if there is a seed. -/
def Options.begun (options : Options) (source : σ) : Session σ :=
  (options.seed.toList.map seeded).foldl Session.noted (Session.start source)

/-- A run ends where its task fails, unless for a request that was refused. -/
theorem runIn_plan_of_error {options : Options} {fuel : Nat}
    {readText : String → Except FileFault String} {source : σ} {cause : VectorError}
    {after : Session σ} (hcause : ∀ reason, cause ≠ .prime (.entropy reason))
    (h : (runTask options.config fuel readText options.task).runIn (options.begun source)
      = (.error (.error cause), after)) :
    (options.plan fuel readText).runIn (Session.start source) = (.error (.error cause), after) := by
  unfold Options.plan
  unfold Options.begun at h
  cases hseed : options.seed with
  | none =>
    rw [hseed] at h
    exact runIn_noteRefusal_of_error hcause h
  | some seed =>
    rw [hseed] at h
    exact h

end

variable {files : Files} {directory : String} {category : Category} {cause : VectorError}
  {front : List Category}

/-- What is wrong with a file is nothing that a source could be the reason of. -/
theorem ne_refused_of_spoiled (h : Spoiled files directory category cause) (reason : String) :
    cause ≠ .prime (.entropy reason) := by
  rintro rfl
  cases h with
  | unparsed _ hparse =>
    rcases Vectors.cause_of_parseList hparse with ⟨refusal, hcause⟩ | ⟨value, hcause⟩
    · cases hcause
    · cases hcause

/-- The run ends where its loading ends, from every source: with the same error, and in the same
session, in which nothing was asked of the source.  All events are those of the lists in `front`, behind
the warning of a seed.  The files stay as they are. -/
structure Refuses {σ : Type} [Source σ] (options : Options) (files : Files) (directory : String)
    (front : List Category) (cause : VectorError) (fuel : Nat) (system : σ)
    (environment : Option String) : Prop where
  /-- The run and its loading. -/
  loading : ∀ {τ : Type} [Source τ] (source : τ), ∃ after,
    (load files.readText directory).runIn (options.begun source) = (.error (.error cause), after)
      ∧ (options.plan fuel files.readText).runIn (Session.start source)
        = (.error (.error cause), after)
      ∧ after.source = source ∧ after.meter = ⟨0, 0⟩
  /-- Its outcome. -/
  outcome : (options.filter environment).isSome → ∃ lists : Category → List Nat,
    (∀ c ∈ front, Lists files directory c (lists c))
      ∧ options.run fuel system environment files
        = (⟨1, "", some cause.message,
            options.seed.toList.map seeded ++ front.map (loadedEvent directory lists)⟩, files)
  /-- Where its filter cannot be read, it does not come to the loading. -/
  aborted : options.filter environment = none →
    options.run fuel system environment files = (.aborted, files)

/-- The plan of a run on a directory that is not in order fails with what is wrong there, behind the
events of the lists in front. -/
theorem runIn_plan_of_firstSpoiled {options : Options} {output : String}
    (htask : options.task = .vectors (.directory directory) output)
    (h : FirstSpoiled files directory front category cause) (fuel : Nat) :
    ∃ lists : Category → List Nat, (∀ c ∈ front, Lists files directory c (lists c))
      ∧ ∀ {τ : Type} [Source τ] (source : τ),
        (load files.readText directory).runIn (options.begun source)
          = (.error (.error cause),
              (front.map (loadedEvent directory lists)).foldl Session.noted (options.begun source))
        ∧ (options.plan fuel files.readText).runIn (Session.start source)
          = (.error (.error cause),
              (front.map (loadedEvent directory lists)).foldl Session.noted
                (options.begun source)) := by
  obtain ⟨lists, hlists, hload⟩ := runIn_load_of_firstSpoiled h
  refine ⟨lists, hlists, fun source => ⟨hload _, runIn_plan_of_error ?_ ?_⟩⟩
  · exact ne_refused_of_spoiled h.spoiled
  · -- Behind the loading there is nothing to be done.
    rw [htask]
    exact Draw.runIn_bind_of_error (hload _) _

/-- **A run on a directory that is not in order is refused.** -/
theorem refuses_of_firstSpoiled {σ : Type} [Source σ] {options : Options} {output : String}
    (htask : options.task = .vectors (.directory directory) output)
    (h : FirstSpoiled files directory front category cause) (fuel : Nat) (system : σ)
    (environment : Option String) :
    Refuses options files directory front cause fuel system environment := by
  obtain ⟨lists, hlists, hrun⟩ := runIn_plan_of_firstSpoiled htask h fuel
  refine ⟨fun source => ⟨_, (hrun source).1, (hrun source).2, ?_, ?_⟩, fun hfilter => ?_,
    fun hfilter => run_of_runFrom fun source => ?_⟩
  · rw [foldl_noted, Options.begun, foldl_noted]
    rfl
  · rw [foldl_noted, Options.begun, foldl_noted]
    rfl
  · obtain ⟨filter, hread⟩ := Option.isSome_iff_exists.1 hfilter
    refine ⟨lists, hlists, run_of_runFrom fun source => ?_⟩
    rw [Options.runFrom, hread, (hrun source).2, foldl_noted, Options.begun, foldl_noted]
    rfl
  · rw [Options.runFrom, hfilter]

/-! ## §2. Directories. -/

variable {σ : Type}

/-- A directory `v` in which only the list of small primes stands. -/
def loneFiles : Files :=
  ⟨[], [(["v"], .directory), (["v", "first-primes.json"], .file "[13]".toUTF8)]⟩

theorem path_smallPrimes : pathOf "v" .smallPrimes = "v/first-primes.json" := by decide +kernel

theorem path_largePrimes : pathOf "v" .largePrimes = "v/large-primes.json" := by decide +kernel

theorem lists_loneFiles : Lists loneFiles "v" .smallPrimes [13] := by
  refine ⟨"[13]", ?_, by decide +kernel⟩
  unfold pathOf Files.readText Files.read Files.walk
  rw [Files.walkParts_eq]
  decide +kernel

/-- The list of large primes is missing. -/
theorem firstSpoiled_loneFiles :
    FirstSpoiled loneFiles "v" [.smallPrimes] .largePrimes
      (.io "v/large-primes.json" .notFound) where
  order := ⟨[.smallComposites, .largeComposites], rfl⟩
  lists := by
    intro category hcategory
    obtain rfl := List.mem_singleton.1 hcategory
    exact ⟨[13], lists_loneFiles⟩
  spoiled := by
    have hread : loneFiles.readText (pathOf "v" .largePrimes) = .error .notFound := by
      unfold pathOf Files.readText Files.read Files.walk
      rw [Files.walkParts_eq]
      decide +kernel
    rw [← path_largePrimes]
    exact .unread (Files.readText_eq_error_iff.1 hread)

/-- **Directories are loaded in the order of the categories.**  The loading of a directory draws
nothing.  It ends with lists exactly where all four files are text and hold lists of numbers, and then
each list is that of the file of its category; otherwise it ends with what is wrong with the first file
that is spoiled, and what stands in the files behind that makes no difference.  A run on such a
directory ends with the same error before a number is classified, and saves nothing. -/
theorem directory_in_order (files : Files) (directory : String) (session : Session σ) :
    (∃ (answer : Except VectorError Inputs) (after : Session σ),
        (load files.readText directory).runIn session = (answer.mapError Stop.error, after)
          ∧ after.source = session.source ∧ after.meter = session.meter)
    ∧ (∀ inputs, (∃ after, (load files.readText directory).runIn session = (.ok inputs, after))
        ↔ ∀ category, Lists files directory category (inputs.get category))
    ∧ (∀ cause,
        (∃ after, (load files.readText directory).runIn session = (.error (.error cause), after))
          ↔ ∃ front category, FirstSpoiled files directory front category cause)
    ∧ (∀ (files' : Files) front category cause, FirstSpoiled files directory front category cause →
        (∀ c ∈ front ++ [category],
          files'.readText (pathOf directory c) = files.readText (pathOf directory c)) →
        (load files'.readText directory).runIn session
          = (load files.readText directory).runIn session)
    ∧ ∀ words root settings, Line.ofWords words = .ok (.run root (some settings)) →
        .inputDir directory ∈ settings →
        ∀ front category cause, FirstSpoiled files directory front category cause →
          ∀ fuel (τ : Type) [Source τ] (system : τ) environment,
            Refuses (Options.ofSettings root (some settings)) files directory front cause fuel system
              environment := by
  refine ⟨?_, fun inputs => Vectors.load_eq_ok_iff session,
    fun cause => Vectors.load_eq_error_iff session, ?_, ?_⟩
  · rcases lists_or_firstSpoiled files directory with ⟨inputs, hlists⟩ | ⟨front, category, cause, h⟩
    · refine ⟨.ok inputs, _, runIn_load_of_lists hlists, ?_⟩
      rw [foldl_noted]
      exact ⟨rfl, rfl⟩
    · obtain ⟨lists, -, hrun⟩ := runIn_load_of_firstSpoiled h
      refine ⟨.error cause, _, hrun session, ?_⟩
      rw [foldl_noted]
      exact ⟨rfl, rfl⟩
  · intro files' front category cause h hsame
    exact Vectors.runIn_load_of_same h hsame session
  · intro words root settings hwords hdirectory front category cause h fuel τ _ system environment
    obtain ⟨output, htask⟩ :=
      exists_vectorsTask_of_inputDir (distinct_of_ofWords hwords) hdirectory
    exact refuses_of_firstSpoiled htask h fuel system environment

/-- The line `vectors --input-dir v` on the directory with one list: a system that serves nothing is not
even asked. -/
theorem directory_in_order_lone_list :
    FirstSpoiled loneFiles "v" [.smallPrimes] .largePrimes (.io "v/large-primes.json" .notFound)
      ∧ Line.ofWords ["vectors", "--input-dir", "v"] = .ok (.run [] (some [.inputDir "v"]))
      ∧ (Options.ofSettings [] (some [.inputDir "v"])).run 1 (⟨"no device"⟩ : Failing) none loneFiles
        = (⟨1, "", some "I/O error on v/large-primes.json: No such file or directory (os error 2)",
            [Vectors.loaded 1 "v/first-primes.json"]⟩, loneFiles) := by
  have hline : Line.ofWords ["vectors", "--input-dir", "v"]
      = .ok (.run [] (some [.inputDir "v"])) := by decide +kernel
  have hfilter : ((Options.ofSettings [] (some [.inputDir "v"])).filter none).isSome := by
    rw [filter_standard rfl]
    rfl
  obtain ⟨-, -, -, -, hrefuses⟩ :=
    directory_in_order loneFiles "v" (Session.start (⟨"no device"⟩ : Failing))
  obtain ⟨lists, hlists, hrun⟩ := (hrefuses _ _ _ hline (by decide) _ _ _ firstSpoiled_loneFiles 1
    Failing ⟨"no device"⟩ none).outcome hfilter
  have hlist : lists .smallPrimes = [13] := (hlists _ (by decide)).unique lists_loneFiles
  have hmessage : (VectorError.io "v/large-primes.json" .notFound).message
      = "I/O error on v/large-primes.json: No such file or directory (os error 2)" := by
    decide +kernel
  refine ⟨firstSpoiled_loneFiles, hline, hrun.trans ?_⟩
  simp only [List.map_cons, List.map_nil, loadedEvent, hlist, hmessage, path_smallPrimes]
  rfl

end ProbablePrime.Command
