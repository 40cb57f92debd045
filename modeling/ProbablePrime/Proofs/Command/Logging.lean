/-
  ProbablePrime.Proofs.Command.Logging — what a run does does not depend on what is shown of it.

  Two lines that begin runs from a seed may set different filters for the log, and so may the
  environment.  If their settings agree apart from that, the runs are the same: they print the same,
  fail in the same way, save the same files, and note the same events.  Each of them shows the events
  that its filter admits, in the order in which they happened.

  Main results:
    * `exists_logged` — a line can be given any filter;
    * `ofSettings_eq_of_sameButLog` — lines that agree apart from the filter make the same options but
      for that;
    * `run_eq_of_options` — runs with such options are the same;
    * `logging_never_interferes` — both of this, and what each of the runs shows.
-/
import ProbablePrime.Command.Run
import ProbablePrime.Proofs.Command.OrderFree
import ProbablePrime.Proofs.Command.Run
import ProbablePrime.Proofs.Log.Shown

namespace ProbablePrime.Command

open Entropy (Failing KeyStream Source)

/-! ## §1. Lines apart from the filter. -/

/-- The settings of a row apart from the filter of the log. -/
def unlogged (settings : List Setting) : List Setting := settings.filter (·.opt ≠ .logLevel)

/-- Two lines have the same settings apart from the filters of their logs. -/
structure SameButLog (root root' : List Setting) (vectors vectors' : Option (List Setting)) :
    Prop where
  /-- In front of the word `vectors`. -/
  root : unlogged root = unlogged root'
  /-- Behind it. -/
  vectors : vectors.map unlogged = vectors'.map unlogged

section

variable {root root' settings : List Setting} {vectors vectors' : Option (List Setting)}

theorem mem_unlogged {setting : Setting} :
    setting ∈ unlogged settings ↔ setting ∈ settings ∧ setting.opt ≠ .logLevel := by
  rw [unlogged, List.mem_filter, decide_eq_true_iff]

/-- Looking for another option passes over the filter. -/
theorem findSome?_unlogged {α : Type} {find : Setting → Option α}
    (hlog : ∀ setting, setting.opt = .logLevel → find setting = none) (settings : List Setting) :
    (unlogged settings).findSome? find = settings.findSome? find := by
  induction settings with
  | nil => rfl
  | cons first settings ih =>
    by_cases hfirst : first.opt = .logLevel
    · rw [unlogged, List.filter_cons_of_neg (by simpa using hfirst),
        List.findSome?_cons_of_isNone (by rw [hlog first hfirst]; rfl)]
      exact ih
    · rw [unlogged, List.filter_cons_of_pos (by simpa using hfirst), List.findSome?_cons,
        List.findSome?_cons]
      cases find first with
      | none => exact ih
      | some a => rfl

/-- Looking for the filter finds nothing where it was left out. -/
theorem findSome?_unlogged_eq_none {α : Type} {find : Setting → Option α}
    (hother : ∀ setting, setting.opt ≠ .logLevel → find setting = none) (settings : List Setting) :
    (unlogged settings).findSome? find = none := by
  rw [List.findSome?_eq_none_iff]
  intro setting hmem
  exact hother setting (mem_unlogged.1 hmem).2

theorem unlogged_append (settings settings' : List Setting) :
    unlogged (settings ++ settings') = unlogged settings ++ unlogged settings' :=
  List.filter_append _ _

/-- What is left out is left out once and for all. -/
theorem unlogged_unlogged (settings : List Setting) :
    unlogged (unlogged settings) = unlogged settings := by
  rw [unlogged, unlogged, List.filter_filter]
  simp

theorem distinct_unlogged (hdistinct : Distinct settings) : Distinct (unlogged settings) :=
  hdistinct.sublist (List.filter_sublist.map _)

/-- A filter can be set where none is left. -/
theorem distinct_logged (hdistinct : Distinct settings) (text : Option String) :
    Distinct (unlogged settings ++ (text.map Setting.logLevel).toList) := by
  have hrest := distinct_unlogged hdistinct
  cases text with
  | none =>
    show Distinct (unlogged settings ++ [])
    rw [List.append_nil]
    exact hrest
  | some text =>
    have hnew : Opt.logLevel ∉ (unlogged settings).map Setting.opt := by
      intro hmem
      obtain ⟨setting, hsetting, hopt⟩ := List.mem_map.1 hmem
      exact (mem_unlogged.1 hsetting).2 hopt
    show ((unlogged settings ++ [Setting.logLevel text]).map Setting.opt).Nodup
    rw [List.map_append, List.map_singleton, ← List.concat_eq_append]
    exact hrest.concat hnew

/-- The sources of test vectors are named by other options. -/
theorem checkSources_unlogged (settings : List Setting) :
    checkSources (unlogged settings) = checkSources settings := by
  refine checkSources_congr fun setting hlocal => ?_
  rw [mem_unlogged]
  refine and_iff_left ?_
  intro hlog
  exact hlocal (hlog ▸ by decide)

/-- The settings of both sides as one row, without the filter. -/
theorem unlogged_rows (root : List Setting) (vectors : Option (List Setting)) :
    (vectors.map unlogged).getD [] ++ unlogged root = unlogged (vectors.getD [] ++ root) := by
  rw [unlogged_append]
  cases vectors with
  | none => rfl
  | some settings => rfl

/-- The task behind the word `vectors` is not the log's. -/
theorem vectorsTask_unlogged (settings : List Setting) :
    vectorsTask (unlogged settings) = vectorsTask settings := by
  unfold vectorsTask
  dsimp only
  rw [findSome?_unlogged ?_ settings, findSome?_unlogged ?_ settings, findSome?_unlogged ?_ settings]
  all_goals
    intro setting hlog
    cases setting <;> first | rfl | cases hlog

/-- Nor is that in front of it. -/
theorem sampleTask_unlogged (settings : List Setting) :
    sampleTask (unlogged settings) = sampleTask settings := by
  rw [sampleTask, sampleTask, Task.sample.injEq, Bool.eq_iff_iff, List.contains_iff_mem,
    List.contains_iff_mem, mem_unlogged]
  exact and_iff_left (by decide)

/-- Without its filter a line makes the same options but for the log. -/
theorem ofSettings_unlogged (root : List Setting) (vectors : Option (List Setting)) :
    Options.ofSettings (unlogged root) (vectors.map unlogged)
      = { Options.ofSettings root vectors with logLevel := standardLogLevel } := by
  unfold Options.ofSettings
  dsimp only
  rw [unlogged_rows, findSome?_unlogged ?_ (vectors.getD [] ++ root),
    findSome?_unlogged ?_ (vectors.getD [] ++ root), findSome?_unlogged ?_ (vectors.getD [] ++ root),
    findSome?_unlogged ?_ (vectors.getD [] ++ root), findSome?_unlogged_eq_none ?_]
  · cases vectors with
    | none =>
      show Options.mk _ _ _ (sampleTask (unlogged root)) = Options.mk _ _ _ (sampleTask root)
      rw [sampleTask_unlogged]
      rfl
    | some settings =>
      show Options.mk _ _ _ (vectorsTask (unlogged settings)) = Options.mk _ _ _ (vectorsTask settings)
      rw [vectorsTask_unlogged]
      rfl
  all_goals
    intro setting hlog
    cases setting <;> first | rfl | cases hlog | exact absurd rfl hlog

/-- **Lines that agree apart from the filter** make the same options but for that. -/
theorem ofSettings_eq_of_sameButLog (h : SameButLog root root' vectors vectors') :
    Options.ofSettings root' vectors'
      = { Options.ofSettings root vectors with
          logLevel := (Options.ofSettings root' vectors').logLevel } := by
  have hrest : { Options.ofSettings root' vectors' with logLevel := standardLogLevel }
      = { Options.ofSettings root vectors with logLevel := standardLogLevel } := by
    rw [← ofSettings_unlogged, ← ofSettings_unlogged, h.root, h.vectors]
  calc Options.ofSettings root' vectors'
      = { ({ Options.ofSettings root' vectors' with logLevel := standardLogLevel } : Options) with
          logLevel := (Options.ofSettings root' vectors').logLevel } := rfl
    _ = { Options.ofSettings root vectors with
          logLevel := (Options.ofSettings root' vectors').logLevel } := by rw [hrest]

end

/-! ## §2. Lines with another filter. -/

namespace Layout

variable {layout : Layout}

/-- The options of a row apart from the filter. -/
def unloggedItems (items : List Item) : List Item := items.filter (·.opt ≠ .logLevel)

/-- The option that sets a filter, if one is to be set. -/
def logItems : Option String → List Item
  | none => []
  | some text => [.valued .logLevel text .joined]

/-- The same line with another filter, or with none. -/
def logging (layout : Layout) (text : Option String) : Layout :=
  ⟨logItems text ++ unloggedItems layout.root, layout.vectors.map unloggedItems, layout.closed⟩

theorem mem_unloggedItems {item : Item} {items : List Item} (h : item ∈ unloggedItems items) :
    item ∈ items := List.mem_of_mem_filter h

/-- Without the option the row lacks the setting. -/
theorem settingsOf_unloggedItems (items : List Item) :
    settingsOf (unloggedItems items) = unlogged (settingsOf items) := by
  rw [settingsOf, settingsOf, unlogged, unloggedItems, List.filter_reverse, List.filter_filterMap,
    List.filterMap_filter]
  refine congrArg List.reverse (List.filterMap_congr fun item _ => ?_)
  cases hsetting : item.setting? with
  | none => simp
  | some setting => simp [Option.filter, opt_of_setting? hsetting]

theorem settingsOf_logItems (text : Option String) :
    settingsOf (logItems text) = (text.map Setting.logLevel).toList := by
  cases text with
  | none => rfl
  | some text =>
    show [Setting.logLevel (String.ofList text.toList)] = [.logLevel text]
    rw [String.ofList_toList]

/-- The settings of a line with another filter. -/
theorem settingsOf_logging (layout : Layout) (text : Option String) :
    settingsOf (layout.logging text).root
        = unlogged (settingsOf layout.root) ++ (text.map Setting.logLevel).toList
      ∧ (layout.logging text).vectors.map settingsOf
        = (layout.vectors.map settingsOf).map unlogged := by
  constructor
  · show settingsOf (logItems text ++ unloggedItems layout.root) = _
    rw [settingsOf_append, settingsOf_unloggedItems, settingsOf_logItems]
  · show (layout.vectors.map unloggedItems).map settingsOf = _
    rw [Option.map_map, Option.map_map]
    exact congrArg (layout.vectors.map ·) (funext settingsOf_unloggedItems)

theorem Fits.logging (hfits : layout.Fits) (text : Option String) : (layout.logging text).Fits where
  root := by
    refine List.forall_mem_append.2 ⟨?_, fun item hitem => hfits.root item (mem_unloggedItems hitem)⟩
    cases text with
    | none => simp [logItems]
    | some text =>
      have hside : Opt.logLevel ∈ Opt.ofSide .root := by decide
      exact List.forall_mem_singleton.2 ⟨hside, by decide, trivial, trivial⟩
  vectors := by
    intro items hitems item hitem
    obtain ⟨items', hvectors, rfl⟩ := Option.map_eq_some_iff.1 hitems
    exact hfits.vectors items' hvectors item (mem_unloggedItems hitem)

theorem Sound.logging (hsound : layout.Sound) (text : Option String) :
    (layout.logging text).Sound where
  settings := by
    have hrows := List.forall_mem_append.1 hsound.settings
    refine List.forall_mem_append.2 ⟨List.forall_mem_append.2 ⟨?_, ?_⟩, ?_⟩
    · cases text with
      | none => simp [logItems]
      | some text => exact List.forall_mem_singleton.2 rfl
    · exact fun item hitem => hrows.1 item (mem_unloggedItems hitem)
    · cases hvectors : layout.vectors with
      | none => simp [Layout.logging, hvectors]
      | some items =>
        intro item hitem
        rw [Layout.logging, hvectors] at hitem
        exact hrows.2 item (by rw [hvectors]; exact mem_unloggedItems hitem)
  root := by
    rw [(layout.settingsOf_logging text).1]
    exact distinct_logged hsound.root text
  vectors := by
    intro items hitems
    obtain ⟨items', hvectors, rfl⟩ := Option.map_eq_some_iff.1 hitems
    obtain ⟨hdistinct, hsources⟩ := hsound.vectors items' hvectors
    rw [settingsOf_unloggedItems, checkSources_unlogged]
    exact ⟨distinct_unlogged hdistinct, hsources⟩

end Layout

section

variable {words : List String} {root : List Setting} {vectors : Option (List Setting)}

/-- The filter of a line on which it was set in front. -/
theorem logLevel_ofSettings (root : List Setting) (vectors : Option (List Setting))
    (text : Option String) :
    (Options.ofSettings (unlogged root ++ (text.map Setting.logLevel).toList)
      (vectors.map unlogged)).logLevel = text.getD standardLogLevel := by
  unfold Options.ofSettings
  dsimp only
  rw [← List.append_assoc, unlogged_rows, List.findSome?_append, findSome?_unlogged_eq_none ?_]
  · cases text with
    | none => rfl
    | some text => rfl
  · intro setting hlog
    cases setting <;> first | rfl | exact absurd rfl hlog

/-- **A line can be given any filter**, or none, and agrees with what it was apart from that. -/
theorem exists_logged (hline : Line.ofWords words = .ok (.run root vectors)) (text : Option String) :
    ∃ words' root' vectors', Line.ofWords words' = .ok (.run root' vectors')
      ∧ SameButLog root root' vectors vectors'
      ∧ (Options.ofSettings root' vectors').logLevel = text.getD standardLogLevel := by
  -- The filters that the line sets are taken away, and the new one is put in front.
  obtain ⟨layout, hfits, rfl⟩ := Layout.exists_layout hline
  obtain ⟨hsound, rfl, rfl⟩ := (Layout.ofWords_words_iff hfits).1 hline
  obtain ⟨hroot, hvectors⟩ := layout.settingsOf_logging text
  refine ⟨(layout.logging text).words, _, _,
    (Layout.ofWords_words_iff (hfits.logging text)).2 ⟨hsound.logging text, rfl, rfl⟩, ?_, ?_⟩
  · rw [hroot, hvectors]
    refine ⟨?_, ?_⟩
    · rw [unlogged_append, unlogged_unlogged]
      cases text with
      | none => exact (List.append_nil _).symm
      | some text => exact (List.append_nil _).symm
    · cases layout.vectors.map settingsOf with
      | none => rfl
      | some settings => exact congrArg some (unlogged_unlogged settings).symm
  · rw [hroot, hvectors]
    exact logLevel_ofSettings _ _ text

end

/-! ## §3. Runs with another filter. -/

section

variable {options options' : Options} {environment environment' : Option String}
  {filter filter' : Log.Filter}

/-- **Runs from one seed** whose options agree apart from the filter are the same, if both filters can
be read: nothing is drawn from either system, and no event decides anything. -/
theorem run_eq_of_options {seed : Nat} (hseed : options.seed = some seed)
    (hoptions : options' = { options with logLevel := options'.logLevel })
    (hfilter : options.filter environment = some filter)
    (hfilter' : options'.filter environment' = some filter') (fuel : Nat) {σ σ' : Type} [Source σ]
    [Source σ'] (system : σ) (system' : σ') (files : Files) :
    options'.run fuel system' environment' files = options.run fuel system environment files := by
  have hseed' : options'.seed = some seed := by
    rw [hoptions]
    exact hseed
  -- Only the filter itself is read from what differs.
  have hplan : (options'.plan fuel files.readText : Draw KeyStream _ _)
      = options.plan fuel files.readText := by
    rw [hoptions]
    rfl
  rw [run_of_seed hseed, run_of_seed hseed', Options.runFrom, Options.runFrom, hfilter, hfilter',
    hplan]

/-- The lines that a run shows. -/
theorem logLines_of_filter (hfilter : options.filter environment = some filter) (outcome : Outcome) :
    options.logLines environment outcome
      = (outcome.events.filter filter.admits).map Log.Event.line := by
  rw [Options.logLines, hfilter]

/-- A filter that admits no less shows no fewer lines, and in the same order. -/
theorem sublist_of_admits (events : List Log.Event)
    (h : ∀ event, filter.admits event = true → filter'.admits event = true) :
    ((events.filter filter.admits).map Log.Event.line).Sublist
      ((events.filter filter'.admits).map Log.Event.line) :=
  (List.monotone_filter_right events h).map _

end

/-- A line with a seed is a run from a seed. -/
theorem exists_seed_of_mem {root : List Setting} {vectors : Option (List Setting)} {seed : Nat}
    (h : .seed seed ∈ vectors.getD [] ++ root) :
    ∃ seed', (Options.ofSettings root vectors).seed = some seed' := by
  rw [← Option.isSome_iff_exists]
  unfold Options.ofSettings
  dsimp only
  rw [List.findSome?_isSome_iff]
  exact ⟨_, h, rfl⟩

/-- **Logging never interferes.**  A line that begins a run from a seed can be given any filter for its
log.  Let it and another line agree apart from that, and let the filters that decide for either, the
environment's or the line's, be written as levels and targets.  Then both runs end in the same way,
whatever their systems provide: with the same exit code, the same text printed, the same error, the
same files, and the same events.  Each shows those of the events that its filter admits, which is
decided by the longest name that their target begins with; so the filter of the finest level shows all
of them, and one with finer levels never shows fewer. -/
theorem logging_never_interferes {words : List String} {root : List Setting}
    {vectors : Option (List Setting)} {seed : Nat}
    (hline : Line.ofWords words = .ok (.run root vectors))
    (hseed : .seed seed ∈ vectors.getD [] ++ root) :
    (∀ text : Option String, ∃ words' root' vectors',
      Line.ofWords words' = .ok (.run root' vectors') ∧ SameButLog root root' vectors vectors'
        ∧ (Options.ofSettings root' vectors').logLevel = text.getD standardLogLevel)
    ∧ ∀ words' root' vectors', Line.ofWords words' = .ok (.run root' vectors') →
      SameButLog root root' vectors vectors' →
      ∀ environment environment' filter filter',
        Log.Chosen environment (Options.ofSettings root vectors).logLevel filter →
        Log.Chosen environment' (Options.ofSettings root' vectors').logLevel filter' →
        ∀ fuel (σ σ' : Type) [Source σ] [Source σ'] (system : σ) (system' : σ') files,
          ∃ outcome files',
          (Options.ofSettings root vectors).run fuel system environment files = (outcome, files')
          ∧ (Options.ofSettings root' vectors').run fuel system' environment' files
            = (outcome, files')
          ∧ (Options.ofSettings root vectors).logLines environment outcome
            = (outcome.events.filter filter.admits).map Log.Event.line
          ∧ (∀ event, filter.admits event = true ↔ Log.Shows filter event)
          ∧ (filter' = Log.everything →
            (Options.ofSettings root' vectors').logLines environment' outcome
              = outcome.events.map Log.Event.line)
          ∧ (List.Forall₂ Log.Raised filter filter' →
            ((Options.ofSettings root vectors).logLines environment outcome).Sublist
              ((Options.ofSettings root' vectors').logLines environment' outcome)) := by
  refine ⟨exists_logged hline, ?_⟩
  intro words' root' vectors' _ hsame environment environment' filter filter' hchosen hchosen' fuel
    σ σ' _ _ system system' files
  obtain ⟨seed', hseed'⟩ := exists_seed_of_mem hseed
  have hfilter : (Options.ofSettings root vectors).filter environment = some filter :=
    Log.choose_of_chosen hchosen
  have hfilter' : (Options.ofSettings root' vectors').filter environment' = some filter' :=
    Log.choose_of_chosen hchosen'
  have hrun := run_eq_of_options hseed' (ofSettings_eq_of_sameButLog hsame) hfilter hfilter' fuel
    system system' files
  refine ⟨_, _, rfl, hrun, logLines_of_filter hfilter _, ?_, ?_, ?_⟩
  · exact fun event => Log.admits_iff_shows hchosen.simple
  · rintro rfl
    rw [logLines_of_filter hfilter', List.filter_eq_self.2 fun event _ => Log.admits_everything event]
  · intro hraised
    rw [logLines_of_filter hfilter, logLines_of_filter hfilter']
    exact sublist_of_admits _ fun event => Log.admits_of_raised hraised

/-- A filter that shows nothing but the steps of the program itself. -/
def stepsOnly : Log.Filter := [⟨none, none, none, 0⟩, ⟨some "primegen", none, none, 3⟩]

theorem writesFilter_stepsOnly : Log.WritesFilter "off,primegen=info" stepsOnly := by
  have hname : Log.IsTarget "primegen".toList := by
    refine ⟨⟨'p', rfl, by decide⟩, by simp, ?_, ?_⟩
    · rintro c ⟨⟩
      decide
    · rintro c ⟨⟩
      decide
  refine ⟨["off".toList, "primegen".toList ++ '=' :: "info".toList], ?_, by decide⟩
  exact .cons (.level (by decide) (by decide)) (.cons (.targetLevel hname (by decide)) .nil)

/-- A run with this filter, and the same run with the finest level in its environment and a system that
serves nothing. -/
theorem logging_never_interferes_seed_seven :
    Line.ofWords ["--seed", "7", "--log-level", "off,primegen=info"]
        = .ok (.run [.logLevel "off,primegen=info", .seed 7] none)
      ∧ Line.ofWords ["--seed", "7"] = .ok (.run [.seed 7] none)
      ∧ ∃ outcome files',
        (Options.ofSettings [.logLevel "off,primegen=info", .seed 7] none).run 5 (KeyStream.ofSeed 1)
            none ⟨[], []⟩ = (outcome, files')
          ∧ (Options.ofSettings [.seed 7] none).run 5 (⟨"no device"⟩ : Failing) (some "trace") ⟨[], []⟩
            = (outcome, files')
          ∧ (Options.ofSettings [.logLevel "off,primegen=info", .seed 7] none).logLines none outcome
            = (outcome.events.filter stepsOnly.admits).map Log.Event.line
          ∧ (Options.ofSettings [.seed 7] none).logLines (some "trace") outcome
            = outcome.events.map Log.Event.line := by
  have hline : Line.ofWords ["--seed", "7", "--log-level", "off,primegen=info"]
      = .ok (.run [.logLevel "off,primegen=info", .seed 7] none) := by decide +kernel
  have hline' : Line.ofWords ["--seed", "7"] = .ok (.run [.seed 7] none) := by decide +kernel
  have hseed : .seed 7 ∈ (none : Option (List Setting)).getD [] ++
      [.logLevel "off,primegen=info", .seed 7] := by decide
  obtain ⟨outcome, files', hrun, hrun', hlines, -, hall, -⟩ :=
    (logging_never_interferes hline hseed).2 _ _ _ hline' ⟨rfl, rfl⟩ none (some "trace") _ _
      (.option writesFilter_stepsOnly) (.environment Log.writesFilter_trace) 5 KeyStream Failing
      (KeyStream.ofSeed 1) ⟨"no device"⟩ ⟨[], []⟩
  exact ⟨hline, hline', outcome, files', hrun, hrun', hlines, hall rfl⟩

end ProbablePrime.Command
