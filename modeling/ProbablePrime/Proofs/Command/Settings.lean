/-
  ProbablePrime.Proofs.Command.Settings — the settings of a line that is understood.

  On each side of the word `vectors` no option is set twice: a setting is added only behind a look at
  those that are there already.  So it does not matter where among the settings of a side one looks
  for an option, and what a line says about it is what the run goes by.

  Main results:
    * `keeps_of_takeSide` — an invariant of the adding of a setting holds of all that a side sets;
    * `distinct_of_takeSide` — the settings of a side are distinct;
    * `ofWords_eq_run_iff` — the lines that begin a run;
    * `ofWords_verify_cons` — a line with `--verify` put in front;
    * `ofSettings_congr` — what lines with the same settings have in common;
    * `vectorsTask_of_mem` — the task of a line that names a directory and a file.
-/
import Mathlib
import ProbablePrime.Command.Options

namespace ProbablePrime.Command

/-! ## §1. What the taking of words keeps. -/

/-- A setting is added where its option was not set, in front of the others. -/
theorem addSetting_eq_ok {settings settings' : List Setting} {setting : Setting} :
    addSetting settings setting = .ok settings'
      ↔ settings.any (·.opt = setting.opt) = false ∧ setting :: settings = settings' := by
  unfold addSetting
  cases settings.any (·.opt = setting.opt) with
  | true => simp
  | false => simp

/-- A value is added as the setting that it stands for. -/
theorem addValue_eq_ok {settings settings' : List Setting} {opt : Opt} {value : List Char} :
    addValue settings opt value = .ok settings'
      ↔ ∃ setting, opt.setTo? value = some setting ∧ addSetting settings setting = .ok settings' := by
  unfold addValue
  cases opt.setTo? value with
  | none => simp
  | some setting => simp

/-- **What the adding of a setting keeps, the taking of words keeps.** -/
theorem keeps_of_takeSide {P : List Setting → Prop}
    (hkeeps : ∀ (settings settings' : List Setting) (setting : Setting), P settings →
      addSetting settings setting = .ok settings' → P settings')
    {side : Side} {settings settings' : List Setting} {words : List String}
    {rest : Option (String × List String)} (hstart : P settings)
    (h : takeSide side settings words = .ok (.settings settings' rest)) : P settings' := by
  -- Values behind an option and behind the sign `=` are added in the same way.
  have hvalue {settings settings' : List Setting} {opt : Opt} {value : List Char}
      (hstart : P settings) (h : addValue settings opt value = .ok settings') : P settings' := by
    obtain ⟨setting, -, hadd⟩ := addValue_eq_ok.1 h
    exact hkeeps _ _ setting hstart hadd
  fun_induction takeSide side settings words with
  -- The words have come to an end, or to a word that is no option.
  | case1 | case5 | case6 =>
    obtain ⟨rfl, -⟩ := Taken.settings.inj (Except.ok.inj h)
    exact hstart
  -- A setting was added, and more words are taken.
  | case9 settings word words _ settings' hadd ih => exact ih (hkeeps _ _ _ hstart hadd) h
  | case12 settings word words opt value _ _ settings' hadd ih => exact ih (hvalue hstart hadd) h
  | case15 settings word opt _ _ value words _ settings' hadd ih => exact ih (hvalue hstart hadd) h
  -- The line is refused, or it asks for something else.
  | case2 | case3 | case4 | case7 | case8 | case10 | case11 | case13 | case14 | case16 => cases h

/-! ## §2. Distinct settings. -/

/-- No option is set twice. -/
def Distinct (settings : List Setting) : Prop := (settings.map Setting.opt).Nodup

theorem distinct_nil : Distinct [] := List.nodup_nil

theorem distinct_of_addSetting {settings settings' : List Setting} {setting : Setting}
    (hdistinct : Distinct settings) (h : addSetting settings setting = .ok settings') :
    Distinct settings' := by
  obtain ⟨hnew, rfl⟩ := addSetting_eq_ok.1 h
  rw [Distinct, List.map_cons, List.nodup_cons]
  refine ⟨?_, hdistinct⟩
  intro hmem
  obtain ⟨other, hother, hopt⟩ := List.mem_map.1 hmem
  exact List.any_eq_false.1 hnew other hother (decide_eq_true hopt)

/-- **The settings of a side stay distinct** while its words are taken. -/
theorem distinct_of_takeSide {side : Side} {settings settings' : List Setting} {words : List String}
    {rest : Option (String × List String)} (hdistinct : Distinct settings)
    (h : takeSide side settings words = .ok (.settings settings' rest)) : Distinct settings' :=
  keeps_of_takeSide (fun _ _ _ => distinct_of_addSetting) hdistinct h

/-- Behind the word `help` no run begins. -/
theorem takeHelp_ne_run {words : List String} {root : List Setting}
    {vectors : Option (List Setting)} : takeHelp words ≠ .ok (.run root vectors) := by
  intro h
  unfold takeHelp at h
  split at h
  · cases h
  · cases h
  · cases h
  · cases h

/-- Behind the word `vectors` a run begins where all words there are taken, and name one source. -/
theorem takeVectors_eq_run_iff {words : List String} {root root' : List Setting}
    {vectors : Option (List Setting)} :
    takeVectors root words = .ok (.run root' vectors)
      ↔ root = root' ∧ ∃ settings, vectors = some settings
        ∧ takeSide .vectors [] words = .ok (.settings settings none)
        ∧ checkSources settings = .ok () := by
  unfold takeVectors
  constructor
  · intro h
    split at h
    · cases h
    · cases h
    · cases h
    · cases h
    · next settings htaken =>
      split at h
      · cases h
      · next hsources =>
        obtain ⟨rfl, rfl⟩ := Line.run.inj (Except.ok.inj h)
        exact ⟨rfl, settings, rfl, htaken, hsources⟩
  · rintro ⟨rfl, settings, rfl, htaken, hsources⟩
    simp only [htaken, hsources]

/-- **A line that begins a run** has either no word besides its options, or the word `vectors` and
behind it the options that name a source. -/
theorem ofWords_eq_run_iff {words : List String} {root : List Setting}
    {vectors : Option (List Setting)} :
    Line.ofWords words = .ok (.run root vectors)
      ↔ vectors = none ∧ takeSide .root [] words = .ok (.settings root none)
        ∨ ∃ settings rest, vectors = some settings
          ∧ takeSide .root [] words = .ok (.settings root (some ("vectors", rest)))
          ∧ takeSide .vectors [] rest = .ok (.settings settings none)
          ∧ checkSources settings = .ok () := by
  unfold Line.ofWords
  constructor
  · intro h
    split at h
    · cases h
    · cases h
    · cases h
    · next htaken =>
      obtain ⟨rfl, rfl⟩ := Line.run.inj (Except.ok.inj h)
      exact Or.inl ⟨rfl, htaken⟩
    · next settings' word rest htaken =>
      split at h
      · next hword =>
        obtain ⟨rfl, settings, hvectors, hbehind, hsources⟩ := takeVectors_eq_run_iff.1 h
        exact Or.inr ⟨settings, rest, hvectors, hword ▸ htaken, hbehind, hsources⟩
      · split at h
        · exact absurd h takeHelp_ne_run
        · cases h
  · rintro (⟨rfl, htaken⟩ | ⟨settings, rest, rfl, htaken, hbehind, hsources⟩)
    · simp only [htaken]
    · simp only [htaken, if_true]
      exact takeVectors_eq_run_iff.2 ⟨rfl, settings, rfl, hbehind, hsources⟩

/-- A line without the word `vectors` has taken all its words on one side. -/
theorem takeSide_root_of_ofWords {words : List String} {root : List Setting}
    (h : Line.ofWords words = .ok (.run root none)) :
    takeSide .root [] words = .ok (.settings root none) := by
  rcases ofWords_eq_run_iff.1 h with ⟨-, htaken⟩ | ⟨settings, rest, hnone, -⟩
  · exact htaken
  · cases hnone

/-- The settings of a line without the word `vectors` are distinct. -/
theorem distinct_root_of_ofWords {words : List String} {root : List Setting}
    (h : Line.ofWords words = .ok (.run root none)) : Distinct root :=
  distinct_of_takeSide distinct_nil (takeSide_root_of_ofWords h)

/-- The settings behind the word `vectors` are distinct. -/
theorem distinct_of_ofWords {words : List String} {root settings : List Setting}
    (h : Line.ofWords words = .ok (.run root (some settings))) : Distinct settings := by
  rcases ofWords_eq_run_iff.1 h with ⟨hsome, -⟩ | ⟨settings', rest, hsettings, -, htaken, -⟩
  · cases hsome
  · obtain rfl := Option.some.inj hsettings
    exact distinct_of_takeSide distinct_nil htaken

/-! ## §3. Lines with `--verify` in front. -/

/-- What is set stays set while words are taken. -/
theorem mem_of_takeSide {side : Side} {settings settings' : List Setting} {words : List String}
    {rest : Option (String × List String)} {setting : Setting} (hmem : setting ∈ settings)
    (h : takeSide side settings words = .ok (.settings settings' rest)) : setting ∈ settings' := by
  refine keeps_of_takeSide (fun settings settings' first hmem hadd => ?_) hmem h
  obtain ⟨-, rfl⟩ := addSetting_eq_ok.1 hadd
  exact List.mem_cons_of_mem first hmem

/-- What an option is set to is a setting of that option. -/
theorem opt_of_setTo? {opt : Opt} {value : List Char} {setting : Setting}
    (h : opt.setTo? value = some setting) : setting.opt = opt := by
  cases opt <;> simp only [Opt.setTo?, Option.map_eq_some_iff, reduceCtorEq, Option.some.injEq] at h
  case logLevel =>
    rw [← h]
    rfl
  all_goals
    obtain ⟨_, -, rfl⟩ := h
    rfl

/-- An option that takes a value is not the one that verifies. -/
theorem opt_ne_verify_of_setTo? {opt : Opt} {value : List Char} {setting : Setting}
    (h : opt.setTo? value = some setting) : setting.opt ≠ .verify := by
  rw [opt_of_setTo? h]
  rintro rfl
  cases h

/-- A value is added whether or not verifying is wanted as well. -/
theorem addValue_append_verify {settings settings' : List Setting} {opt : Opt} {value : List Char}
    (h : addValue settings opt value = .ok settings') :
    addValue (settings ++ [.verify]) opt value = .ok (settings' ++ [.verify]) := by
  obtain ⟨setting, hset, hadd⟩ := addValue_eq_ok.1 h
  obtain ⟨hnew, rfl⟩ := addSetting_eq_ok.1 hadd
  refine addValue_eq_ok.2 ⟨setting, hset, addSetting_eq_ok.2 ⟨?_, rfl⟩⟩
  have hne : decide (Setting.verify.opt = setting.opt) = false :=
    decide_eq_false fun heq => opt_ne_verify_of_setTo? hset heq.symm
  rw [List.any_append, hnew, List.any_cons, hne]
  rfl

/-- A side on which verifying is not asked for is taken in the same way behind that word. -/
theorem takeSide_append_verify {side : Side} {settings settings' : List Setting}
    {words : List String} {rest : Option (String × List String)}
    (h : takeSide side settings words = .ok (.settings settings' rest)) (hnot : .verify ∉ settings') :
    takeSide side (settings ++ [.verify]) words
      = .ok (.settings (settings' ++ [.verify]) rest) := by
  fun_induction takeSide side settings words with
  | case1 =>
    obtain ⟨rfl, rfl⟩ := Taken.settings.inj (Except.ok.inj h)
    rw [takeSide.eq_def]
  | case5 settings word words other hword =>
    obtain ⟨rfl, rfl⟩ := Taken.settings.inj (Except.ok.inj h)
    rw [takeSide.eq_def]
    simp only [hword]
  | case6 settings word hword =>
    obtain ⟨rfl, rfl⟩ := Taken.settings.inj (Except.ok.inj h)
    rw [takeSide.eq_def]
    simp only [hword]
  | case9 settings word words hword settings' hset ih =>
    -- Verifying was asked for, and stays so.
    obtain ⟨-, rfl⟩ := addSetting_eq_ok.1 hset
    exact absurd (mem_of_takeSide List.mem_cons_self h) hnot
  | case12 settings word words opt value hopt hword settings' hset ih =>
    rw [takeSide.eq_def]
    simp only [hword, addValue_append_verify hset]
    exact ih h
  | case15 settings word opt hopt hword value words hvalue settings' hset ih =>
    rw [takeSide.eq_def]
    simp only [hword, addValue_append_verify hset, hvalue, if_true]
    exact ih h
  | case2 | case3 | case4 | case7 | case8 | case10 | case11 | case13 | case14 | case16 => cases h

/-- **A line without the word `vectors` that does not verify is understood with `--verify` in front
of it**, and that is all that is set besides. -/
theorem ofWords_verify_cons {words : List String} {root : List Setting}
    (h : Line.ofWords words = .ok (.run root none)) (hnot : .verify ∉ root) :
    Line.ofWords ("--verify" :: words) = .ok (.run (root ++ [.verify]) none) := by
  have hword : Word.ofString .root "--verify" = .ok (.option .verify none) := by decide
  have htaken' : takeSide .root [] ("--verify" :: words)
      = .ok (.settings (root ++ [.verify]) none) := by
    rw [takeSide.eq_def]
    simp only [hword]
    exact takeSide_append_verify (takeSide_root_of_ofWords h) hnot
  unfold Line.ofWords
  rw [htaken']

/-! ## §4. Looking for a setting. -/

/-- Among distinct settings, the one that is looked for is found wherever it stands. -/
theorem findSome?_of_mem {α : Type} {find : Setting → Option α} {settings : List Setting}
    {setting : Setting} {a : α} (hdistinct : Distinct settings) (hmem : setting ∈ settings)
    (hfind : find setting = some a) (hother : ∀ other, other.opt ≠ setting.opt → find other = none) :
    settings.findSome? find = some a := by
  induction settings with
  | nil => simp at hmem
  | cons first settings ih =>
    rw [Distinct, List.map_cons, List.nodup_cons] at hdistinct
    obtain ⟨hfirst, hrest⟩ := hdistinct
    rcases List.mem_cons.1 hmem with rfl | hmem
    · rw [List.findSome?_cons, hfind]
    · have hne : first.opt ≠ setting.opt := by
        intro heq
        exact hfirst (heq ▸ List.mem_map_of_mem hmem)
      rw [List.findSome?_cons_of_isNone (by rw [hother first hne]; rfl)]
      exact ih hrest hmem

/-- Looking for an option in two rows of distinct settings finds the same, if they have the same
settings of that option. -/
theorem findSome?_congr {α : Type} (opt : Opt) {find : Setting → Option α}
    {settings settings' : List Setting} (hdistinct : Distinct settings)
    (hdistinct' : Distinct settings') (hother : ∀ other, other.opt ≠ opt → find other = none)
    (hsame : ∀ setting, setting.opt = opt → (setting ∈ settings ↔ setting ∈ settings')) :
    settings.findSome? find = settings'.findSome? find := by
  have hopt {setting : Setting} {a : α} (hfind : find setting = some a) : setting.opt = opt := by
    by_contra hne
    rw [hother setting hne] at hfind
    cases hfind
  by_cases hfound : ∃ setting ∈ settings, ∃ a, find setting = some a
  · obtain ⟨setting, hmem, a, hfind⟩ := hfound
    have hopt := hopt hfind
    rw [findSome?_of_mem hdistinct hmem hfind (hopt ▸ hother),
      findSome?_of_mem hdistinct' ((hsame setting hopt).1 hmem) hfind (hopt ▸ hother)]
  · have hnone (setting : Setting) (hmem : setting ∈ settings) : find setting = none := by
      rw [Option.eq_none_iff_forall_ne_some]
      exact fun a hfind => hfound ⟨setting, hmem, a, hfind⟩
    rw [List.findSome?_eq_none_iff.2 hnone, eq_comm, List.findSome?_eq_none_iff]
    intro setting hmem
    by_cases hkind : setting.opt = opt
    · exact hnone setting ((hsame setting hkind).2 hmem)
    · exact hother setting hkind

/-- **Lines with the same settings** differ in their task only, whatever the order of the settings and
the sides that they stand on; and verifying does not count. -/
theorem ofSettings_congr {root root' : List Setting} {vectors vectors' : Option (List Setting)}
    (hdistinct : Distinct (vectors.getD [] ++ root))
    (hdistinct' : Distinct (vectors'.getD [] ++ root'))
    (hsame : ∀ setting, setting.opt ≠ .verify →
      (setting ∈ vectors.getD [] ++ root ↔ setting ∈ vectors'.getD [] ++ root')) :
    Options.ofSettings root' vectors'
      = { Options.ofSettings root vectors with task := (Options.ofSettings root' vectors').task } := by
  have hfind {α : Type} (opt : Opt) (hopt : opt ≠ .verify) (find : Setting → Option α)
      (hother : ∀ other, other.opt ≠ opt → find other = none) :
      (vectors'.getD [] ++ root').findSome? find = (vectors.getD [] ++ root).findSome? find :=
    (findSome?_congr opt hdistinct hdistinct' hother fun setting hkind =>
      hsame setting (hkind ▸ hopt)).symm
  simp only [Options.ofSettings, Options.mk.injEq, Config.mk.injEq, and_true]
  have hnumber (standard : Nat) {found found' : Option Nat} (h : found = found') :
      found.getD standard = found'.getD standard := by rw [h]
  have htext {found found' : Option String} (h : found = found') :
      found.getD standardLogLevel = found'.getD standardLogLevel := by rw [h]
  refine ⟨⟨hnumber _ (hfind .bits (by decide) _ ?_), hnumber _ (hfind .rounds (by decide) _ ?_),
    hfind .maxAttempts (by decide) _ ?_⟩, hfind .seed (by decide) _ ?_,
    htext (hfind .logLevel (by decide) _ ?_)⟩
  all_goals
    intro other hother
    cases other <;> first | rfl | exact absurd rfl hother

/-- Lines without the word `vectors` that differ in verifying only differ in their task only. -/
theorem ofSettings_eq_of_same {root root' : List Setting} (hdistinct : Distinct root)
    (hdistinct' : Distinct root')
    (hsame : ∀ setting, setting.opt ≠ .verify → (setting ∈ root ↔ setting ∈ root')) :
    Options.ofSettings root' none
      = { Options.ofSettings root none with task := sampleTask root' } :=
  ofSettings_congr hdistinct hdistinct' hsame

/-- A line with a seed is a run from that seed. -/
theorem seed_of_mem {root : List Setting} {seed : Nat} (hdistinct : Distinct root)
    (hseed : .seed seed ∈ root) : (Options.ofSettings root none).seed = some seed := by
  refine findSome?_of_mem hdistinct hseed rfl ?_
  intro other hother
  cases other with
  | seed n => exact absurd rfl hother
  | _ => rfl

/-- A line that names a directory is a run from that directory. -/
theorem exists_vectorsTask_of_inputDir {settings : List Setting} {directory : String}
    (hdistinct : Distinct settings) (hdirectory : .inputDir directory ∈ settings) :
    ∃ output, vectorsTask settings = .vectors (.directory directory) output := by
  have hsource (find : Setting → Option String) (hfind : find (.inputDir directory) = some directory)
      (hother : ∀ other, other.opt ≠ .inputDir → find other = none) :
      settings.findSome? find = some directory :=
    findSome?_of_mem hdistinct hdirectory hfind hother
  unfold vectorsTask
  dsimp only
  rw [hsource _ rfl ?_]
  · exact ⟨_, rfl⟩
  · intro other hother
    cases other with
    | inputDir path => exact absurd rfl hother
    | _ => rfl

/-- **A line that names a directory and a file is a run from that directory to that file.** -/
theorem vectorsTask_of_mem {settings : List Setting} {directory output : String}
    (hdistinct : Distinct settings) (hdirectory : .inputDir directory ∈ settings)
    (houtput : .output output ∈ settings) :
    vectorsTask settings = .vectors (.directory directory) output := by
  obtain ⟨output', htask⟩ := exists_vectorsTask_of_inputDir hdistinct hdirectory
  have htarget (find : Setting → Option String) (hfind : find (.output output) = some output)
      (hother : ∀ other, other.opt ≠ .output → find other = none) :
      settings.findSome? find = some output :=
    findSome?_of_mem hdistinct houtput hfind hother
  rw [htask, Task.vectors.injEq]
  refine ⟨rfl, ?_⟩
  have hname := (Task.vectors.inj htask).2
  rw [htarget _ rfl ?_] at hname
  · exact hname.symm
  · intro other hother
    cases other with
    | output path => exact absurd rfl hother
    | _ => rfl

/-- **The task behind the word `vectors`** is the same where the settings of its own are. -/
theorem vectorsTask_congr {settings settings' : List Setting} (hdistinct : Distinct settings)
    (hdistinct' : Distinct settings')
    (hsame : ∀ setting, setting.opt ∉ Opt.global → (setting ∈ settings ↔ setting ∈ settings')) :
    vectorsTask settings' = vectorsTask settings := by
  have hfind {α : Type} (opt : Opt) (hopt : opt ∉ Opt.global) (find : Setting → Option α)
      (hother : ∀ other, other.opt ≠ opt → find other = none) :
      settings'.findSome? find = settings.findSome? find :=
    (findSome?_congr opt hdistinct hdistinct' hother fun setting hkind =>
      hsame setting (hkind ▸ hopt)).symm
  unfold vectorsTask
  dsimp only
  rw [hfind .inputDir (by decide) _ ?_, hfind .synthesize (by decide) _ ?_,
    hfind .output (by decide) _ ?_]
  all_goals
    intro other hother
    cases other <;> first | rfl | exact absurd rfl hother

end ProbablePrime.Command
