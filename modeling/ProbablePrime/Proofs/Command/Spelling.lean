/-
  ProbablePrime.Proofs.Command.Spelling — the ways to write an option with its value.

  Behind its long name the value is a word of its own, or it stands behind the sign `=`.  The file of
  the test vectors has a short name besides, and there the value may follow without a sign.

  However they are written, the options of a side are taken one after the other, each with its value;
  and whatever words a side was taken from, they are options written in these ways.

  Main results:
    * `ofString_eq_option_iff` — the words that are read as options;
    * `takeSide_eq_ok_iff` — what is taken is what was written in these ways;
    * `takeSide_row_eq_ok_iff` — the settings that they come to.
-/
import ProbablePrime.Proofs.Command.Settings

namespace ProbablePrime.Command

/-! ## §1. Options as they are written. -/

/-- How the value of an option is written. -/
inductive Spelling where
  /-- Behind the long name, as a word of its own. -/
  | apart
  /-- Behind the long name and the sign `=`. -/
  | joined
  /-- Behind the short name, as a word of its own. -/
  | shortApart
  /-- Behind the short name and the sign `=`. -/
  | shortJoined
  /-- Behind the short name. -/
  | attached
  deriving DecidableEq, Repr

namespace Spelling

/-- The spelling serves for the option, seen that the value may be written in it at all: only one
option has a short name, and behind that a sign `=` would not be taken as part of the value. -/
def Serves (opt : Opt) (value : String) : Spelling → Prop
  | apart | joined => True
  | shortApart | shortJoined => opt = .output
  | attached => opt = .output ∧ value.toList.head? ≠ some '='

/-- The value may be written in the spelling: a word of its own can be told from an option, and what
follows a short name is not empty. -/
def Holds (value : String) : Spelling → Prop
  | apart | shortApart => canBeValue value = true
  | attached => value.toList ≠ []
  | joined | shortJoined => True

end Spelling

/-- An option on a line. -/
inductive Item where
  /-- The option `--verify`, which has no value. -/
  | verify
  /-- An option with its value. -/
  | valued (opt : Opt) (value : String) (spelling : Spelling)
  deriving DecidableEq, Repr

namespace Item

/-- The option. -/
def opt : Item → Opt
  | verify => .verify
  | valued opt _ _ => opt

/-- The words in which an option is written. -/
def words : Item → List String
  | verify => ["--verify"]
  | valued opt value .apart => ["--" ++ opt.name, value]
  | valued opt value .joined => ["--" ++ opt.name ++ "=" ++ value]
  | valued _ value .shortApart => ["-o", value]
  | valued _ value .shortJoined => ["-o=" ++ value]
  | valued _ value .attached => ["-o" ++ value]

/-- The option may stand on the side, in the way in which it is written. -/
def Fits (side : Side) (item : Item) : Prop :=
  item.opt ∈ Opt.ofSide side ∧
    match item with
    | verify => True
    | valued opt value spelling => opt ≠ .verify ∧ spelling.Serves opt value ∧ spelling.Holds value

/-- The setting that an option makes, if it takes its value. -/
def setting? : Item → Option Setting
  | verify => some .verify
  | valued opt value _ => opt.setTo? value.toList

/-- Adds the setting of an option to those of its side. -/
def add (settings : List Setting) : Item → Except UsageError (List Setting)
  | verify => addSetting settings .verify
  | valued opt value _ => addValue settings opt value.toList

end Item

/-! ## §2. Words that are read as options. -/

/-- The text of a word that an option is written in, with its value if the word holds one. -/
inductive Written (side : Side) : List Char → Opt → Option (List Char) → Prop
  /-- The long name. -/
  | name {opt : Opt} : opt ∈ Opt.ofSide side → Written side ('-' :: '-' :: opt.name.toList) opt none
  /-- The long name, and a value behind the sign `=`. -/
  | joined {opt : Opt} {value : List Char} : opt ∈ Opt.ofSide side →
      Written side ('-' :: '-' :: (opt.name.toList ++ '=' :: value)) opt (some value)
  /-- The short name. -/
  | shortName : side = .vectors → Written side ['-', 'o'] .output none
  /-- The short name, and a value behind the sign `=`. -/
  | shortJoined {value : List Char} : side = .vectors →
      Written side ('-' :: 'o' :: '=' :: value) .output (some value)
  /-- The short name and a value. -/
  | attached {value : List Char} : side = .vectors → value ≠ [] → value.head? ≠ some '=' →
      Written side ('-' :: 'o' :: value) .output (some value)

/-- No two options have the same name. -/
theorem name_injective {opt opt' : Opt} (h : opt.name = opt'.name) : opt = opt' := by
  cases opt <;> cases opt' <;> first | rfl | exact absurd h (by decide)

/-- What is found by a name has the name, and may stand on the side. -/
theorem mem_ofSide_of_find? {side : Side} {name : List Char} {opt : Opt}
    (h : Opt.find? side name = some opt) : opt ∈ Opt.ofSide side ∧ opt.name.toList = name := by
  refine ⟨List.mem_of_find?_eq_some h, ?_⟩
  simpa using List.find?_some h

/-- A name is found on the sides where its option may stand. -/
theorem find?_name {side : Side} {opt : Opt} (h : opt ∈ Opt.ofSide side) :
    Opt.find? side opt.name.toList = some opt := by
  have hsome : (Opt.find? side opt.name.toList).isSome := by
    rw [Opt.find?, List.find?_isSome]
    exact ⟨opt, h, beq_self_eq_true _⟩
  obtain ⟨opt', hfind⟩ := Option.isSome_iff_exists.1 hsome
  have hname := (mem_ofSide_of_find? hfind).2
  rw [hfind, name_injective (String.toList_inj.1 hname)]

/-- The name of an option has no sign `=` in it. -/
theorem ne_sign_of_mem_name {opt : Opt} {c : Char} (hc : c ∈ opt.name.toList) :
    (c != '=') = true := by
  have hnot : '=' ∉ opt.name.toList := by
    cases opt <;> decide
  exact bne_iff_ne.2 fun heq => hnot (heq ▸ hc)

theorem name_ne_nil (opt : Opt) : opt.name.toList ≠ [] := by
  cases opt <;> decide

/-- A text is cut at its first sign `=`. -/
theorem splitValue_eq_iff {text name : List Char} {value : Option (List Char)}
    (hname : ∀ c ∈ name, (c != '=') = true) :
    splitValue text = (name, value) ↔ text = name ++ (value.map ('=' :: ·)).getD [] := by
  constructor
  · intro h
    obtain ⟨rfl, rfl⟩ := Prod.mk.inj h
    have htext := (List.takeWhile_append_dropWhile (p := (· != '=')) (l := text)).symm
    cases hback : text.dropWhile (· != '=') with
    | nil => simpa [hback] using htext
    | cons c back =>
      have hsign : c = '=' := by
        have hnot := List.head?_dropWhile_not (· != '=') text
        simpa [hback] using hnot
      rw [hback, hsign] at htext
      exact htext
  · rintro rfl
    cases value with
    | none =>
      simp [splitValue, List.takeWhile_eq_self_iff.2 hname, List.dropWhile_eq_nil_iff.2 hname]
    | some value =>
      simp [splitValue, List.takeWhile_append_of_pos hname, List.dropWhile_append_of_pos hname]

/-- Behind two hyphens stand the name of an option of this side, and perhaps a value. -/
theorem ofLong_eq_option_iff {side : Side} {word : String} {text : List Char} {opt : Opt}
    {value : Option (List Char)} :
    Word.ofLong side word text = .ok (.option opt value)
      ↔ opt ∈ Opt.ofSide side ∧ text = opt.name.toList ++ (value.map ('=' :: ·)).getD [] := by
  rw [← splitValue_eq_iff fun c => ne_sign_of_mem_name]
  unfold Word.ofLong
  constructor
  · intro h
    dsimp only at h
    split at h
    · next opt' hfind =>
      obtain ⟨rfl, rfl⟩ := Word.option.inj (Except.ok.inj h)
      obtain ⟨hside, hname⟩ := mem_ofSide_of_find? hfind
      exact ⟨hside, Prod.ext hname.symm rfl⟩
    · split at h
      · split at h
        · cases h
        · cases h
      · split at h
        · split at h
          · cases h
          · cases h
        · cases h
  · rintro ⟨hside, hsplit⟩
    simp only [hsplit, find?_name hside]

/-- Behind one hyphen stands the short name, and perhaps a value. -/
theorem ofShort_eq_option_iff {side : Side} {word : String} {letter : Char} {text : List Char}
    {opt : Opt} {value : Option (List Char)} :
    Word.ofShort side word letter text = .ok (.option opt value)
      ↔ letter = 'o' ∧ side = .vectors ∧ opt = .output
        ∧ (text = (value.map ('=' :: ·)).getD []
          ∨ value = some text ∧ text ≠ [] ∧ text.head? ≠ some '=') := by
  constructor
  · intro h
    unfold Word.ofShort at h
    split at h
    · cases h
    · split at h
      · cases h
      · split at h
        · next hletter =>
          refine ⟨hletter.1, hletter.2, ?_⟩
          split at h
          · obtain ⟨rfl, rfl⟩ := Word.option.inj (Except.ok.inj h)
            exact ⟨rfl, Or.inl rfl⟩
          · obtain ⟨rfl, rfl⟩ := Word.option.inj (Except.ok.inj h)
            exact ⟨rfl, Or.inl rfl⟩
          · next hnil hsign =>
            obtain ⟨rfl, rfl⟩ := Word.option.inj (Except.ok.inj h)
            refine ⟨rfl, Or.inr ⟨rfl, hnil, ?_⟩⟩
            intro hhead
            obtain ⟨value, hvalue⟩ := List.head?_eq_some_iff.1 hhead
            exact hsign value hvalue
        · cases h
  · rintro ⟨rfl, rfl, rfl, htext⟩
    unfold Word.ofShort
    rw [if_neg (by decide), if_neg (by decide), if_pos (by decide)]
    rcases htext with rfl | ⟨rfl, hnil, hsign⟩
    · cases value with
      | none => rfl
      | some value => rfl
    · split
      · exact absurd rfl hnil
      · exact absurd rfl hsign
      · rfl

/-- **The words that are read as options.** -/
theorem ofString_eq_option_iff {side : Side} {word : String} {opt : Opt}
    {value : Option (List Char)} :
    Word.ofString side word = .ok (.option opt value) ↔ Written side word.toList opt value := by
  unfold Word.ofString
  constructor
  · intro h
    split at h
    · cases h
    · next text _ hword =>
      obtain ⟨hside, rfl⟩ := ofLong_eq_option_iff.1 h
      rw [hword]
      cases value with
      | none =>
        rw [Option.map_none, Option.getD_none, List.append_nil]
        exact .name hside
      | some value => exact .joined hside
    · next letter text _ hword =>
      obtain ⟨rfl, hside, rfl, rfl | ⟨rfl, hnil, hsign⟩⟩ := ofShort_eq_option_iff.1 h
      · rw [hword]
        cases value with
        | none => exact .shortName hside
        | some value => exact .shortJoined hside
      · rw [hword]
        exact .attached hside hnil hsign
    · cases h
  · intro h
    generalize htext : word.toList = text at h
    cases h with
    | name hside =>
      have hlong : Word.ofLong side word opt.name.toList = .ok (.option opt none) :=
        ofLong_eq_option_iff.2 ⟨hside, (List.append_nil _).symm⟩
      cases hname : opt.name.toList with
      | nil => exact absurd hname (name_ne_nil opt)
      | cons c name =>
        rw [hname] at hlong
        exact hlong
    | @joined _ value hside =>
      have hlong : Word.ofLong side word (opt.name.toList ++ '=' :: value)
          = .ok (.option opt (some value)) := ofLong_eq_option_iff.2 ⟨hside, rfl⟩
      cases hname : opt.name.toList with
      | nil => exact absurd hname (name_ne_nil opt)
      | cons c name =>
        rw [hname] at hlong
        exact hlong
    | shortName hside => exact ofShort_eq_option_iff.2 ⟨rfl, hside, rfl, Or.inl rfl⟩
    | shortJoined hside => exact ofShort_eq_option_iff.2 ⟨rfl, hside, rfl, Or.inl rfl⟩
    | attached hside hnil hsign =>
      exact ofShort_eq_option_iff.2 ⟨rfl, hside, rfl, Or.inr ⟨rfl, hnil, hsign⟩⟩

/-! ## §3. Options that are taken. -/

section

variable {side : Side} {item : Item} {items : List Item} {settings settings' : List Setting}
  {words : List String}

/-- The file of the test vectors is named behind the word `vectors` only. -/
theorem output_mem_ofSide_iff : .output ∈ Opt.ofSide side ↔ side = .vectors := by
  cases side <;> decide

/-- An option whose value follows as a word of its own. -/
theorem takeSide_apart {word value : String} {opt : Opt} (hword : Written side word.toList opt none)
    (hopt : opt ≠ .verify) (hvalue : canBeValue value = true) :
    takeSide side settings (word :: value :: words)
      = (addValue settings opt value.toList).bind fun settings => takeSide side settings words := by
  rw [takeSide.eq_def]
  simp only [ofString_eq_option_iff.2 hword]
  cases opt with
  | verify => exact absurd rfl hopt
  | _ =>
    simp only [if_pos hvalue]
    cases addValue settings _ value.toList with
    | error e => rfl
    | ok settings => rfl

/-- An option whose value stands in the same word. -/
theorem takeSide_joined {word : String} {opt : Opt} {value : List Char}
    (hword : Written side word.toList opt (some value)) (hopt : opt ≠ .verify) :
    takeSide side settings (word :: words)
      = (addValue settings opt value).bind fun settings => takeSide side settings words := by
  rw [takeSide.eq_def]
  simp only [ofString_eq_option_iff.2 hword]
  cases opt with
  | verify => exact absurd rfl hopt
  | _ =>
    cases addValue settings _ value with
    | error e => rfl
    | ok settings => rfl

/-- The sign for `--verify` adds that setting. -/
theorem takeSide_verify (hside : .verify ∈ Opt.ofSide side) :
    takeSide side settings ("--verify" :: words)
      = (addSetting settings .verify).bind fun settings => takeSide side settings words := by
  have hword : Word.ofString side "--verify" = .ok (.option .verify none) :=
    ofString_eq_option_iff.2 (.name hside)
  rw [takeSide.eq_def]
  simp only [hword]
  cases addSetting settings .verify with
  | error e => rfl
  | ok settings => rfl

/-- **An option is taken with its value**, however it is written. -/
theorem takeSide_item (hfits : item.Fits side) :
    takeSide side settings (item.words ++ words)
      = (item.add settings).bind fun settings => takeSide side settings words := by
  cases item with
  | verify => exact takeSide_verify hfits.1
  | valued opt value spelling =>
    obtain ⟨hside, hopt, hserves, hholds⟩ := hfits
    have hlong : ("--" ++ opt.name).toList = '-' :: '-' :: opt.name.toList := by
      rw [String.toList_append]
      rfl
    cases spelling with
    | apart => exact takeSide_apart (hlong ▸ .name hside) hopt hholds
    | joined =>
      refine takeSide_joined ?_ hopt
      rw [String.toList_append, String.toList_append, hlong]
      exact List.append_assoc _ _ _ ▸ .joined hside
    | shortApart =>
      obtain rfl := hserves
      exact takeSide_apart (.shortName (output_mem_ofSide_iff.1 hside)) hopt hholds
    | shortJoined =>
      obtain rfl := hserves
      refine takeSide_joined ?_ hopt
      rw [String.toList_append]
      exact .shortJoined (output_mem_ofSide_iff.1 hside)
    | attached =>
      obtain ⟨rfl, hsign⟩ := hserves
      refine takeSide_joined ?_ hopt
      rw [String.toList_append]
      exact .attached (output_mem_ofSide_iff.1 hside) hholds hsign

/-- **Options are taken one after the other.** -/
theorem takeSide_items (hfits : ∀ item ∈ items, item.Fits side) :
    takeSide side settings (items.flatMap Item.words ++ words)
      = (items.foldlM Item.add settings).bind fun settings => takeSide side settings words := by
  induction items generalizing settings with
  | nil => rfl
  | cons item items ih =>
    rw [List.flatMap_cons, List.append_assoc, takeSide_item (hfits item List.mem_cons_self),
      List.foldlM_cons]
    cases item.add settings with
    | error e => rfl
    | ok settings => exact ih fun other hother => hfits other (List.mem_cons_of_mem item hother)

/-! ## §4. What was taken. -/

/-- A value in the same word was written in one of the ways. -/
theorem exists_item_of_joined {word : String} {opt : Opt} {value : List Char}
    (hword : Written side word.toList opt (some value)) (hopt : opt ≠ .verify) :
    ∃ item : Item, item.Fits side ∧ item.words = [word]
      ∧ ∀ settings, item.add settings = addValue settings opt value := by
  have hadd (spelling : Spelling) (settings : List Setting) :
      (Item.valued opt (String.ofList value) spelling).add settings = addValue settings opt value := by
    rw [Item.add, String.toList_ofList]
  generalize htext : word.toList = text at hword
  cases hword with
  | joined hside =>
    refine ⟨.valued opt (String.ofList value) .joined, ⟨hside, hopt, trivial, trivial⟩, ?_, hadd _⟩
    rw [Item.words, List.singleton_inj, ← String.toList_inj, htext]
    simp only [String.toList_append, String.toList_ofList]
    show ['-', '-'] ++ opt.name.toList ++ ['='] ++ value = _
    simp
  | shortJoined hside =>
    refine ⟨.valued .output (String.ofList value) .shortJoined,
      ⟨output_mem_ofSide_iff.2 hside, hopt, rfl, trivial⟩, ?_, hadd _⟩
    rw [Item.words, List.singleton_inj, ← String.toList_inj, htext]
    simp only [String.toList_append, String.toList_ofList]
    rfl
  | attached hside hnil hsign =>
    refine ⟨.valued .output (String.ofList value) .attached,
      ⟨output_mem_ofSide_iff.2 hside, hopt, ⟨rfl, ?_⟩, ?_⟩, ?_, hadd _⟩
    · rw [String.toList_ofList]
      exact hsign
    · show (String.ofList value).toList ≠ []
      rw [String.toList_ofList]
      exact hnil
    · rw [Item.words, List.singleton_inj, ← String.toList_inj, htext]
      simp only [String.toList_append, String.toList_ofList]
      rfl

/-- So was a value that is a word of its own. -/
theorem exists_item_of_apart {word value : String} {opt : Opt}
    (hword : Written side word.toList opt none) (hopt : opt ≠ .verify)
    (hvalue : canBeValue value = true) :
    ∃ item : Item, item.Fits side ∧ item.words = [word, value]
      ∧ ∀ settings, item.add settings = addValue settings opt value.toList := by
  generalize htext : word.toList = text at hword
  cases hword with
  | name hside =>
    refine ⟨.valued opt value .apart, ⟨hside, hopt, trivial, hvalue⟩, ?_, fun _ => rfl⟩
    rw [Item.words, List.cons.injEq, ← String.toList_inj, htext, String.toList_append]
    exact ⟨rfl, rfl⟩
  | shortName hside =>
    refine ⟨.valued .output value .shortApart, ⟨output_mem_ofSide_iff.2 hside, hopt, rfl, hvalue⟩, ?_,
      fun _ => rfl⟩
    rw [Item.words, List.cons.injEq, ← String.toList_inj, htext]
    exact ⟨rfl, rfl⟩

/-- What is behind the options of a side. -/
inductive Behind (side : Side) : List String → Option (String × List String) → Prop
  /-- Nothing. -/
  | nothing : Behind side [] none
  /-- The end of the options, and nothing behind that. -/
  | closed : Behind side ["--"] none
  /-- A word that is no option. -/
  | word {word : String} {words : List String} : Word.ofString side word = .ok (.plain word) →
      Behind side (word :: words) (some (word, words))

/-- Where the options have come to an end, nothing more is taken. -/
theorem takeSide_behind {rest : Option (String × List String)} (h : Behind side words rest) :
    takeSide side settings words = .ok (.settings settings rest) := by
  rw [takeSide.eq_def]
  cases h with
  | nothing => rfl
  | closed => rfl
  | word hword => simp only [hword]

/-- A word with hyphens in front and more behind them is an option, or asks for help or the version. -/
theorem ofLong_eq_ok {word : String} {text : List Char} {read : Word}
    (h : Word.ofLong side word text = .ok read) :
    (∃ opt value, read = .option opt value) ∨ read = .help ∨ read = .version := by
  unfold Word.ofLong at h
  dsimp only at h
  split at h
  · exact Or.inl ⟨_, _, (Except.ok.inj h).symm⟩
  · split at h
    · split at h
      · cases h
      · exact Or.inr (Or.inl (Except.ok.inj h).symm)
    · split at h
      · split at h
        · cases h
        · exact Or.inr (Or.inr (Except.ok.inj h).symm)
      · cases h

theorem ofShort_eq_ok {word : String} {letter : Char} {text : List Char} {read : Word}
    (h : Word.ofShort side word letter text = .ok read) :
    (∃ opt value, read = .option opt value) ∨ read = .help ∨ read = .version := by
  unfold Word.ofShort at h
  split at h
  · exact Or.inr (Or.inl (Except.ok.inj h).symm)
  · split at h
    · exact Or.inr (Or.inr (Except.ok.inj h).symm)
    · split at h
      · split at h
        · exact Or.inl ⟨_, _, (Except.ok.inj h).symm⟩
        · exact Or.inl ⟨_, _, (Except.ok.inj h).symm⟩
        · exact Or.inl ⟨_, _, (Except.ok.inj h).symm⟩
      · cases h

/-- Any other word is the end of the options, or handed on as it is. -/
theorem ofString_cases {word : String} {read : Word} (h : Word.ofString side word = .ok read) :
    word = "--" ∧ read = .endOfOptions ∨ read = .plain word
      ∨ (∃ opt value, read = .option opt value) ∨ read = .help ∨ read = .version := by
  unfold Word.ofString at h
  split at h
  · next hword => exact Or.inl ⟨String.toList_inj.1 hword, (Except.ok.inj h).symm⟩
  · exact Or.inr (Or.inr (ofLong_eq_ok h))
  · exact Or.inr (Or.inr (ofShort_eq_ok h))
  · exact Or.inr (Or.inl (Except.ok.inj h).symm)

theorem ofString_eq_plain {word word' : String} (h : Word.ofString side word = .ok (.plain word')) :
    word = word' := by
  simpa [eq_comm] using ofString_cases h

theorem ofString_eq_endOfOptions {word : String}
    (h : Word.ofString side word = .ok .endOfOptions) : word = "--" := by
  simpa using ofString_cases h

/-- **A side is taken where it consists of options that are written in these ways**, each of which adds
its setting. -/
theorem takeSide_eq_ok_iff {rest : Option (String × List String)} :
    takeSide side settings words = .ok (.settings settings' rest)
      ↔ ∃ (items : List Item) (tail : List String), (∀ item ∈ items, item.Fits side)
        ∧ words = items.flatMap Item.words ++ tail ∧ Behind side tail rest
        ∧ items.foldlM Item.add settings = .ok settings' := by
  constructor
  · intro h
    -- An option that was added stands in front of those that are taken behind it.
    have hmore (first : List String) {words : List String} {settings settings₁ : List Setting}
        (hitem : ∃ item : Item, item.Fits side ∧ item.words = first
          ∧ item.add settings = .ok settings₁)
        (hrest : ∃ (items : List Item) (tail : List String), (∀ item ∈ items, item.Fits side)
          ∧ words = items.flatMap Item.words ++ tail ∧ Behind side tail rest
          ∧ items.foldlM Item.add settings₁ = .ok settings') :
        ∃ (items : List Item) (tail : List String), (∀ item ∈ items, item.Fits side)
          ∧ first ++ words = items.flatMap Item.words ++ tail ∧ Behind side tail rest
          ∧ items.foldlM Item.add settings = .ok settings' := by
      obtain ⟨item, hitem, rfl, hadd⟩ := hitem
      obtain ⟨items, tail, hfits, rfl, hbehind, hrest⟩ := hrest
      refine ⟨item :: items, tail, ?_, ?_, hbehind, ?_⟩
      · exact List.forall_mem_cons.2 ⟨hitem, hfits⟩
      · rw [List.flatMap_cons, List.append_assoc]
      · rw [List.foldlM_cons, hadd]
        exact hrest
    fun_induction takeSide side settings words with
    | case1 settings =>
      obtain ⟨rfl, rfl⟩ := Taken.settings.inj (Except.ok.inj h)
      exact ⟨[], [], by simp, rfl, .nothing, rfl⟩
    | case5 settings word words other hword =>
      obtain ⟨rfl, rfl⟩ := Taken.settings.inj (Except.ok.inj h)
      obtain rfl := ofString_eq_plain hword
      exact ⟨[], word :: words, by simp, rfl, .word hword, rfl⟩
    | case6 settings word hword =>
      obtain ⟨rfl, rfl⟩ := Taken.settings.inj (Except.ok.inj h)
      obtain rfl := ofString_eq_endOfOptions hword
      exact ⟨[], ["--"], by simp, rfl, .closed, rfl⟩
    | case9 settings word words hword settings₁ hadd ih =>
      have hwritten := ofString_eq_option_iff.1 hword
      generalize htext : word.toList = text at hwritten
      cases hwritten with
      | name hside =>
        refine hmore [word] ⟨.verify, ⟨hside, trivial⟩, ?_, hadd⟩ (ih h)
        rw [Item.words, List.singleton_inj, ← String.toList_inj, htext]
        rfl
    | case12 settings word words opt value hopt hword settings₁ hadd ih =>
      obtain ⟨item, hfits, hwords, hitem⟩ :=
        exists_item_of_joined (ofString_eq_option_iff.1 hword) hopt
      exact hmore [word] ⟨item, hfits, hwords, (hitem settings).trans hadd⟩ (ih h)
    | case15 settings word opt hopt hword value words hvalue settings₁ hadd ih =>
      obtain ⟨item, hfits, hwords, hitem⟩ :=
        exists_item_of_apart (ofString_eq_option_iff.1 hword) hopt hvalue
      exact hmore [word, value] ⟨item, hfits, hwords, (hitem settings).trans hadd⟩ (ih h)
    | case2 | case3 | case4 | case7 | case8 | case10 | case11 | case13 | case14 | case16 => cases h
  · rintro ⟨items, tail, hfits, rfl, hbehind, hadd⟩
    rw [takeSide_items hfits, hadd]
    exact takeSide_behind hbehind

/-! ## §5. The settings of a side. -/

/-- The settings that options make, the last one first. -/
def settingsOf (items : List Item) : List Setting := (items.filterMap Item.setting?).reverse

/-- An option is added where it makes a setting that is not there yet. -/
theorem add_eq_ok {settings₁ : List Setting} :
    item.add settings = .ok settings₁
      ↔ ∃ setting, item.setting? = some setting ∧ addSetting settings setting = .ok settings₁ := by
  cases item with
  | verify => simp [Item.add, Item.setting?]
  | valued opt value spelling => exact addValue_eq_ok

/-- The setting that an option makes is one of that option. -/
theorem opt_of_setting? {setting : Setting} (h : item.setting? = some setting) :
    setting.opt = item.opt := by
  cases item with
  | verify =>
    obtain rfl := Option.some.inj h
    rfl
  | valued opt value spelling => exact opt_of_setTo? h

theorem settingsOf_cons {setting : Setting} (h : item.setting? = some setting) :
    settingsOf (item :: items) = settingsOf items ++ [setting] := by
  rw [settingsOf, List.filterMap_cons_some h, List.reverse_cons]
  rfl

/-- **Options are added where each of them makes a setting and no two are alike**, and what comes of it
are their settings. -/
theorem foldlM_add_eq_ok (hdistinct : Distinct settings) :
    items.foldlM Item.add settings = .ok settings'
      ↔ (∀ item ∈ items, item.setting?.isSome) ∧ settings' = settingsOf items ++ settings
        ∧ Distinct settings' := by
  induction items generalizing settings with
  | nil =>
    constructor
    · intro h
      obtain rfl := Except.ok.inj h
      exact ⟨by simp, rfl, hdistinct⟩
    · rintro ⟨-, rfl, -⟩
      rfl
  | cons item items ih =>
    rw [List.foldlM_cons, List.forall_mem_cons]
    constructor
    · intro h
      cases hadd : item.add settings with
      | error e =>
        rw [hadd] at h
        cases h
      | ok settings₁ =>
        rw [hadd] at h
        obtain ⟨setting, hsetting, hfirst⟩ := add_eq_ok.1 hadd
        have hdistinct₁ := distinct_of_addSetting hdistinct hfirst
        obtain ⟨-, rfl⟩ := addSetting_eq_ok.1 hfirst
        obtain ⟨hitems, rfl, hresult⟩ := (ih hdistinct₁).1 h
        refine ⟨⟨Option.isSome_of_eq_some hsetting, hitems⟩, ?_, hresult⟩
        rw [settingsOf_cons hsetting, List.append_assoc]
        rfl
    · rintro ⟨⟨hitem, hitems⟩, hsettings, hresult⟩
      obtain ⟨setting, hsetting⟩ := Option.isSome_iff_exists.1 hitem
      rw [settingsOf_cons hsetting, List.append_assoc, List.singleton_append] at hsettings
      -- What is distinct as a whole was so when this setting was added.
      have hdistinct₁ : Distinct (setting :: settings) := by
        rw [hsettings, Distinct, List.map_append] at hresult
        exact hresult.of_append_right
      have hadd : item.add settings = .ok (setting :: settings) := by
        refine add_eq_ok.2 ⟨setting, hsetting, addSetting_eq_ok.2 ⟨?_, rfl⟩⟩
        rw [Distinct, List.map_cons, List.nodup_cons, List.mem_map] at hdistinct₁
        rw [List.any_eq_false]
        intro other hother
        simpa using fun heq => hdistinct₁.1 ⟨other, hother, heq⟩
      rw [hadd]
      exact (ih hdistinct₁).2 ⟨hitems, hsettings, hresult⟩

theorem settingsOf_append (items items' : List Item) :
    settingsOf (items ++ items') = settingsOf items' ++ settingsOf items := by
  rw [settingsOf, List.filterMap_append, List.reverse_append]
  rfl

theorem mem_settingsOf {setting : Setting} :
    setting ∈ settingsOf items ↔ ∃ item ∈ items, item.setting? = some setting := by
  rw [settingsOf, List.mem_reverse, List.mem_filterMap]

/-- Options that differ make settings that differ. -/
theorem distinct_settingsOf (h : (items.map Item.opt).Nodup) : Distinct (settingsOf items) := by
  have hsublist : ((items.filterMap Item.setting?).map Setting.opt).Sublist (items.map Item.opt) := by
    induction items with
    | nil => exact .slnil
    | cons item items ih =>
      rw [List.map_cons, List.nodup_cons] at h
      cases hsetting : item.setting? with
      | none =>
        rw [List.filterMap_cons_none hsetting, List.map_cons]
        exact (ih h.2).cons _
      | some setting =>
        rw [List.filterMap_cons_some hsetting, List.map_cons, List.map_cons, opt_of_setting? hsetting]
        exact (ih h.2).cons_cons _
  rw [Distinct, settingsOf, List.map_reverse, List.nodup_reverse]
  exact h.sublist hsublist

/-- **A row of options, and what is behind it.** -/
theorem takeSide_row_eq_ok_iff {tail : List String} {rest rest' : Option (String × List String)}
    (hfits : ∀ item ∈ items, item.Fits side) (hbehind : Behind side tail rest) :
    takeSide side [] (items.flatMap Item.words ++ tail) = .ok (.settings settings rest')
      ↔ rest' = rest ∧ (∀ item ∈ items, item.setting?.isSome) ∧ settings = settingsOf items
        ∧ Distinct (settingsOf items) := by
  rw [takeSide_items hfits]
  constructor
  · intro h
    cases hadd : items.foldlM Item.add [] with
    | error e =>
      rw [hadd] at h
      cases h
    | ok added =>
      rw [hadd] at h
      obtain ⟨rfl, rfl⟩ := Taken.settings.inj (Except.ok.inj ((takeSide_behind hbehind).symm.trans h))
      obtain ⟨hitems, rfl, hdistinct⟩ := (foldlM_add_eq_ok distinct_nil).1 hadd
      rw [List.append_nil] at hdistinct ⊢
      exact ⟨rfl, hitems, rfl, hdistinct⟩
  · rintro ⟨rfl, hitems, rfl, hdistinct⟩
    have hadd : items.foldlM Item.add [] = .ok (settingsOf items) :=
      (foldlM_add_eq_ok distinct_nil).2 ⟨hitems, (List.append_nil _).symm, hdistinct⟩
    rw [hadd]
    exact takeSide_behind hbehind

end

end ProbablePrime.Command
