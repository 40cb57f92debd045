/-
  ProbablePrime.Proofs.Log.Clauses — filters that are written as levels and targets.

  A clause is a level, a target, or a target with a level behind the sign `=`; a filter is written as
  clauses with commas in between.  Each clause is read as one directive, and the text as a whole is the
  filter of these, whether it is read strictly or leniently.

  Main results:
    * `alphanum_of_detail?` — the characters in which a level is written;
    * `ofText_of_writes` — a clause is read as its directive;
    * `choose_of_chosen` — the filter of a run that is written as clauses.
-/
import ProbablePrime.Log.Filter
import ProbablePrime.Proofs.Text.Splitting
import ProbablePrime.Proofs.Vectors.ListForm

namespace ProbablePrime

namespace Log

/-! ## §1. Levels. -/

/-- The code points of letters and digits. -/
theorem toNat_of_isAlphanum {c : Char} (h : c.isAlphanum = true) :
    48 ≤ c.toNat ∧ c.toNat ≤ 57 ∨ 65 ≤ c.toNat ∧ c.toNat ≤ 90 ∨ 97 ≤ c.toNat ∧ c.toNat ≤ 122 := by
  have hval : c.toNat = c.val.toNat := rfl
  simp [Char.isAlphanum, Char.isAlpha, Char.isUpper, Char.isLower, Char.isDigit,
    UInt32.le_iff_toNat_le] at h
  omega

/-- Letters and digits are not blank. -/
theorem isBlank_of_isAlphanum {c : Char} (h : c.isAlphanum = true) : Text.isBlank c = false := by
  have hcode := toNat_of_isAlphanum h
  simp [Text.isBlank, Text.CharTable.holds, Text.blankTable]
  omega

/-- A directive may begin with a letter or a digit. -/
theorem beginsWord_of_isAlphanum {c : Char} (h : c.isAlphanum = true) :
    Directive.beginsWord c = true := by
  have hholds {table : Text.CharTable} {first last : Nat} (hrange : (first, last) ∈ table)
      (hfirst : first ≤ c.toNat) (hlast : c.toNat ≤ last) : table.holds c = true := by
    rw [Text.CharTable.holds, List.any_eq_true]
    exact ⟨_, hrange, by simp [hfirst, hlast]⟩
  have halphabetic (h : Text.isAlphabetic c = true) : Directive.beginsWord c = true := by
    simp [Directive.beginsWord, h]
  rcases toNat_of_isAlphanum h with ⟨hfirst, hlast⟩ | ⟨hfirst, hlast⟩ | ⟨hfirst, hlast⟩
  · have hnumeric : Text.isNumeric c = true := hholds (by decide) hfirst hlast
    simp [Directive.beginsWord, hnumeric]
  · exact halphabetic (hholds (by decide) hfirst hlast)
  · exact halphabetic (hholds (by decide) hfirst hlast)

/-- A character that is a letter or a digit in its small form is one as it is. -/
theorem isAlphanum_of_toLower {c : Char} (h : c.toLower.isAlphanum = true) :
    c.isAlphanum = true := by
  unfold Char.toLower at h
  split at h
  · next hrange =>
    have hupper : c.isUpper = true := by
      simpa [Char.isUpper] using hrange
    simp [Char.isAlphanum, Char.isAlpha, hupper]
  · exact h

/-- A sign stands in front of the digits, or the digits are the whole text. -/
theorem unsigned_cases (text : List Char) : text = '+' :: unsigned text ∨ unsigned text = text := by
  unfold unsigned
  split
  · exact Or.inl rfl
  · exact Or.inr rfl

/-- The names of the levels are written in letters. -/
theorem alphanum_of_mem_levelNames {name : String × Nat} (h : name ∈ levelNames) :
    name.1.toList ≠ [] ∧ ∀ c ∈ name.1.toList, c.isAlphanum = true := by
  have hall : (levelNames.all fun name =>
      !name.1.toList.isEmpty && name.1.toList.all Char.isAlphanum) = true := by decide
  have hname := List.all_eq_true.1 hall name h
  rw [Bool.and_eq_true, Bool.not_eq_true', List.isEmpty_eq_false_iff, List.all_eq_true] at hname
  exact hname

/-- A level is written in letters and digits, with a sign in front perhaps. -/
theorem alphanum_of_detail? {text : List Char} {detail : Nat} (h : detail? text = some detail) :
    text ≠ [] ∧ ∀ c ∈ text, c = '+' ∨ c.isAlphanum = true := by
  unfold detail? at h
  dsimp only at h
  split at h
  · next hdigits =>
    rw [Bool.and_eq_true, Bool.not_eq_true', List.isEmpty_eq_false_iff, List.all_eq_true] at hdigits
    obtain ⟨hne, hdigits⟩ := hdigits
    have halphanum (c : Char) (hc : c ∈ unsigned text) : c.isAlphanum = true := by
      simp [Char.isAlphanum, hdigits c hc]
    rcases unsigned_cases text with hsign | hwhole
    · rw [hsign]
      refine ⟨List.cons_ne_nil _ _, List.forall_mem_cons.2 ⟨Or.inl rfl, ?_⟩⟩
      exact fun c hc => Or.inr (halphanum c hc)
    · rw [hwhole] at hne halphanum
      exact ⟨hne, fun c hc => Or.inr (halphanum c hc)⟩
  · obtain ⟨front, back, hnames, -⟩ := List.lookup_eq_some_iff.1 h
    have hmem : (String.ofList (text.map Char.toLower), detail) ∈ levelNames :=
      hnames ▸ List.mem_append_right _ List.mem_cons_self
    obtain ⟨hne, halphanum⟩ := alphanum_of_mem_levelNames hmem
    rw [String.toList_ofList] at hne halphanum
    refine ⟨fun hnil => hne (by rw [hnil]; rfl), fun c hc => Or.inr ?_⟩
    exact isAlphanum_of_toLower (halphanum c.toLower (List.mem_map_of_mem hc))

/-! ## §2. Clauses. -/

/-- A text that names a target: it begins like a word, none of its characters ends it, and no blanks
are around it. -/
structure IsTarget (name : List Char) : Prop where
  /-- The first character may begin a directive. -/
  begins : ∃ c ∈ name.head?, Directive.beginsWord c = true
  /-- No character has a meaning for the filter. -/
  signs : ∀ c ∈ name, c ≠ ',' ∧ c ≠ '=' ∧ c ≠ '['
  /-- The first character is not blank. -/
  front : ∀ c ∈ name.head?, Text.isBlank c = false
  /-- The last one is not. -/
  back : ∀ c ∈ name.getLast?, Text.isBlank c = false

/-- A clause writes a directive. -/
inductive Writes : List Char → Directive → Prop
  /-- A level, without a sign in front. -/
  | level {text : List Char} {detail : Nat} : detail? text = some detail → text.head? ≠ some '+' →
      Writes text ⟨none, none, none, detail⟩
  /-- A target that is not the name of a level; everything is shown of it. -/
  | target {name : List Char} : IsTarget name → detail? name = none →
      Writes name ⟨some (String.ofList name), none, none, Level.trace.detail⟩
  /-- A target with a level. -/
  | targetLevel {name level : List Char} {detail : Nat} : IsTarget name →
      detail? level = some detail →
      Writes (name ++ '=' :: level) ⟨some (String.ofList name), none, none, detail⟩

/-- A text writes a filter as clauses with commas in between. -/
def WritesFilter (text : String) (filter : Filter) : Prop :=
  ∃ clauses, List.Forall₂ Writes clauses filter
    ∧ text = String.ofList ([','].intercalate clauses)

/-! ## §3. Reading a clause. -/

/-- A text without blanks at its ends is left as it is. -/
theorem trim_eq_self {text : List Char} (hfront : ∀ c ∈ text.head?, Text.isBlank c = false)
    (hback : ∀ c ∈ text.getLast?, Text.isBlank c = false) : Text.trim text = text :=
  Vectors.Trimmed.trim_eq ⟨[], [], by simp, by simp, by simp, hfront, hback⟩

/-- What is written in letters and digits, with a sign perhaps, has no blanks in it, and no character
that has a meaning for the filter. -/
theorem plain_of_alphanum {c : Char} (h : c = '+' ∨ c.isAlphanum = true) :
    Text.isBlank c = false ∧ c ≠ ',' ∧ c ≠ '=' ∧ c ≠ '[' := by
  rcases h with rfl | h
  · decide
  · refine ⟨isBlank_of_isAlphanum h, ?_, ?_, ?_⟩
    all_goals
      rintro rfl
      exact absurd h (by decide)

/-- A word without a sign for a level or a span is a level or a target. -/
theorem readWord_of_plain {word : List Char} (h : ∀ c ∈ word, c ≠ '=' ∧ c ≠ '[') :
    Directive.readWord word word
      = match detail? word with
        | some detail => .ok ⟨none, none, none, detail⟩
        | none => .ok ⟨some (String.ofList word), none, none, Level.trace.detail⟩ := by
  have hback : word.dropWhile (fun c => !(c == '=' || c == '[')) = [] := by
    rw [List.dropWhile_eq_nil_iff]
    intro c hc
    obtain ⟨hsign, hbracket⟩ := h c hc
    simp [hsign, hbracket]
  unfold Directive.readWord
  cases detail? word with
  | none => simp only [hback]
  | some detail => simp only [hback]

/-- A target in front of the sign `=`, and the level behind it. -/
theorem readWord_of_level {name level : List Char} {detail : Nat}
    (h : ∀ c ∈ name, c ≠ '=' ∧ c ≠ '[') (hlevel : detail? level = some detail) :
    Directive.readWord (name ++ '=' :: level) (name ++ '=' :: level)
      = .ok ⟨some (String.ofList name), none, none, detail⟩ := by
  have hname : ∀ c ∈ name, (!(c == '=' || c == '[')) = true := by
    intro c hc
    obtain ⟨hsign, hbracket⟩ := h c hc
    simp [hsign, hbracket]
  have hfront : (name ++ '=' :: level).takeWhile (fun c => !(c == '=' || c == '[')) = name := by
    rw [List.takeWhile_append_of_pos hname]
    simp
  have hback : (name ++ '=' :: level).dropWhile (fun c => !(c == '=' || c == '['))
      = '=' :: level := by
    rw [List.dropWhile_append_of_pos hname]
    simp
  have hwhole : Text.dropBytes? 0 (name ++ '=' :: level) = some (name ++ '=' :: level) :=
    Text.dropBytes?_append [] _
  have hcut : Directive.cut (name ++ '=' :: level) 0 (Text.byteSize name) = .ok name := by
    rw [Directive.cut, hwhole, Option.bind_some, Nat.sub_zero, Text.takeBytes?_append]
  -- The level stands behind the target and one character of one byte.
  have hbehind : Text.dropBytes? (Text.byteSize name + 1) (name ++ '=' :: level) = some level := by
    have hdrop := Text.dropBytes?_append (name ++ ['=']) level
    rw [Text.byteSize_append, List.append_assoc] at hdrop
    exact hdrop
  have hread : Directive.readLevel (name ++ '=' :: level) (Text.byteSize name + 1) = .ok detail := by
    unfold Directive.readLevel
    rw [hbehind]
    cases level with
    | nil => exact absurd rfl (alphanum_of_detail? hlevel).1
    | cons c level => simp only [hlevel]
  unfold Directive.readWord
  dsimp only
  rw [hfront, hback]
  simp only [hcut, hread]
  rfl

/-- A text that begins like a word, without blanks at its ends, is read as one. -/
theorem ofText_of_word {text : List Char} (hbegins : ∃ c ∈ text.head?, Directive.beginsWord c = true)
    (hbracket : text.head? ≠ some '[') (hfront : ∀ c ∈ text.head?, Text.isBlank c = false)
    (hback : ∀ c ∈ text.getLast?, Text.isBlank c = false) :
    Directive.ofText text = Directive.readWord text text := by
  obtain ⟨c, hc, hword⟩ := hbegins
  obtain ⟨rest, rfl⟩ := List.head?_eq_some_iff.1 hc
  have hne : c ≠ '[' := fun heq => hbracket (heq ▸ rfl)
  rw [Directive.ofText, trim_eq_self hfront hback]
  dsimp only
  rw [if_neg hne, if_pos hword]

/-- **A clause is read as its directive.** -/
theorem ofText_of_writes {clause : List Char} {directive : Directive}
    (h : Writes clause directive) : Directive.ofText clause = .ok directive := by
  cases h with
  | level hlevel hplus =>
    obtain ⟨hne, halphanum⟩ := alphanum_of_detail? hlevel
    have hplain (c : Char) (hc : c ∈ clause) := plain_of_alphanum (halphanum c hc)
    rw [ofText_of_word, readWord_of_plain fun c hc => (hplain c hc).2.2, hlevel]
    -- Without a sign in front, the level begins with a letter or a digit.
    · obtain ⟨c, hc⟩ := Option.ne_none_iff_exists'.1 fun hnone => hne (List.head?_eq_none_iff.1 hnone)
      have hletter := (halphanum c (List.mem_of_mem_head? hc)).resolve_left fun heq => hplus (heq ▸ hc)
      exact ⟨c, hc, beginsWord_of_isAlphanum hletter⟩
    · exact fun hbracket => (hplain '[' (List.mem_of_mem_head? hbracket)).2.2.2 rfl
    · exact fun c hc => (hplain c (List.mem_of_mem_head? hc)).1
    · exact fun c hc => (hplain c (List.mem_of_mem_getLast? hc)).1
  | target hname hlevel =>
    rw [ofText_of_word hname.begins _ hname.front hname.back,
      readWord_of_plain fun c hc => (hname.signs c hc).2, hlevel]
    exact fun hbracket => (hname.signs '[' (List.mem_of_mem_head? hbracket)).2.2 rfl
  | @targetLevel name level detail hname hlevel =>
    obtain ⟨hne, halphanum⟩ := alphanum_of_detail? hlevel
    have hhead : (name ++ '=' :: level).head? = name.head? := by
      obtain ⟨c, hc, -⟩ := hname.begins
      rw [List.head?_append, Option.mem_def.1 hc]
      rfl
    have hlast : (name ++ '=' :: level).getLast? = level.getLast? := by
      rw [List.append_cons, List.getLast?_append_of_ne_nil _ hne]
    rw [ofText_of_word, readWord_of_level (fun c hc => (hname.signs c hc).2) hlevel]
    · exact hhead ▸ hname.begins
    · rw [hhead]
      exact fun hbracket => (hname.signs '[' (List.mem_of_mem_head? hbracket)).2.2 rfl
    · exact hhead ▸ hname.front
    · rw [hlast]
      exact fun c hc => (plain_of_alphanum (halphanum c (List.mem_of_mem_getLast? hc))).1

/-- A clause is not empty, and no comma stands in it. -/
theorem comma_of_writes {clause : List Char} {directive : Directive}
    (h : Writes clause directive) : clause ≠ [] ∧ ',' ∉ clause := by
  cases h with
  | level hlevel hplus =>
    obtain ⟨hne, halphanum⟩ := alphanum_of_detail? hlevel
    exact ⟨hne, fun hcomma => (plain_of_alphanum (halphanum ',' hcomma)).2.1 rfl⟩
  | target hname hlevel =>
    refine ⟨?_, fun hcomma => (hname.signs ',' hcomma).1 rfl⟩
    rintro rfl
    obtain ⟨c, hc, -⟩ := hname.begins
    cases hc
  | @targetLevel name level detail hname hlevel =>
    refine ⟨by simp, fun hcomma => ?_⟩
    rcases List.mem_append.1 hcomma with hcomma | hcomma
    · exact (hname.signs ',' hcomma).1 rfl
    · rcases List.mem_cons.1 hcomma with heq | hcomma
      · exact absurd heq (by decide)
      · exact (plain_of_alphanum ((alphanum_of_detail? hlevel).2 ',' hcomma)).2.1 rfl

/-! ## §4. Reading a filter. -/

/-- The parts of a text that writes a filter are its clauses. -/
theorem pieces_of_writes {clauses : List (List Char)} {filter : Filter}
    (h : List.Forall₂ Writes clauses filter) :
    Filter.pieces (String.ofList ([','].intercalate clauses)) = clauses := by
  have hcomma : ∀ clause ∈ clauses, clause ≠ [] ∧ ',' ∉ clause := by
    induction h with
    | nil => simp
    | cons hwrites _ ih => exact List.forall_mem_cons.2 ⟨comma_of_writes hwrites, ih⟩
  have hsplit : (String.ofList ([','].intercalate clauses)).splitOn ","
      = (([','].intercalate clauses).splitOn ',').map String.ofList := by
    have hsingle : "," = String.singleton ',' := rfl
    rw [hsingle, Text.splitOn_singleton, String.toList_ofList]
    rfl
  have hlist : (String.toList ∘ String.ofList : List Char → List Char) = id :=
    funext fun text => String.toList_ofList
  rw [Filter.pieces, hsplit, List.map_map, hlist, List.map_id]
  by_cases hnil : clauses = []
  · rw [hnil]
    rfl
  · rw [List.splitOn_intercalate ',' (fun clause hclause => (hcomma clause hclause).2) hnil,
      List.filter_eq_self]
    intro clause hclause
    simpa using (hcomma clause hclause).1

/-- **A text that writes a filter is read as that filter**, strictly. -/
theorem ofText_of_writesFilter {text : String} {filter : Filter} (h : WritesFilter text filter) :
    Filter.ofText text = .ok filter := by
  obtain ⟨clauses, hclauses, rfl⟩ := h
  rw [Filter.ofText, pieces_of_writes hclauses]
  induction hclauses with
  | nil => rfl
  | cons hwrites _ ih =>
    rw [List.mapM_cons, ofText_of_writes hwrites, ih]
    rfl

/-- **It is read so leniently, too**: no clause is passed over. -/
theorem ofTextLenient_of_writesFilter {text : String} {filter : Filter}
    (h : WritesFilter text filter) : Filter.ofTextLenient text = some filter := by
  obtain ⟨clauses, hclauses, rfl⟩ := h
  have hmap : clauses.mapM Filter.directiveIfAny = some (filter.map some) := by
    induction hclauses with
    | nil => rfl
    | cons hwrites _ ih =>
      rw [List.mapM_cons, Filter.directiveIfAny, ofText_of_writes hwrites, ih]
      rfl
  rw [Filter.ofTextLenient, pieces_of_writes hclauses, hmap, Option.map_some, List.filterMap_map]
  simp

/-- The text that decides about the filter of a run writes it: that of the environment, if there is one,
and that of the option otherwise. -/
inductive Chosen : Option String → String → Filter → Prop
  /-- The environment sets a filter. -/
  | environment {text option : String} {filter : Filter} : WritesFilter text filter →
      Chosen (some text) option filter
  /-- It sets none. -/
  | option {text : String} {filter : Filter} : WritesFilter text filter → Chosen none text filter

/-- **The filter of a run** is the one that is written. -/
theorem choose_of_chosen {environment : Option String} {option : String} {filter : Filter}
    (h : Chosen environment option filter) : Filter.choose environment option = some filter := by
  unfold Filter.choose
  cases h with
  | environment hwrites =>
    rw [Option.map_some, ofText_of_writesFilter hwrites]
  | option hwrites =>
    rw [Option.map_none]
    exact ofTextLenient_of_writesFilter hwrites

end Log

end ProbablePrime
