/-
  ProbablePrime.Proofs.Vectors.Directory — the lists of a directory, read in the order of the categories.

  Each list is the text of one file, and the file is that of its category.  The files are read one
  after another, and the first of them that cannot be read, or is no list of numbers, ends the loading
  with its own fault.  The files behind it are not looked at.

  Nothing is drawn for any of this: the session behind the loading differs from the one in front of it
  in the events of the lists that were read.

  Main results:
    * `readText_eq_ok_iff` and `readText_eq_error_iff` — what stands at a path decides what is read;
    * `runIn_load_of_lists` and `runIn_load_of_firstSpoiled` — the two ways to load a directory;
    * `load_eq_ok_iff` and `load_eq_error_iff` — which of them it is.
-/
import ProbablePrime.Proofs.Vectors.Classified

namespace ProbablePrime

/-! ## §1. What stands at a path. -/

namespace Files

variable {files : Files} {path : String}

/-- Why no text can be read at a path. -/
inductive Unreadable (files : Files) (path : String) : FileFault → Prop
  /-- The path is too long, or it does not lead anywhere. -/
  | astray {fault : FileFault} : files.walk path = .error fault → Unreadable files path fault
  /-- There is nothing at its end. -/
  | missing {name : List String} : files.walk path = .ok name → files.entry? name = none →
      Unreadable files path .notFound
  /-- There is a directory at its end. -/
  | directory {name : List String} : files.walk path = .ok name →
      files.entry? name = some .directory → Unreadable files path .isDirectory
  /-- There is a file at its end that is not text. -/
  | notText {name : List String} {content : ByteArray} : files.walk path = .ok name →
      files.entry? name = some (.file content) → String.fromUTF8? content = none →
      Unreadable files path .notText

/-- **A text is read where a file with it stands.** -/
theorem readText_eq_ok_iff {text : String} :
    files.readText path = .ok text
      ↔ ∃ name content, files.walk path = .ok name ∧ files.entry? name = some (.file content)
        ∧ String.fromUTF8? content = some text := by
  unfold readText read
  cases files.walk path with
  | error fault => simp [bind, Except.bind]
  | ok name =>
    match hentry : files.entry? name with
    | none => simp [bind, Except.bind, hentry]
    | some .directory => simp [bind, Except.bind, hentry]
    | some (.file content) =>
      cases htext : String.fromUTF8? content with
      | none => simp [bind, Except.bind, hentry, htext]
      | some text' => simp [bind, Except.bind, hentry, htext]

/-- **Where no text is read, there is a reason for it.** -/
theorem readText_eq_error_iff {fault : FileFault} :
    files.readText path = .error fault ↔ Unreadable files path fault := by
  constructor
  · intro h
    unfold readText read at h
    cases hwalk : files.walk path with
    | error fault' =>
      simp only [bind, Except.bind, hwalk, Except.error.injEq] at h
      exact .astray (h ▸ hwalk)
    | ok name =>
      match hentry : files.entry? name with
      | none =>
        simp only [bind, Except.bind, hwalk, hentry, Except.error.injEq] at h
        exact h ▸ .missing hwalk hentry
      | some .directory =>
        simp only [bind, Except.bind, hwalk, hentry, Except.error.injEq] at h
        exact h ▸ .directory hwalk hentry
      | some (.file content) =>
        cases htext : String.fromUTF8? content with
        | none =>
          simp only [bind, Except.bind, hwalk, hentry, htext, Except.error.injEq] at h
          exact h ▸ .notText hwalk hentry htext
        | some text => simp [bind, Except.bind, hwalk, hentry, htext] at h
  · intro h
    unfold readText read
    cases h with
    | astray hwalk => simp only [bind, Except.bind, hwalk]
    | missing hwalk hentry => simp only [bind, Except.bind, hwalk, hentry]
    | directory hwalk hentry => simp only [bind, Except.bind, hwalk, hentry]
    | notText hwalk hentry htext => simp only [bind, Except.bind, hwalk, hentry, htext]

end Files

namespace Vectors

variable {σ : Type} {files : Files} {directory : String} {category : Category} {numbers : List Nat}
  {session session' : Session σ}

/-! ## §2. One file. -/

/-- The path of the file of a category. -/
def pathOf (directory : String) (category : Category) : String :=
  Files.join directory category.fileName

/-- The file of the category is text, and the text is a list of these numbers. -/
def Lists (files : Files) (directory : String) (category : Category) (numbers : List Nat) : Prop :=
  ∃ text, files.readText (pathOf directory category) = .ok text ∧ parseList text = .ok numbers

/-- What is wrong with the file of the category. -/
inductive Spoiled (files : Files) (directory : String) (category : Category) : VectorError → Prop
  /-- No text can be read there, and the path is reported with the reason. -/
  | unread {fault : FileFault} : Files.Unreadable files (pathOf directory category) fault →
      Spoiled files directory category (.io (pathOf directory category) fault)
  /-- There is text, and it is no list of numbers. -/
  | unparsed {text : String} {cause : VectorError} :
      files.readText (pathOf directory category) = .ok text → parseList text = .error cause →
      Spoiled files directory category cause

theorem Lists.unique {numbers' : List Nat} (h : Lists files directory category numbers)
    (h' : Lists files directory category numbers') : numbers = numbers' := by
  obtain ⟨text, hread, hparse⟩ := h
  obtain ⟨text', hread', hparse'⟩ := h'
  obtain rfl := Except.ok.inj (hread.symm.trans hread')
  exact Except.ok.inj (hparse.symm.trans hparse')

/-- A file that reads the same in two snapshots holds the same list. -/
theorem Lists.of_same {files' : Files} (h : Lists files directory category numbers)
    (hsame : files'.readText (pathOf directory category)
      = files.readText (pathOf directory category)) : Lists files' directory category numbers := by
  obtain ⟨text, hread, hparse⟩ := h
  exact ⟨text, hsame.trans hread, hparse⟩

/-- A file holds a list, or something is wrong with it. -/
theorem lists_or_spoiled (files : Files) (directory : String) (category : Category) :
    (∃ numbers, Lists files directory category numbers)
      ∨ ∃ cause, Spoiled files directory category cause := by
  cases hread : files.readText (pathOf directory category) with
  | error fault => exact Or.inr ⟨_, .unread (Files.readText_eq_error_iff.1 hread)⟩
  | ok text =>
    cases hparse : parseList text with
    | error cause => exact Or.inr ⟨cause, .unparsed hread hparse⟩
    | ok numbers => exact Or.inl ⟨numbers, text, hread, hparse⟩

theorem runIn_loadList_of_lists (h : Lists files directory category numbers) :
    (loadList files.readText directory category).runIn session
      = (.ok numbers, session.noted (loaded numbers.length (pathOf directory category))) := by
  obtain ⟨text, hread, hparse⟩ := h
  exact runIn_loadList_of_read hread hparse

theorem runIn_loadList_of_spoiled {cause : VectorError}
    (h : Spoiled files directory category cause) :
    (loadList files.readText directory category).runIn session
      = (.error (.error cause), session) := by
  unfold loadList
  cases h with
  | unread hfault =>
    have hread := Files.readText_eq_error_iff.2 hfault
    rw [pathOf] at hread
    dsimp only
    rw [hread]
    rfl
  | unparsed hread hparse =>
    rw [pathOf] at hread
    dsimp only
    rw [hread]
    show ((Draw.ofExcept (parseList _) : Draw σ VectorError (List Nat)) >>= _).runIn session = _
    rw [hparse]
    rfl

/-! ## §3. All files. -/

/-- The event that the list of a category was read. -/
def loadedEvent (directory : String) (lists : Category → List Nat) (category : Category) :
    Log.Event :=
  loaded (lists category).length (pathOf directory category)

/-- Where a list stands in every file, these lists are loaded. -/
theorem runIn_load_of_lists {inputs : Inputs}
    (h : ∀ category, Lists files directory category (inputs.get category)) :
    (load files.readText directory).runIn session
      = (.ok inputs,
          (Category.all.map (loadedEvent directory inputs.get)).foldl Session.noted session) := by
  unfold load PerCategory.build
  rw [Draw.runIn_bind_of_ok (runIn_loadList_of_lists (h .smallPrimes)),
    Draw.runIn_bind_of_ok (runIn_loadList_of_lists (h .largePrimes)),
    Draw.runIn_bind_of_ok (runIn_loadList_of_lists (h .smallComposites)),
    Draw.runIn_bind_of_ok (runIn_loadList_of_lists (h .largeComposites))]
  rfl

/-- The categories in front of one of them. -/
theorem front_of_all {front back : List Category} (h : Category.all = front ++ category :: back) :
    front = Category.all.takeWhile (· != category) := by
  have hne : ∀ c ∈ front, (c != category) = true := by
    intro c hc
    have hnodup : Category.all.Nodup := by decide
    rw [h, List.nodup_append] at hnodup
    exact bne_iff_ne.2 (hnodup.2.2 c hc category List.mem_cons_self)
  rw [h, List.takeWhile_append_of_pos hne, List.takeWhile_cons_of_neg (by simp), List.append_nil]

/-- Among the files of a directory, that of the category is the first one that is spoiled, behind those
of the categories in `front`. -/
structure FirstSpoiled (files : Files) (directory : String) (front : List Category)
    (category : Category) (cause : VectorError) : Prop where
  /-- The files are looked at in the order of the categories. -/
  order : ∃ back, Category.all = front ++ category :: back
  /-- The files in front hold lists. -/
  lists : ∀ c ∈ front, ∃ numbers, Lists files directory c numbers
  /-- This one does not. -/
  spoiled : Spoiled files directory category cause

/-- Every file holds a list, or there is a first one that is spoiled. -/
theorem lists_or_firstSpoiled (files : Files) (directory : String) :
    (∃ inputs : Inputs, ∀ category, Lists files directory category (inputs.get category))
      ∨ ∃ front category cause, FirstSpoiled files directory front category cause := by
  classical
  cases hfind : Category.all.find? fun c => ¬ ∃ numbers, Lists files directory c numbers with
  | none =>
    left
    have hlisted (category : Category) : ∃ numbers, Lists files directory category numbers := by
      simpa using List.find?_eq_none.1 hfind category category.mem_all
    choose lists hlists using hlisted
    refine ⟨.ofFn lists, fun category => ?_⟩
    rw [PerCategory.get_ofFn]
    exact hlists category
  | some category =>
    right
    obtain ⟨hnone, front, back, hall, hfront⟩ := List.find?_eq_some_iff_append.1 hfind
    rcases lists_or_spoiled files directory category with hlisted | ⟨cause, hspoiled⟩
    · exact absurd hlisted (by simpa using hnone)
    · exact ⟨front, category, cause, ⟨back, hall⟩, fun c hc => by simpa using hfront c hc, hspoiled⟩

/-- **The first file that is spoiled ends the loading**, behind the events of the lists in front. -/
theorem runIn_load_of_firstSpoiled {front : List Category} {cause : VectorError}
    (h : FirstSpoiled files directory front category cause) :
    ∃ lists : Category → List Nat, (∀ c ∈ front, Lists files directory c (lists c))
      ∧ ∀ {σ : Type} (session : Session σ), (load files.readText directory).runIn session
        = (.error (.error cause),
            (front.map (loadedEvent directory lists)).foldl Session.noted session) := by
  obtain ⟨⟨back, hall⟩, hlisted, hspoiled⟩ := h
  choose! lists hlists using hlisted
  refine ⟨lists, hlists, fun {σ} session => ?_⟩
  have hlist (c : Category) (hc : c ∈ front) (before : Session σ) :
      (loadList files.readText directory c).runIn before
        = (.ok (lists c), before.noted (loadedEvent directory lists c)) :=
    runIn_loadList_of_lists (hlists c hc)
  rw [front_of_all hall] at hlist ⊢
  unfold load PerCategory.build
  cases category with
  | smallPrimes => exact Draw.runIn_bind_of_error (runIn_loadList_of_spoiled hspoiled) _
  | largePrimes =>
    rw [Draw.runIn_bind_of_ok (hlist .smallPrimes (by decide) _)]
    exact Draw.runIn_bind_of_error (runIn_loadList_of_spoiled hspoiled) _
  | smallComposites =>
    rw [Draw.runIn_bind_of_ok (hlist .smallPrimes (by decide) _),
      Draw.runIn_bind_of_ok (hlist .largePrimes (by decide) _)]
    exact Draw.runIn_bind_of_error (runIn_loadList_of_spoiled hspoiled) _
  | largeComposites =>
    rw [Draw.runIn_bind_of_ok (hlist .smallPrimes (by decide) _),
      Draw.runIn_bind_of_ok (hlist .largePrimes (by decide) _),
      Draw.runIn_bind_of_ok (hlist .smallComposites (by decide) _)]
    exact Draw.runIn_bind_of_error (runIn_loadList_of_spoiled hspoiled) _

/-- Events are noted and nothing else happens. -/
theorem foldl_noted (events : List Log.Event) (session : Session σ) :
    events.foldl Session.noted session = { session with events := session.events ++ events } := by
  induction events generalizing session with
  | nil => simp
  | cons event events ih =>
    rw [List.foldl_cons, ih, Session.noted, List.append_assoc]
    rfl

/-- **A directory is loaded where every file of it holds a list.** -/
theorem load_eq_ok_iff {inputs : Inputs} (session : Session σ) :
    (∃ after, (load files.readText directory).runIn session = (.ok inputs, after))
      ↔ ∀ category, Lists files directory category (inputs.get category) := by
  constructor
  · rintro ⟨after, hload⟩ category
    exact exists_text_of_load hload category
  · intro h
    exact ⟨_, runIn_load_of_lists h⟩

/-- **A directory is refused for its first file that is spoiled.** -/
theorem load_eq_error_iff {cause : VectorError} (session : Session σ) :
    (∃ after, (load files.readText directory).runIn session = (.error (.error cause), after))
      ↔ ∃ front category, FirstSpoiled files directory front category cause := by
  constructor
  · rintro ⟨after, hload⟩
    rcases lists_or_firstSpoiled files directory with ⟨inputs, hlists⟩ | ⟨front, category, cause', h⟩
    · rw [runIn_load_of_lists hlists] at hload
      cases hload
    · obtain ⟨lists, -, hrun⟩ := runIn_load_of_firstSpoiled h
      rw [hrun] at hload
      obtain ⟨hcause, -⟩ := Prod.mk.inj hload
      obtain rfl := Stop.error.inj (Except.error.inj hcause)
      exact ⟨front, category, h⟩
  · rintro ⟨front, category, h⟩
    obtain ⟨lists, -, hrun⟩ := runIn_load_of_firstSpoiled h
    exact ⟨_, hrun session⟩

/-- **What stands in the files behind the first that is spoiled makes no difference.** -/
theorem runIn_load_of_same {files' : Files} {front : List Category} {cause : VectorError}
    (h : FirstSpoiled files directory front category cause)
    (hsame : ∀ c ∈ front ++ [category],
      files'.readText (pathOf directory c) = files.readText (pathOf directory c))
    (session : Session σ) :
    (load files'.readText directory).runIn session
      = (load files.readText directory).runIn session := by
  have hfront (c : Category) (hc : c ∈ front) :
      files'.readText (pathOf directory c) = files.readText (pathOf directory c) :=
    hsame c (List.mem_append_left _ hc)
  have hspoiled : Spoiled files' directory category cause := by
    have hread := hsame category (by simp)
    cases h.spoiled with
    | unread hfault =>
      refine .unread (Files.readText_eq_error_iff.1 ?_)
      rw [hread, Files.readText_eq_error_iff]
      exact hfault
    | unparsed htext hparse => exact .unparsed (hread.trans htext) hparse
  have h' : FirstSpoiled files' directory front category cause := by
    refine ⟨h.order, fun c hc => ?_, hspoiled⟩
    obtain ⟨numbers, hlist⟩ := h.lists c hc
    exact ⟨numbers, hlist.of_same (hfront c hc)⟩
  obtain ⟨lists, hlists, hrun⟩ := runIn_load_of_firstSpoiled h
  obtain ⟨lists', hlists', hrun'⟩ := runIn_load_of_firstSpoiled h'
  -- The events tell how many numbers were read, and they are the same numbers.
  have hevents : front.map (loadedEvent directory lists')
      = front.map (loadedEvent directory lists) := by
    refine List.map_congr_left fun c hc => ?_
    rw [loadedEvent, loadedEvent, (hlists' c hc).unique ((hlists c hc).of_same (hfront c hc))]
  rw [hrun, hrun', hevents]

end Vectors

end ProbablePrime
