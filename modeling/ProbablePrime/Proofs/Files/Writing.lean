/-
  ProbablePrime.Proofs.Files.Writing — what a written file changes, and what it does not.

  A path is walked through directories only, and a file is never written in the place of one.  So
  the way to the new file is the same before and after it was written, and the file is found at the
  end of it.

  Main results:
    * `read_of_write` — what was written at a path is read back there;
    * `entry?_of_write` — nothing else has changed.
-/
import ProbablePrime.Files
import ProbablePrime.Proofs.Text.Splitting

namespace ProbablePrime.Files

variable {files files' : Files} {name place place' : List String} {part path : String}
  {content : ByteArray}

/-! ## §1. Entries. -/

theorem ne_nil_of_entry?_ne (h : files.entry? name ≠ some .directory) : name ≠ [] := by
  rintro rfl
  exact h rfl

theorem entry?_put_self (entry : Entry) (hname : name ≠ []) :
    entry? (files.put name entry) name = some entry := by
  have hempty : name.isEmpty = false := by simpa using hname
  unfold entry? put
  simp [hempty]

/-- Removing the entries of another name leaves the entry of a name as it is. -/
theorem lookup_filter_ne {other : List String} (entries : List (List String × Entry))
    (hne : other ≠ name) :
    (entries.filter fun e => e.1 != name).lookup other = entries.lookup other := by
  induction entries with
  | nil => rfl
  | cons e entries ih =>
    obtain ⟨key, entry⟩ := e
    by_cases hkey : key = name
    · have hother : (other == key) = false := by simpa [hkey] using hne
      rw [List.filter_cons_of_neg (by simpa using hkey), List.lookup_cons, hother, ih]
    · rw [List.filter_cons_of_pos (by simpa using hkey), List.lookup_cons, List.lookup_cons, ih]

theorem entry?_put_of_ne {other : List String} (entry : Entry) (hne : other ≠ name) :
    entry? (files.put name entry) other = files.entry? other := by
  have hkey : (other == name) = false := by simpa using hne
  unfold entry? put
  simp only [List.lookup_cons, hkey, lookup_filter_ne files.entries hne]

/-! ## §2. Ways. -/

/-- A path is walked along the texts between its slashes. -/
theorem walkParts_eq (files : Files) (path : String) :
    files.walkParts path = ((path.toList.splitOnP (· == '/')).map String.ofList).foldlM
      files.walkStep (if path.startsWith "/" then [] else files.here) := by
  have hslash : "/" = String.singleton '/' := rfl
  rw [walkParts, hslash, Text.splitOn_singleton]

/-- A sequence that succeeds has succeeded in its first part, and gone on from there. -/
theorem exists_of_bind_eq_ok {α β : Type} {first : Except FileFault α} {next : α → Except FileFault β}
    {b : β} (h : first >>= next = .ok b) : ∃ a, first = .ok a ∧ next a = .ok b := by
  cases first with
  | error fault => cases h
  | ok a => exact ⟨a, rfl, h⟩

/-- A step is taken from a directory, so it is taken as before where a file was put, which is in no
directory's place. -/
theorem walkStep_put (hname : files.entry? name ≠ some .directory)
    (h : files.walkStep place part = .ok place') :
    (files.put name (.file content)).walkStep place part = .ok place' := by
  by_cases hplace : place = name
  · subst hplace
    unfold walkStep at h
    split at h
    · cases h
    · cases h
    · next hdirectory => exact absurd hdirectory hname
  · unfold walkStep at h ⊢
    rw [entry?_put_of_ne (.file content) hplace]
    exact h

theorem foldlM_walkStep_put (hname : files.entry? name ≠ some .directory) {parts : List String}
    (h : parts.foldlM files.walkStep place = .ok place') :
    parts.foldlM (files.put name (.file content)).walkStep place = .ok place' := by
  induction parts generalizing place with
  | nil => exact h
  | cons part parts ih =>
    rw [List.foldlM_cons] at h ⊢
    obtain ⟨mid, hstep, hrest⟩ := exists_of_bind_eq_ok h
    rw [walkStep_put hname hstep]
    exact ih hrest

/-- A path leads where it led before a file was put. -/
theorem walk_put (hname : files.entry? name ≠ some .directory) (h : files.walk path = .ok place) :
    (files.put name (.file content)).walk path = .ok place := by
  unfold walk at h ⊢
  obtain ⟨length, hmeasure, hparts⟩ := exists_of_bind_eq_ok h
  rw [hmeasure]
  exact foldlM_walkStep_put hname hparts

/-- The way to a new file is an ordinary way: behind a name with a slash there is nowhere to write. -/
theorem walk_of_walkToWrite (h : files.walkToWrite path = .ok place) :
    files.walk path = .ok place := by
  unfold walkToWrite at h
  obtain ⟨length, hmeasure, hrest⟩ := exists_of_bind_eq_ok h
  unfold walk
  rw [hmeasure]
  split at hrest
  · exact hrest
  · obtain ⟨before, -, hrefused⟩ := exists_of_bind_eq_ok hrest
    cases hrefused

/-! ## §3. Writing. -/

/-- A file that was written is a new entry at the end of its path, where no directory was. -/
theorem exists_put_of_write (h : files.write path content = .ok files') :
    ∃ name, files.walk path = .ok name ∧ files.entry? name ≠ some .directory
      ∧ files' = files.put name (.file content) := by
  unfold write at h
  obtain ⟨name, hwalk, hput⟩ := exists_of_bind_eq_ok h
  split at hput
  · cases hput
  · next hother =>
    exact ⟨name, walk_of_walkToWrite hwalk, hother, (Except.ok.inj hput).symm⟩

theorem read_of_walk (hwalk : files.walk path = .ok name)
    (hentry : files.entry? name = some (.file content)) : files.read path = .ok content := by
  unfold read
  rw [hwalk]
  simp only [bind, Except.bind, hentry]

/-- **What was written is read back.** -/
theorem read_of_write (h : files.write path content = .ok files') :
    files'.read path = .ok content := by
  obtain ⟨name, hwalk, hname, rfl⟩ := exists_put_of_write h
  have hentry : entry? (files.put name (.file content)) name = some (.file content) :=
    entry?_put_self _ (ne_nil_of_entry?_ne hname)
  exact read_of_walk (walk_put hname hwalk) hentry

/-- **Nothing but the written file has changed.** -/
theorem entry?_of_write (h : files.write path content = .ok files') :
    ∃ name, files.walk path = .ok name ∧ ∀ other, other ≠ name →
      files'.entry? other = files.entry? other := by
  obtain ⟨name, hwalk, -, rfl⟩ := exists_put_of_write h
  exact ⟨name, hwalk, fun other hother => entry?_put_of_ne _ hother⟩

end ProbablePrime.Files
