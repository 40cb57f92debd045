/-
  ProbablePrime.Proofs.Sample.ReadBack — the text of a sample says what the sample is.

  A line of the text is taken apart by its marks, from left to right: each is looked for where it
  stands first.  That finds the mark that was written because its first character does not occur in
  what was written before it, which is a label without a colon or a row of digits.

  Main results:
    * `cut?_eq_some_iff` — a text is cut where the mark stands first;
    * `read?_text` — every line is read back;
    * `text_reads_back` — the four lines of a sample, and what their counts say.
-/
import ProbablePrime.Number.Decimal
import ProbablePrime.Number.Lemmas
import ProbablePrime.Proofs.Text.Splitting
import ProbablePrime.Sample.Report

namespace ProbablePrime

open Number (bitLength decimalDigits ofText?)

/-! ## §1. Texts cut at a mark. -/

namespace Text

/-- What stands in front of the mark and what stands behind it, where it stands first. -/
def cut? (mark : List Char) : List Char → Option (List Char × List Char)
  | [] => if mark = [] then some ([], []) else none
  | c :: text =>
    match (c :: text).dropPrefix? mark with
    | some back => some ([], back)
    | none => (cut? mark text).map fun (front, back) => (c :: front, back)

theorem dropPrefix?_eq_some_iff {text mark back : List Char} :
    text.dropPrefix? mark = some back ↔ text = mark ++ back := by
  simp [List.dropPrefix?_eq_some_iff]

/-- **A text is cut where the mark stands first**: the parts and the mark make up the text, and
nowhere does the mark stand behind less. -/
theorem cut?_eq_some_iff {mark text front back : List Char} :
    cut? mark text = some (front, back)
      ↔ text = front ++ mark ++ back
        ∧ ∀ front' back', text = front' ++ mark ++ back' → front.length ≤ front'.length := by
  induction text generalizing front with
  | nil =>
    by_cases hmark : mark = []
    · subst hmark
      simp +contextual [cut?, eq_comm]
    · simp [cut?, hmark]
  | cons c text ih =>
    cases hdrop : (c :: text).dropPrefix? mark with
    | some rest =>
      have htext : c :: text = mark ++ rest := dropPrefix?_eq_some_iff.1 hdrop
      have hcut : cut? mark (c :: text) = some ([], rest) := by rw [cut?, hdrop]
      rw [hcut]
      constructor
      · intro h
        obtain ⟨rfl, rfl⟩ := Prod.mk.inj (Option.some.inj h)
        exact ⟨htext, fun front' back' _ => Nat.zero_le _⟩
      · rintro ⟨hparts, hfirst⟩
        have hnone : front = [] := List.length_eq_zero_iff.1 (by simpa using hfirst [] rest htext)
        subst hnone
        have hback : mark ++ rest = mark ++ back := htext.symm.trans hparts
        rw [List.append_cancel_left hback]
    | none =>
      have hcut : cut? mark (c :: text)
          = (cut? mark text).map fun (front, back) => (c :: front, back) := by rw [cut?, hdrop]
      -- The mark does not stand at the beginning, so every front has the first character.
      have hcons {front' back' : List Char} (h : c :: text = front' ++ mark ++ back') :
          ∃ front'', front' = c :: front'' ∧ text = front'' ++ mark ++ back' := by
        cases front' with
        | nil => cases hdrop.symm.trans (dropPrefix?_eq_some_iff.2 h)
        | cons d front'' =>
          obtain ⟨rfl, htext⟩ := List.cons.inj h
          exact ⟨front'', rfl, htext⟩
      rw [hcut]
      constructor
      · intro h
        obtain ⟨⟨front₀, back₀⟩, hrest, hparts⟩ := Option.map_eq_some_iff.1 h
        obtain ⟨rfl, rfl⟩ := Prod.mk.inj hparts
        obtain ⟨htext, hfirst⟩ := ih.1 hrest
        refine ⟨by rw [htext]; rfl, fun front' back' h' => ?_⟩
        obtain ⟨front'', rfl, htext'⟩ := hcons h'
        exact Nat.succ_le_succ (hfirst front'' back' htext')
      · rintro ⟨hparts, hfirst⟩
        obtain ⟨front₀, rfl, htext⟩ := hcons hparts
        have hrest : cut? mark text = some (front₀, back) := by
          refine ih.2 ⟨htext, fun front' back' h' => ?_⟩
          exact Nat.le_of_succ_le_succ (hfirst (c :: front') back' (by rw [h']; rfl))
        rw [hrest]
        rfl

/-- A mark whose first character does not stand in front of it is found. -/
theorem cut?_of_not_mem {m : Char} {mark front : List Char} (h : m ∉ front) (back : List Char) :
    cut? (m :: mark) (front ++ m :: mark ++ back) = some (front, back) := by
  refine cut?_eq_some_iff.2 ⟨rfl, fun front' back' heq => ?_⟩
  by_contra hlt
  -- Behind less, the mark would begin inside of the front.
  have hchar : (front ++ m :: mark ++ back)[front'.length]? = some m := by
    rw [heq]
    simp
  rw [List.append_assoc, List.getElem?_append_left (by omega)] at hchar
  exact h (List.mem_of_getElem? hchar)

end Text

/-! ## §2. Lines. -/

open Text (cut? cut?_of_not_mem dropPrefix?_eq_some_iff)

/-- What a line of a report says. -/
structure ReportEntry where
  /-- What the number is. -/
  label : String
  /-- The number. -/
  value : Nat
  /-- Its length in bits. -/
  bits : Nat
  /-- The count of its decimal digits, on the lines that have one. -/
  digits : Option Nat
  deriving DecidableEq, Repr

/-- Reads the end of a line: a count of digits behind its mark, or nothing. -/
def ReportEntry.readTail? (text : List Char) : Option (Option Nat) :=
  match text.dropPrefix? ", Digits: ".toList with
  | some digits => (ofText? digits).map some
  | none => if text = [] then some none else none

/-- Reads a line: a label, a number, a length, and what is behind that. -/
def ReportEntry.read? (line : String) : Option ReportEntry := do
  let (label, rest) ← cut? ": ".toList line.toList
  let (value, rest) ← cut? ". Length: ".toList rest
  let (bits, rest) ← cut? " bits".toList rest
  return ⟨String.ofList label, ← ofText? value, ← ofText? bits, ← readTail? rest⟩

/-- What a line says, as it was meant. -/
def ReportLine.entry (line : ReportLine) : ReportEntry :=
  ⟨line.label, line.value, bitLength line.value,
    if line.showDigits then some (decimalDigits line.value) else none⟩

/-- The end of a line, behind the length. -/
def ReportLine.tail (line : ReportLine) : List Char :=
  if line.showDigits then ", Digits: ".toList ++ Nat.toDigits 10 (decimalDigits line.value) else []

/-- The characters of a line, mark by mark. -/
theorem ReportLine.toList_text (line : ReportLine) :
    line.text.toList = line.label.toList ++ ": ".toList
      ++ (Nat.toDigits 10 line.value ++ ". Length: ".toList
      ++ (Nat.toDigits 10 (bitLength line.value) ++ " bits".toList ++ line.tail)) := by
  unfold text tail
  cases line.showDigits with
  | true => simp [toString]
  | false => simp [toString]

theorem not_mem_toDigits {c : Char} (hc : c.isDigit = false) (n : Nat) : c ∉ Nat.toDigits 10 n := by
  intro hmem
  have hdigit : c.isDigit = true := Nat.isDigit_of_mem_toDigits (by decide) (by decide) hmem
  rw [hc] at hdigit
  exact Bool.false_ne_true hdigit

theorem ofText?_toDigits (n : Nat) : ofText? (Nat.toDigits 10 n) = some n :=
  Number.ofText?_eq_some_iff.2 (Number.isDecimal_toDigits n)

theorem readTail?_tail (line : ReportLine) :
    ReportEntry.readTail? line.tail
      = some (if line.showDigits then some (decimalDigits line.value) else none) := by
  unfold ReportLine.tail ReportEntry.readTail?
  cases line.showDigits with
  | true => simp only [if_true, dropPrefix?_eq_some_iff.2 rfl, ofText?_toDigits, Option.map_some]
  | false => rfl

/-- **Every line is read back**, if there is no colon in its label. -/
theorem read?_text (line : ReportLine) (hlabel : ':' ∉ line.label.toList) :
    ReportEntry.read? line.text = some line.entry := by
  have hcolon (back : List Char) :
      cut? ": ".toList (line.label.toList ++ ": ".toList ++ back)
        = some (line.label.toList, back) := cut?_of_not_mem hlabel back
  have hstop (back : List Char) :
      cut? ". Length: ".toList (Nat.toDigits 10 line.value ++ ". Length: ".toList ++ back)
        = some (Nat.toDigits 10 line.value, back) :=
    cut?_of_not_mem (not_mem_toDigits (by decide) _) back
  have hblank (back : List Char) :
      cut? " bits".toList (Nat.toDigits 10 (bitLength line.value) ++ " bits".toList ++ back)
        = some (Nat.toDigits 10 (bitLength line.value), back) :=
    cut?_of_not_mem (not_mem_toDigits (by decide) _) back
  unfold ReportEntry.read?
  rw [line.toList_text, hcolon]
  dsimp only [Option.bind_eq_bind, Option.bind_some]
  rw [hstop]
  dsimp only [Option.bind_some]
  rw [hblank]
  dsimp only [Option.bind_some]
  rw [ofText?_toDigits, ofText?_toDigits, readTail?_tail]
  simp [ReportLine.entry]

example : ReportEntry.read? "Prime (q): 0. Length: 0 bits, Digits: 1"
    = some ⟨"Prime (q)", 0, 0, some 1⟩ := by decide

/-! ## §3. Reports. -/

/-- A line is one line, if its label is. -/
theorem newline_not_mem_text {line : ReportLine} (hlabel : '\n' ∉ line.label.toList) :
    '\n' ∉ line.text.toList := by
  have hdigits (n : Nat) : '\n' ∉ Nat.toDigits 10 n := not_mem_toDigits (by decide) n
  have htail : '\n' ∉ line.tail := by
    unfold ReportLine.tail
    split
    · simp [hdigits]
    · simp
  rw [line.toList_text]
  simp [hlabel, hdigits, htail]

namespace Sample

variable (sample : Sample)

theorem marks_not_mem_label {line : ReportLine} (hline : line ∈ sample.lines) :
    ':' ∉ line.label.toList ∧ '\n' ∉ line.label.toList := by
  have hlabel : line.label ∈ ["Random", "Prime (p)", "Prime (q)", "Prime (N)"] := by
    have := List.mem_map_of_mem (f := ReportLine.label) hline
    simpa [lines] using this
  generalize line.label = label at hlabel
  revert label
  decide

/-- The parts of the text between its line breaks are the lines of the sample. -/
theorem splitOn_text : sample.text.splitOn "\n" = sample.lines.map ReportLine.text := by
  have hone : ∀ l ∈ sample.lines.map (String.toList ∘ ReportLine.text), '\n' ∉ l := by
    intro l hl
    obtain ⟨line, hline, rfl⟩ := List.mem_map.1 hl
    exact newline_not_mem_text (sample.marks_not_mem_label hline).2
  have hsome : sample.lines.map (String.toList ∘ ReportLine.text) ≠ [] := by simp [lines]
  have hchars : sample.text.toList
      = ['\n'].intercalate (sample.lines.map (String.toList ∘ ReportLine.text)) := by
    rw [text, String.toList_intercalate, List.map_map]
    rfl
  calc sample.text.splitOn "\n"
      = (sample.text.toList.splitOn '\n').map String.ofList := Text.splitOn_singleton _ '\n'
    _ = (sample.lines.map (String.toList ∘ ReportLine.text)).map String.ofList := by
        rw [hchars, List.splitOn_intercalate '\n' hone hsome]
    _ = sample.lines.map ReportLine.text := by simp [Function.comp_def]

/-- What is read from the lines of the text. -/
theorem read?_splitOn_text :
    (sample.text.splitOn "\n").map ReportEntry.read? = sample.lines.map (some ∘ ReportLine.entry) := by
  rw [splitOn_text, List.map_map]
  refine List.map_congr_left fun line hline => ?_
  exact read?_text line (sample.marks_not_mem_label hline).1

/-- **The text of a sample is read back.**  It has four lines, and on them, in this order, stand the
four numbers with their labels and their lengths, and with the counts of their digits except on the
first.  A length and a count place the number between two powers, and no number but zero lies below
the lower one.  The text is that of another sample exactly when that has the same four numbers. -/
theorem text_reads_back :
    (sample.text.splitOn "\n").length = 4
    ∧ (sample.text.splitOn "\n").map ReportEntry.read?
      = [some ⟨"Random", sample.random, bitLength sample.random, none⟩,
        some ⟨"Prime (p)", sample.p, bitLength sample.p, some (decimalDigits sample.p)⟩,
        some ⟨"Prime (q)", sample.q, bitLength sample.q, some (decimalDigits sample.q)⟩,
        some ⟨"Prime (N)", sample.n, bitLength sample.n, some (decimalDigits sample.n)⟩]
    ∧ (∀ v, v < 2 ^ bitLength v ∧ (v = 0 ∧ bitLength v = 0 ∨ 2 ^ (bitLength v - 1) ≤ v))
    ∧ (∀ v, 1 ≤ decimalDigits v ∧ v < 10 ^ decimalDigits v
      ∧ (v = 0 ∧ decimalDigits v = 1 ∨ 10 ^ (decimalDigits v - 1) ≤ v))
    ∧ ∀ other : Sample, other.text = sample.text
      ↔ other.random = sample.random ∧ other.p = sample.p ∧ other.q = sample.q
        ∧ other.n = sample.n := by
  refine ⟨?_, sample.read?_splitOn_text, Number.bitLength_bounds, Number.decimalDigits_bounds, ?_⟩
  · rw [splitOn_text, List.length_map]
    rfl
  · intro other
    constructor
    · intro htext
      have hread := other.read?_splitOn_text
      rw [htext, sample.read?_splitOn_text] at hread
      simp only [lines, List.map_cons, List.map_nil, Function.comp_apply, List.cons.injEq,
        Option.some.injEq, ReportLine.entry, ReportEntry.mk.injEq] at hread
      obtain ⟨⟨-, hrandom, -⟩, ⟨-, hp, -⟩, ⟨-, hq, -⟩, ⟨-, hn, -⟩, -⟩ := hread
      exact ⟨hrandom.symm, hp.symm, hq.symm, hn.symm⟩
    · rintro ⟨hrandom, hp, hq, hn⟩
      rw [text, text, lines, lines, hrandom, hp, hq, hn]

end Sample

end ProbablePrime
