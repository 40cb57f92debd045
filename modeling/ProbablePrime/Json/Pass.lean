/-
  ProbablePrime.Json.Pass — values that are read and not kept.

  Such a value is followed bracket by bracket, with a record of what is open, to its end.

  Every step leaves less than it was given (`Care.step_shorter`), which is why the walk ends.
-/
import ProbablePrime.Json.Bracket
import ProbablePrime.Json.Number
import ProbablePrime.Json.Text

namespace ProbablePrime.Json

/-! ## §1. Scalars and keys. -/

/-- Reads the rest of a word. -/
def readWord (word text : List Char) : Except Fault (List Char) :=
  match word, text with
  | [], rest => .ok rest
  | _ :: _, [] => .error (.before [] .endInValue)
  | c :: word, d :: rest =>
    if c = d then readWord word rest else .error (.behind (d :: rest) .badWord)

/-- Whether a number begins with the character. -/
def beginsNumber (c : Char) : Bool := c == '-' || c.isDigit

namespace Care

/-- Passes over a quoted text from behind its opening quote. -/
def passText (care : Care) (text : List Char) : Except Fault (List Char) :=
  match care with
  | .loose => Json.passText text
  | .close _ =>
    match readText text with
    | .error fault => .error fault
    | .ok (_, rest) => .ok rest

/-- Passes over a number. -/
def passNumber (care : Care) (text : List Char) : Except Fault (List Char) :=
  match care with
  | .loose => Json.passNumber text
  | .close _ =>
    match readNumber text with
    | .error fault => .error fault
    | .ok (_, rest) => .ok rest

/-- Passes over a value that is no list and no object. -/
def passScalar (care : Care) (text : List Char) : Except Fault (List Char) :=
  match text with
  | [] => .error (.before [] .endInValue)
  | 'n' :: rest => readWord ['u', 'l', 'l'] rest
  | 't' :: rest => readWord ['r', 'u', 'e'] rest
  | 'f' :: rest => readWord ['a', 'l', 's', 'e'] rest
  | '"' :: rest => care.passText rest
  | c :: _ => if beginsNumber c then care.passNumber text else .error (.behind text .noValue)

/-- Passes over a key and its colon. -/
def passKey (care : Care) (text : List Char) : Except Fault (List Char) :=
  match text with
  | [] => .error (.before [] .endInObject)
  | '"' :: rest =>
    match care.passText rest with
    | .error fault => .error fault
    | .ok rest => readColon rest
  | rest => .error (.behind rest .noKey)

/-! ## §2. Steps. -/

/-- Where a walk over a value stands. -/
structure Walk where
  /-- Whether a value comes next; otherwise one has just ended. -/
  wantsValue : Bool
  /-- What is open, the innermost first. -/
  opened : List Bracket
  deriving DecidableEq, Repr

/-- How many lists and objects may be open at once. -/
def greatestDepth : Nat := 127

/-- Whether one more list or object may be opened. -/
def allowsDepth (care : Care) (opened : List Bracket) : Bool :=
  match care with
  | .close outer => outer + opened.length < greatestDepth
  | .loose => true

/-- Goes to the next value inside a bracket, past its key if the bracket is an object, or leaves the
bracket. -/
def nextValue (care : Care) (bracket : Bracket) (outside : List Bracket) (first : Bool)
    (text : List Char) : Except Fault (Walk × List Char) :=
  match care.nextItem bracket first text with
  | .error fault => .error fault
  | .ok (.closed rest) => .ok (⟨false, outside⟩, rest)
  | .ok (.item item) =>
    match bracket with
    | .list => .ok (⟨true, .list :: outside⟩, item)
    | .object =>
      match care.passKey item with
      | .error fault => .error fault
      | .ok rest => .ok (⟨true, .object :: outside⟩, rest)

/-- Opens the bracket in front of `rest`, unless that is too deep. -/
def openBracket (care : Care) (bracket : Bracket) (opened : List Bracket) (opener : Char)
    (rest : List Char) : Except Fault (Walk × List Char) :=
  if care.allowsDepth opened then care.nextValue bracket opened true rest
  else .error (.behind (opener :: rest) .tooDeep)

/-- Passes over a scalar or opens a bracket. -/
def startValue (care : Care) (opened : List Bracket) (text : List Char) :
    Except Fault (Walk × List Char) :=
  match skipSpace text with
  | '[' :: rest => care.openBracket .list opened '[' rest
  | '\x7b' :: rest => care.openBracket .object opened '\x7b' rest
  | text =>
    match care.passScalar text with
    | .error fault => .error fault
    | .ok rest => .ok (⟨false, opened⟩, rest)

/-- One step of a walk; a walk that is over stands still. -/
def step (care : Care) (walk : Walk) (text : List Char) : Except Fault (Walk × List Char) :=
  if walk.wantsValue then
    care.startValue walk.opened text
  else match walk.opened with
    | [] => .ok (walk, text)
    | bracket :: outside => care.nextValue bracket outside false text

end Care

/-! ## §3. Every step leaves less. -/

theorem readWord_le {word text rest : List Char} (h : readWord word text = .ok rest) :
    rest.length ≤ text.length := by
  fun_induction readWord word text with
  | case1 => exact Nat.le_of_eq (congrArg _ (Except.ok.inj h).symm)
  | case2 => cases h
  | case3 word d text ih => exact Nat.le_succ_of_le (ih h)
  | case4 => cases h

namespace Care

theorem passText_shorter {care : Care} {text rest : List Char}
    (h : care.passText text = .ok rest) : rest.length < text.length := by
  unfold passText at h
  split at h
  · exact Json.passText_shorter h
  · split at h
    · cases h
    · next hr =>
      obtain rfl := Except.ok.inj h
      exact readText_shorter hr

theorem passNumber_shorter {care : Care} {text rest : List Char}
    (h : care.passNumber text = .ok rest) : rest.length < text.length := by
  unfold passNumber at h
  split at h
  · exact Json.passNumber_shorter h
  · split at h
    · cases h
    · next hr =>
      obtain rfl := Except.ok.inj h
      exact readNumber_shorter hr

theorem passScalar_shorter {care : Care} {text rest : List Char}
    (h : care.passScalar text = .ok rest) : rest.length < text.length := by
  unfold passScalar at h
  split at h
  · cases h
  · exact Nat.lt_succ_of_le (readWord_le h)
  · exact Nat.lt_succ_of_le (readWord_le h)
  · exact Nat.lt_succ_of_le (readWord_le h)
  · exact Nat.lt_succ_of_lt (passText_shorter h)
  · split at h
    · exact passNumber_shorter h
    · cases h

theorem passKey_shorter {care : Care} {text rest : List Char}
    (h : care.passKey text = .ok rest) : rest.length < text.length := by
  unfold passKey at h
  split at h
  · cases h
  · split at h
    · cases h
    · next hp =>
      have := passText_shorter hp
      have := readColon_shorter h
      simp only [List.length_cons]
      omega
  · cases h

theorem nextValue_le {care : Care} {bracket : Bracket} {outside : List Bracket} {first : Bool}
    {text rest : List Char} {walk : Walk}
    (h : care.nextValue bracket outside first text = .ok (walk, rest)) :
    rest.length ≤ text.length ∧ (first = false → rest.length < text.length) := by
  unfold nextValue at h
  split at h
  · cases h
  · next hn =>
    simp only [Except.ok.injEq, Prod.mk.injEq] at h
    obtain ⟨-, rfl⟩ := h
    have := nextItem_closed_shorter hn
    exact ⟨by omega, fun _ => this⟩
  · next item hn =>
    have hle : rest.length ≤ item.length := by
      split at h
      · simp only [Except.ok.injEq, Prod.mk.injEq] at h
        exact Nat.le_of_eq (congrArg _ h.2.symm)
      · split at h
        · cases h
        · next hp =>
          simp only [Except.ok.injEq, Prod.mk.injEq] at h
          obtain ⟨-, rfl⟩ := h
          exact Nat.le_of_lt (passKey_shorter hp)
    refine ⟨Nat.le_trans hle (nextItem_item_le hn), ?_⟩
    rintro rfl
    exact Nat.lt_of_le_of_lt hle (nextItem_later_shorter hn)

theorem openBracket_le {care : Care} {bracket : Bracket} {opened : List Bracket} {opener : Char}
    {text rest : List Char} {walk : Walk}
    (h : care.openBracket bracket opened opener text = .ok (walk, rest)) :
    rest.length ≤ text.length := by
  unfold openBracket at h
  split at h
  · exact (nextValue_le h).1
  · cases h

theorem startValue_shorter {care : Care} {opened : List Bracket} {text rest : List Char}
    {walk : Walk} (h : care.startValue opened text = .ok (walk, rest)) :
    rest.length < text.length := by
  unfold startValue at h
  have := length_skipSpace_le text
  split at h
  · next hs =>
    rw [hs] at this
    exact Nat.lt_of_le_of_lt (openBracket_le h) this
  · next hs =>
    rw [hs] at this
    exact Nat.lt_of_le_of_lt (openBracket_le h) this
  · split at h
    · cases h
    · next hp =>
      simp only [Except.ok.injEq, Prod.mk.injEq] at h
      obtain ⟨-, rfl⟩ := h
      exact Nat.lt_of_lt_of_le (passScalar_shorter hp) this

/-- Whether a walk is not over yet. -/
def Walk.goesOn (walk : Walk) : Bool := walk.wantsValue || !walk.opened.isEmpty

theorem step_shorter {care : Care} {walk next : Walk} {text rest : List Char}
    (hwalk : walk.goesOn = true) (h : care.step walk text = .ok (next, rest)) :
    rest.length < text.length := by
  unfold step at h
  split at h
  · exact startValue_shorter h
  · next hv =>
    split at h
    · next ho => simp [Walk.goesOn, hv, ho] at hwalk
    · exact (nextValue_le h).2 rfl

/-! ## §4. Whole values. -/

/-- Walks on until nothing is open and no value is wanted. -/
def walkFrom (care : Care) (walk : Walk) (text : List Char) : Except Fault (List Char) :=
  if hwalk : walk.goesOn then
    match h : care.step walk text with
    | .error fault => .error fault
    | .ok (next, rest) =>
      have := step_shorter hwalk h
      care.walkFrom next rest
  else
    .ok text
termination_by text.length

/-- Passes over a value. -/
def pass (care : Care) (text : List Char) : Except Fault (List Char) :=
  care.walkFrom ⟨true, []⟩ text

theorem walkFrom_le {care : Care} {walk : Walk} {text rest : List Char}
    (h : care.walkFrom walk text = .ok rest) : rest.length ≤ text.length := by
  fun_induction walkFrom care walk text with
  | case1 => cases h
  | case2 walk text hwalk next rest' hs hshorter ih =>
    have := ih h
    omega
  | case3 => exact Nat.le_of_eq (congrArg _ (Except.ok.inj h).symm)

theorem pass_shorter {care : Care} {text rest : List Char} (h : care.pass text = .ok rest) :
    rest.length < text.length := by
  have hwalk : (⟨true, []⟩ : Walk).goesOn = true := rfl
  unfold pass at h
  rw [walkFrom, dif_pos hwalk] at h
  split at h
  · cases h
  · next hs => exact Nat.lt_of_le_of_lt (walkFrom_le h) (step_shorter hwalk hs)

end Care

end ProbablePrime.Json
