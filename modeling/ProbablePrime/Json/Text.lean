/-
  ProbablePrime.Json.Text — quoted texts.

  A quoted text is read from behind its opening quote to behind its closing one.  What is kept is
  decoded: every escape becomes a character, and two escapes that are the halves of a surrogate pair
  become one.  What is passed over is only known to have its escapes in order, pairs aside.

  Both readers leave less than they were given (`readText_shorter`, `passText_shorter`).
-/
import ProbablePrime.Json.Fault
import ProbablePrime.Text.Hex

namespace ProbablePrime.Json

open Text (byteSize hexDigit?)

/-! ## §1. Escapes of code units. -/

/-- The number that four hexadecimal digits write. -/
def hexQuad? (a b c d : Char) : Option Nat := do
  return ((← hexDigit? a) * 16 + (← hexDigit? b)) * 256 + (← hexDigit? c) * 16 + (← hexDigit? d)

/-- What is wrong where four hexadecimal digits are wanted: four bytes are taken, if the text has as
many. -/
def noHexQuad (text : List Char) : Fault :=
  if byteSize text < 4 then .placed .endInText 0 else .placed .badEscape (byteSize text - 4)

/-- Reads four hexadecimal digits. -/
def readHexQuad (text : List Char) : Except Fault (Nat × List Char) :=
  match text with
  | a :: b :: c :: d :: rest =>
    match hexQuad? a b c d with
    | some unit => .ok (unit, rest)
    | none => .error (noHexQuad text)
  | _ => .error (noHexQuad text)

/-- Whether a code unit is the first half of a surrogate pair. -/
def isFirstSurrogate (unit : Nat) : Bool := 0xD800 ≤ unit && unit ≤ 0xDBFF

/-- Whether a code unit is the second half of a surrogate pair. -/
def isSecondSurrogate (unit : Nat) : Bool := 0xDC00 ≤ unit && unit ≤ 0xDFFF

/-- The character of a surrogate pair. -/
def ofSurrogates (first second : Nat) : Char :=
  Char.ofNat (0x10000 + (first - 0xD800) * 0x400 + (second - 0xDC00))

/-- Reads the second half of a surrogate pair, with the backslash and the letter in front. -/
def readSecondSurrogate (text : List Char) : Except Fault (Nat × List Char) :=
  match text with
  | [] => .error (.before [] .endInText)
  | '\\' :: [] => .error (.before [] .endInText)
  | '\\' :: 'u' :: rest =>
    match readHexQuad rest with
    | .error fault => .error fault
    | .ok (unit, rest) =>
      if isSecondSurrogate unit then .ok (unit, rest) else .error (.before rest .loneSurrogate)
  | '\\' :: rest => .error (.behind rest .noSecondSurrogate)
  | rest => .error (.behind rest .noSecondSurrogate)

/-- Reads the code units of one character. -/
def readUnits (text : List Char) : Except Fault (Char × List Char) :=
  match readHexQuad text with
  | .error fault => .error fault
  | .ok (unit, rest) =>
    if isSecondSurrogate unit then
      .error (.before rest .loneSurrogate)
    else if isFirstSurrogate unit then
      match readSecondSurrogate rest with
      | .error fault => .error fault
      | .ok (second, rest) => .ok (ofSurrogates unit second, rest)
    else
      .ok (Char.ofNat unit, rest)

/-! ## §2. Escapes. -/

/-- The character that a letter stands for behind a backslash. -/
def escapeLetter? : Char → Option Char
  | '"' => some '"'
  | '\\' => some '\\'
  | '/' => some '/'
  | 'b' => some '\x08'
  | 'f' => some '\x0c'
  | 'n' => some '\n'
  | 'r' => some '\r'
  | 't' => some '\t'
  | _ => none

/-- Reads what follows a backslash. -/
def readEscape (text : List Char) : Except Fault (Char × List Char) :=
  match text with
  | [] => .error (.before [] .endInText)
  | 'u' :: rest => readUnits rest
  | c :: rest =>
    match escapeLetter? c with
    | some decoded => .ok (decoded, rest)
    | none => .error (.behind text .badEscape)

/-- Passes over what follows a backslash; the halves of surrogate pairs need not fit. -/
def passEscape (text : List Char) : Except Fault (List Char) :=
  match text with
  | [] => .error (.before [] .endInText)
  | 'u' :: rest =>
    match readHexQuad rest with
    | .error fault => .error fault
    | .ok (_, rest) => .ok rest
  | c :: rest => if (escapeLetter? c).isSome then .ok rest else .error (.behind text .badEscape)

theorem readHexQuad_shorter {text rest : List Char} {unit : Nat}
    (h : readHexQuad text = .ok (unit, rest)) : rest.length < text.length := by
  unfold readHexQuad at h
  split at h
  · split at h
    · simp only [Except.ok.injEq, Prod.mk.injEq] at h
      obtain ⟨-, rfl⟩ := h
      simp only [List.length_cons]
      omega
    · cases h
  · cases h

theorem readSecondSurrogate_shorter {text rest : List Char} {unit : Nat}
    (h : readSecondSurrogate text = .ok (unit, rest)) : rest.length < text.length := by
  unfold readSecondSurrogate at h
  split at h
  case h_3 inner =>
    split at h
    · cases h
    · next hq =>
      have := readHexQuad_shorter hq
      split at h
      · simp only [Except.ok.injEq, Prod.mk.injEq] at h
        obtain ⟨-, rfl⟩ := h
        simp only [List.length_cons]
        omega
      · cases h
  all_goals cases h

theorem readUnits_shorter {text rest : List Char} {c : Char}
    (h : readUnits text = .ok (c, rest)) : rest.length < text.length := by
  unfold readUnits at h
  split at h
  · cases h
  · next hq =>
    have := readHexQuad_shorter hq
    split at h
    · cases h
    · split at h
      · split at h
        · cases h
        · next hs =>
          have := readSecondSurrogate_shorter hs
          simp only [Except.ok.injEq, Prod.mk.injEq] at h
          obtain ⟨-, rfl⟩ := h
          omega
      · simp only [Except.ok.injEq, Prod.mk.injEq] at h
        obtain ⟨-, rfl⟩ := h
        omega

theorem readEscape_shorter {text rest : List Char} {c : Char}
    (h : readEscape text = .ok (c, rest)) : rest.length < text.length := by
  unfold readEscape at h
  split at h
  · cases h
  · exact Nat.lt_succ_of_lt (readUnits_shorter h)
  · split at h
    · simp only [Except.ok.injEq, Prod.mk.injEq] at h
      obtain ⟨-, rfl⟩ := h
      exact Nat.lt_succ_self _
    · cases h

theorem passEscape_shorter {text rest : List Char}
    (h : passEscape text = .ok rest) : rest.length < text.length := by
  unfold passEscape at h
  split at h
  · cases h
  · split at h
    · cases h
    · next hq =>
      obtain rfl := Except.ok.inj h
      exact Nat.lt_succ_of_lt (readHexQuad_shorter hq)
  · split at h
    · obtain rfl := Except.ok.inj h
      exact Nat.lt_succ_self _
    · cases h

/-! ## §3. Quoted texts. -/

/-- Whether a character has to be escaped in a quoted text. -/
def isControl (c : Char) : Bool := c.toNat < 0x20

/-- Reads a quoted text to its end; `read` holds what was read of it so far, the last character
first. -/
def readTextFrom (read : List Char) (text : List Char) : Except Fault (List Char × List Char) :=
  match text with
  | [] => .error (.before [] .endInText)
  | '"' :: rest => .ok (read.reverse, rest)
  | '\\' :: rest =>
    match h : readEscape rest with
    | .error fault => .error fault
    | .ok (c, rest') =>
      have := readEscape_shorter h
      readTextFrom (c :: read) rest'
  | c :: rest =>
    if isControl c then .error (.before rest .controlCharacter) else readTextFrom (c :: read) rest
termination_by text.length
decreasing_by
  all_goals simp only [List.length_cons]; omega

/-- Reads a quoted text from behind its opening quote. -/
def readText (text : List Char) : Except Fault (List Char × List Char) := readTextFrom [] text

/-- Passes over a quoted text from behind its opening quote. -/
def passText (text : List Char) : Except Fault (List Char) :=
  match text with
  | [] => .error (.before [] .endInText)
  | '"' :: rest => .ok rest
  | '\\' :: rest =>
    match h : passEscape rest with
    | .error fault => .error fault
    | .ok rest' =>
      have := passEscape_shorter h
      passText rest'
  | c :: rest => if isControl c then .error (.before text .controlCharacter) else passText rest
termination_by text.length
decreasing_by
  all_goals simp only [List.length_cons]; omega

theorem readTextFrom_shorter {read text value rest : List Char}
    (h : readTextFrom read text = .ok (value, rest)) : rest.length < text.length := by
  fun_induction readTextFrom read text with
  | case1 => cases h
  | case2 =>
    simp only [Except.ok.injEq, Prod.mk.injEq] at h
    obtain ⟨-, rfl⟩ := h
    exact Nat.lt_succ_self _
  | case3 => cases h
  | case4 read inner c rest' he hshorter ih =>
    have := ih h
    simp only [List.length_cons]
    omega
  | case5 => cases h
  | case6 read c rest' hq hb hc ih => exact Nat.lt_succ_of_lt (ih h)

theorem readText_shorter {text value rest : List Char}
    (h : readText text = .ok (value, rest)) : rest.length < text.length :=
  readTextFrom_shorter h

theorem passText_shorter {text rest : List Char}
    (h : passText text = .ok rest) : rest.length < text.length := by
  fun_induction passText text with
  | case1 => cases h
  | case2 =>
    obtain rfl := Except.ok.inj h
    exact Nat.lt_succ_self _
  | case3 => cases h
  | case4 inner rest' he hshorter ih =>
    have := ih h
    simp only [List.length_cons]
    omega
  | case5 => cases h
  | case6 c rest' hq hb hc ih => exact Nat.lt_succ_of_lt (ih h)

end ProbablePrime.Json
