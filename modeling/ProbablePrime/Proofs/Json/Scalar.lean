/-
  ProbablePrime.Proofs.Json.Scalar — texts and numbers of the grammar, and their readers.

  A quoted text is read exactly where the grammar has one, and what is read are the characters that it
  stands for.  What is passed over is held to less: half a surrogate pair may stand alone.

  A number is read to its end, so what is behind it must not look like more of it.  A number without a
  point and without a power of ten is kept exactly as long as it fits 64 bits, since 64 bits hold every
  front of the digits of a number that they hold.

  Main results:
    * `readText_eq_ok_iff` — the texts that are read;
    * `readNumber_of_wordText` and `wordText_of_readNumber` — the whole numbers that are read;
    * `passText_of_looseBody` and `passNumber_of_numberText` — what is passed over.
-/
import ProbablePrime.Proofs.Json.Grammar

namespace ProbablePrime.Json

open ProbablePrime.Number (wordLimit)

variable {text mid rest value : List Char} {c : Char}

/-! ## §1. Escapes. -/

theorem escapeLetter?_eq_some_iff {l : Char} :
    escapeLetter? l = some c ↔ (l, c) ∈ escapeLetters := by
  unfold escapeLetter? escapeLetters
  split <;> simp_all [eq_comm]

theorem readHexQuad_eq_ok_iff {unit : Nat} :
    readHexQuad text = .ok (unit, rest)
      ↔ ∃ a b c d, text = a :: b :: c :: d :: rest ∧ hexQuad? a b c d = some unit := by
  constructor
  · intro h
    unfold readHexQuad at h
    split at h
    · next a b c d rest' =>
      split at h
      · next hquad =>
        obtain ⟨rfl, rfl⟩ := Prod.mk.inj (Except.ok.inj h)
        exact ⟨a, b, c, d, rfl, hquad⟩
      · cases h
    · cases h
  · rintro ⟨a, b, c, d, rfl, hquad⟩
    simp only [readHexQuad, hquad]

theorem readSecondSurrogate_eq_ok_iff {low : Nat} :
    readSecondSurrogate text = .ok (low, rest)
      ↔ ∃ a b c d, text = '\\' :: 'u' :: a :: b :: c :: d :: rest ∧ hexQuad? a b c d = some low
        ∧ 0xDC00 ≤ low ∧ low ≤ 0xDFFF := by
  constructor
  · intro h
    unfold readSecondSurrogate at h
    split at h
    case h_3 inner =>
      split at h
      · cases h
      · next unit rest' hquad =>
        obtain ⟨a, b, c, d, rfl, hunit⟩ := readHexQuad_eq_ok_iff.1 hquad
        split at h
        · next hsecond =>
          obtain ⟨rfl, rfl⟩ := Prod.mk.inj (Except.ok.inj h)
          refine ⟨a, b, c, d, rfl, hunit, ?_⟩
          simpa [isSecondSurrogate] using hsecond
        · cases h
    all_goals cases h
  · rintro ⟨a, b, c, d, rfl, hunit, hlow⟩
    have hquad : readHexQuad (a :: b :: c :: d :: rest) = .ok (low, rest) :=
      readHexQuad_eq_ok_iff.2 ⟨a, b, c, d, rfl, hunit⟩
    have hsecond : isSecondSurrogate low = true := by simpa [isSecondSurrogate] using hlow
    simp only [readSecondSurrogate, hquad, hsecond, if_true]

/-- Behind a backslash, `u` is no letter of an escape: four digits follow it. -/
theorem ne_u_of_mem_escapeLetters {l : Char} (h : (l, c) ∈ escapeLetters) : l ≠ 'u' := by
  rintro rfl
  simp [escapeLetters] at h

/-- What is read behind `u` is a code unit, or two of them that are a pair. -/
theorem escapeText_of_readUnits (h : readUnits text = .ok (c, rest)) :
    EscapeText c ('u' :: text) rest := by
  unfold readUnits at h
  split at h
  · cases h
  · next unit mid hquad =>
    obtain ⟨a, b, c, d, rfl, hunit⟩ := readHexQuad_eq_ok_iff.1 hquad
    split at h
    · cases h
    · next hsecond =>
      simp only [isSecondSurrogate, Bool.and_eq_true, decide_eq_true_eq] at hsecond
      split at h
      · next hfirst =>
        simp only [isFirstSurrogate, Bool.and_eq_true, decide_eq_true_eq] at hfirst
        split at h
        · cases h
        · next low rest' hlow =>
          obtain ⟨rfl, rfl⟩ := Prod.mk.inj (Except.ok.inj h)
          obtain ⟨a', b', c', d', rfl, hunit', hrange⟩ := readSecondSurrogate_eq_ok_iff.1 hlow
          exact .pair hunit hfirst hunit' hrange
      · next hfirst =>
        simp only [isFirstSurrogate, Bool.and_eq_true, decide_eq_true_eq] at hfirst
        obtain ⟨rfl, rfl⟩ := Prod.mk.inj (Except.ok.inj h)
        exact .unit hunit (by omega)

theorem escapeText_of_readEscape (h : readEscape text = .ok (c, rest)) : EscapeText c text rest := by
  unfold readEscape at h
  split at h
  · cases h
  · exact escapeText_of_readUnits h
  · split at h
    · next hletter =>
      obtain ⟨rfl, rfl⟩ := Prod.mk.inj (Except.ok.inj h)
      exact .letter (escapeLetter?_eq_some_iff.1 hletter)
    · cases h

theorem readEscape_of_escapeText (h : EscapeText c text rest) : readEscape text = .ok (c, rest) := by
  cases h with
  | letter hletter =>
    rw [readEscape.eq_def]
    split
    · next heq => cases heq
    · next heq => exact absurd (List.cons.inj heq).1 (ne_u_of_mem_escapeLetters hletter)
    · next heq =>
      obtain ⟨rfl, rfl⟩ := List.cons.inj heq
      simp only [escapeLetter?_eq_some_iff.2 hletter]
  | @unit a b c d unit rest hunit hrange =>
    have hquad : readHexQuad (a :: b :: c :: d :: rest) = .ok (unit, rest) :=
      readHexQuad_eq_ok_iff.2 ⟨a, b, c, d, rfl, hunit⟩
    have hfirst : isFirstSurrogate unit = false := by simp [isFirstSurrogate]; omega
    have hsecond : isSecondSurrogate unit = false := by simp [isSecondSurrogate]; omega
    simp only [readEscape, readUnits, hquad, hfirst, hsecond, Bool.false_eq_true, if_false]
  | @pair a b c d a' b' c' d' high low rest hunit hhigh hunit' hlow =>
    have hquad {tail : List Char} : readHexQuad (a :: b :: c :: d :: tail) = .ok (high, tail) :=
      readHexQuad_eq_ok_iff.2 ⟨a, b, c, d, rfl, hunit⟩
    have hfirst : isFirstSurrogate high = true := by simpa [isFirstSurrogate] using hhigh
    have hsecond : isSecondSurrogate high = false := by simp [isSecondSurrogate]; omega
    have hrest : readSecondSurrogate ('\\' :: 'u' :: a' :: b' :: c' :: d' :: rest) = .ok (low, rest) :=
      readSecondSurrogate_eq_ok_iff.2 ⟨a', b', c', d', rfl, hunit', hlow⟩
    simp only [readEscape, readUnits, hquad, hfirst, hsecond, hrest, Bool.false_eq_true, if_false,
      if_true, ofSurrogates]

/-- The escapes that are read are those of the grammar. -/
theorem readEscape_eq_ok_iff : readEscape text = .ok (c, rest) ↔ EscapeText c text rest :=
  ⟨escapeText_of_readEscape, readEscape_of_escapeText⟩

theorem passEscape_of_looseEscape (h : LooseEscape text rest) : passEscape text = .ok rest := by
  cases h with
  | letter hletter =>
    rw [passEscape.eq_def]
    split
    · next heq => cases heq
    · next heq => exact absurd (List.cons.inj heq).1 (ne_u_of_mem_escapeLetters hletter)
    · next heq =>
      obtain ⟨rfl, rfl⟩ := List.cons.inj heq
      simp [escapeLetter?_eq_some_iff.2 hletter]
  | @unit a b c d unit rest hunit =>
    have hquad : readHexQuad (a :: b :: c :: d :: rest) = .ok (unit, rest) :=
      readHexQuad_eq_ok_iff.2 ⟨a, b, c, d, rfl, hunit⟩
    simp only [passEscape, hquad]

/-! ## §2. Quoted texts. -/

theorem isControl_eq_false_iff : isControl c = false ↔ 0x20 ≤ c.toNat := by
  rw [isControl, decide_eq_false_iff_not, Nat.not_lt]

/-- A character that stands for itself is read and kept. -/
theorem readTextFrom_plain {read : List Char} (hquote : c ≠ '"') (hslash : c ≠ '\\')
    (hcontrol : 0x20 ≤ c.toNat) :
    readTextFrom read (c :: text) = readTextFrom (c :: read) text := by
  rw [readTextFrom.eq_def]
  split
  · next heq => cases heq
  · next heq => exact absurd (List.cons.inj heq).1 hquote
  · next heq => exact absurd (List.cons.inj heq).1 hslash
  · next heq =>
    obtain ⟨rfl, rfl⟩ := List.cons.inj heq
    rw [isControl_eq_false_iff.2 hcontrol, if_neg Bool.false_ne_true]

theorem readTextFrom_escape {read : List Char} (h : readEscape text = .ok (c, mid)) :
    readTextFrom read ('\\' :: text) = readTextFrom (c :: read) mid := by
  rw [readTextFrom]
  split
  · simp_all
  · next heq =>
    obtain ⟨rfl, rfl⟩ := Prod.mk.inj (Except.ok.inj (heq.symm.trans h))
    rfl

theorem readTextFrom_of_textBody (h : TextBody value text rest) (read : List Char) :
    readTextFrom read text = .ok (read.reverse ++ value, rest) := by
  induction h generalizing read with
  | close => simp [readTextFrom]
  | plain hquote hslash hcontrol _ ih =>
    rw [readTextFrom_plain hquote hslash hcontrol, ih]
    simp
  | escape hescape _ ih =>
    rw [readTextFrom_escape (readEscape_eq_ok_iff.2 hescape), ih]
    simp

theorem textBody_of_readTextFrom {read result : List Char}
    (h : readTextFrom read text = .ok (result, rest)) :
    ∃ value, result = read.reverse ++ value ∧ TextBody value text rest := by
  fun_induction readTextFrom read text with
  | case1 => cases h
  | case2 read rest' =>
    obtain ⟨rfl, rfl⟩ := Prod.mk.inj (Except.ok.inj h)
    exact ⟨[], by simp, .close⟩
  | case3 => cases h
  | case4 read inner c rest' hescape hshorter ih =>
    obtain ⟨value, rfl, hbody⟩ := ih h
    exact ⟨c :: value, by simp, .escape (readEscape_eq_ok_iff.1 hescape) hbody⟩
  | case5 => cases h
  | case6 read c rest' hquote hslash hcontrol ih =>
    obtain ⟨value, rfl, hbody⟩ := ih h
    rw [Bool.not_eq_true, isControl_eq_false_iff] at hcontrol
    refine ⟨c :: value, by simp, .plain ?_ ?_ hcontrol hbody⟩
    · rintro rfl
      exact hquote rfl
    · rintro rfl
      exact hslash rfl

/-- **A text is read exactly where the grammar has one**, with the characters that are meant. -/
theorem readText_eq_ok_iff : readText text = .ok (value, rest) ↔ TextBody value text rest := by
  constructor
  · intro h
    obtain ⟨value', rfl, hbody⟩ := textBody_of_readTextFrom h
    exact hbody
  · intro h
    exact readTextFrom_of_textBody h []

/-- **A text of any code units is passed over.** -/
theorem passText_of_looseBody (h : LooseBody text rest) : passText text = .ok rest := by
  induction h with
  | close => simp [passText]
  | @plain c text rest hquote hslash hcontrol _ ih =>
    rw [passText.eq_def]
    split
    · next heq => cases heq
    · next heq => exact absurd (List.cons.inj heq).1 hquote
    · next heq => exact absurd (List.cons.inj heq).1 hslash
    · next heq =>
      obtain ⟨rfl, rfl⟩ := List.cons.inj heq
      rw [isControl_eq_false_iff.2 hcontrol, if_neg Bool.false_ne_true, ih]
  | @escape text mid rest hescape _ ih =>
    rw [passText]
    split
    · next heq => simp [passEscape_of_looseEscape hescape] at heq
    · next heq =>
      obtain rfl := Except.ok.inj (heq.symm.trans (passEscape_of_looseEscape hescape))
      exact ih

/-! ## §3. The parts of a number. -/

/-- No digit comes next. -/
def NoDigit (rest : List Char) : Prop := ∀ c ∈ rest.head?, c.isDigit = false

variable {digits fraction exponent : List Char} {cut : Problem}

theorem Stops.noDigit (h : Stops rest) : NoDigit rest := fun _ hc => (h.not_number hc).1

theorem Digits.exists_cons (h : Digits digits) :
    ∃ c tail, digits = c :: tail ∧ c.isDigit = true := by
  obtain ⟨hne, hall⟩ := h
  obtain ⟨c, tail, rfl⟩ := List.exists_cons_of_ne_nil hne
  exact ⟨c, tail, rfl, hall c List.mem_cons_self⟩

theorem WholePart.exists_cons (h : WholePart digits) :
    ∃ c tail, digits = c :: tail ∧ c.isDigit = true := by
  rcases h with rfl | ⟨hdigits, -⟩
  · exact ⟨'0', [], rfl, by decide⟩
  · exact hdigits.exists_cons

/-- The digits at the beginning of a text are all that stand there. -/
theorem Digits.split (h : Digits digits) (hrest : NoDigit rest) :
    leadingDigits (digits ++ rest) = digits ∧ afterDigits (digits ++ rest) = rest := by
  rw [leadingDigits, afterDigits, List.takeWhile_append_of_pos h.2, List.dropWhile_append_of_pos h.2]
  cases rest with
  | nil => simp
  | cons c rest =>
    have hc : c.isDigit = false := hrest c (by simp)
    simp [hc]

/-- Where a digit stands, the digits of a text are one or more, and the text goes on behind them. -/
theorem digits_leadingDigits (hc : c.isDigit = true) (tail : List Char) :
    Digits (leadingDigits (c :: tail))
      ∧ c :: tail = leadingDigits (c :: tail) ++ afterDigits (c :: tail) := by
  refine ⟨⟨?_, fun d hd => List.mem_takeWhile_imp hd⟩, List.takeWhile_append_dropWhile.symm⟩
  rw [leadingDigits, List.takeWhile_cons, if_pos hc]
  exact List.cons_ne_nil _ _

theorem readWhole_of_wholePart (h : WholePart digits) (hrest : NoDigit rest) :
    readWhole cut (digits ++ rest) = .ok (digits, rest) := by
  rcases h with rfl | ⟨hdigits, hzero⟩
  · -- A zero in front is the whole number, unless another digit follows.
    have hnext : ¬ rest.head?.any Char.isDigit = true := by
      cases rest with
      | nil => simp
      | cons c rest => simpa using hrest c (by simp)
    rw [List.singleton_append, readWhole, if_neg hnext]
  · -- Any other first digit takes all digits behind it along.
    obtain ⟨hleading, hafter⟩ := hdigits.split hrest
    obtain ⟨c, tail, rfl, hc⟩ := hdigits.exists_cons
    have hne : c ≠ '0' := by simpa using hzero
    rw [List.cons_append] at hleading hafter ⊢
    rw [readWhole.eq_def]
    split
    · next heq => cases heq
    · next heq => exact absurd (List.cons.inj heq).1 hne
    · next heq =>
      obtain ⟨rfl, -⟩ := List.cons.inj heq
      rw [if_pos hc, hleading, hafter]

theorem wholePart_of_readWhole (h : readWhole cut text = .ok (digits, rest)) :
    WholePart digits ∧ text = digits ++ rest := by
  unfold readWhole at h
  split at h
  · cases h
  · split at h
    · cases h
    · obtain ⟨rfl, rfl⟩ := Prod.mk.inj (Except.ok.inj h)
      exact ⟨Or.inl rfl, rfl⟩
  · next c tail hzero =>
    split at h
    · next hc =>
      obtain ⟨rfl, rfl⟩ := Prod.mk.inj (Except.ok.inj h)
      obtain ⟨hdigits, htext⟩ := digits_leadingDigits hc tail
      refine ⟨Or.inr ⟨hdigits, ?_⟩, htext⟩
      rw [leadingDigits, List.takeWhile_cons, if_pos hc, List.head?_cons, ne_eq, Option.some.injEq]
      rintro rfl
      exact hzero rfl
    · cases h

/-- What stands behind the digits in front of a point. -/
theorem readFraction_of_fractionPart (cut : Problem) (h : FractionPart fraction) (hrest : NoDigit rest)
    (hpoint : rest.head? ≠ some '.') :
    ∃ digits, readFraction cut (fraction ++ rest) = .ok (digits, rest)
      ∧ (fraction = [] → digits = []) := by
  rcases h with rfl | ⟨digits, rfl, hdigits⟩
  · refine ⟨[], ?_, fun _ => rfl⟩
    rw [List.nil_append, readFraction.eq_def]
    split
    · exact absurd rfl hpoint
    · exact absurd rfl hpoint
    · rfl
  · refine ⟨digits, ?_, fun hnil => by cases hnil⟩
    obtain ⟨hleading, hafter⟩ := hdigits.split hrest
    obtain ⟨c, tail, rfl, hc⟩ := hdigits.exists_cons
    simp only [List.cons_append] at hleading hafter ⊢
    rw [readFraction, if_pos hc, hleading, hafter]

theorem eq_of_readFraction_nil (h : readFraction cut text = .ok ([], rest)) : text = rest := by
  unfold readFraction at h
  split at h
  · cases h
  · next c tail =>
    split at h
    · next hc =>
      obtain ⟨hnil, -⟩ := Prod.mk.inj (Except.ok.inj h)
      exact absurd hnil (digits_leadingDigits hc tail).1.1
    · cases h
  · exact (Prod.mk.inj (Except.ok.inj h)).2

theorem readExponentDigits_of_digits (cut : Problem) (h : Digits digits) (hrest : NoDigit rest)
    (negative : Bool) :
    readExponentDigits cut negative (digits ++ rest) = .ok (⟨negative, digits⟩, rest) := by
  obtain ⟨hleading, hafter⟩ := h.split hrest
  obtain ⟨c, tail, rfl, hc⟩ := h.exists_cons
  rw [List.cons_append] at hleading hafter ⊢
  simp only [readExponentDigits, hc, if_true, hleading, hafter]

theorem readExponent_of_exponentPart (cut : Problem) (h : ExponentPart exponent) (hrest : Stops rest) :
    ∃ power, readExponent cut (exponent ++ rest) = .ok (power, rest)
      ∧ (exponent = [] → power = none) := by
  rcases h with rfl | ⟨mark, sign, digits, rfl, hmark, hsign, hdigits⟩
  · refine ⟨none, ?_, fun _ => rfl⟩
    rw [List.nil_append, readExponent.eq_def]
    dsimp only
    split
    · exact absurd rfl (hrest.not_number (by simp)).2.2.1
    · exact absurd rfl (hrest.not_number (by simp)).2.2.2
    · rfl
  · have hread := readExponentDigits_of_digits cut hdigits hrest.noDigit
    obtain ⟨c, tail, rfl, hc⟩ := hdigits.exists_cons
    have hplus : c ≠ '+' := by
      rintro rfl
      exact absurd hc (by decide)
    have hminus : c ≠ '-' := by
      rintro rfl
      exact absurd hc (by decide)
    simp only [List.cons_append] at hread
    rcases hsign with rfl | rfl | rfl
    · refine ⟨some ⟨false, c :: tail⟩, ?_, fun hnil => by cases hnil⟩
      rcases hmark with rfl | rfl <;> simp [readExponent, hread, hplus, hminus]
    · refine ⟨some ⟨false, c :: tail⟩, ?_, fun hnil => by cases hnil⟩
      rcases hmark with rfl | rfl <;> simp [readExponent, hread]
    · refine ⟨some ⟨true, c :: tail⟩, ?_, fun hnil => by cases hnil⟩
      rcases hmark with rfl | rfl <;> simp [readExponent, hread]

theorem eq_of_readExponent_none (h : readExponent cut text = .ok (none, rest)) : text = rest := by
  unfold readExponent at h
  dsimp only at h
  split at h
  · -- Behind an `e` there is a power or a fault.
    split at h <;> split at h <;> cases h
  · split at h <;> split at h <;> cases h
  · exact (Prod.mk.inj (Except.ok.inj h)).2

/-! ## §4. Numbers. -/

/-- **A number is read to its end**, and without a point and a power of ten it has no more than its
digits. -/
theorem readNumeral_of_parts (cut : Problem) {sign whole : List Char}
    (hsign : sign = [] ∨ sign = ['-']) (hwhole : WholePart whole)
    (hfraction : FractionPart fraction) (hexponent : ExponentPart exponent) (hrest : Stops rest) :
    ∃ digits power, readNumeral cut (sign ++ (whole ++ (fraction ++ (exponent ++ rest))))
        = .ok (⟨!sign.isEmpty, whole, digits, power⟩, rest)
      ∧ (fraction = [] → digits = []) ∧ (exponent = [] → power = none) := by
  have hbehind : NoDigit (exponent ++ rest) ∧ (exponent ++ rest).head? ≠ some '.' := by
    rcases hexponent with rfl | ⟨mark, exponentSign, digits, rfl, rfl | rfl, -, -⟩
    · refine ⟨hrest.noDigit, ?_⟩
      intro hpoint
      exact (hrest.not_number (Option.mem_def.2 hpoint)).2.1 rfl
    all_goals simp [NoDigit]
  have hnext : NoDigit (fraction ++ (exponent ++ rest)) := by
    rcases hfraction with rfl | ⟨digits, rfl, -⟩
    · exact hbehind.1
    · simp [NoDigit]
  obtain ⟨digits, hdigits, hnofraction⟩ :=
    readFraction_of_fractionPart cut hfraction hbehind.1 hbehind.2
  obtain ⟨power, hpower, hnopower⟩ := readExponent_of_exponentPart cut hexponent hrest
  have hunsigned (negative : Bool) :
      readUnsigned cut negative (whole ++ (fraction ++ (exponent ++ rest)))
        = .ok (⟨negative, whole, digits, power⟩, rest) := by
    simp only [readUnsigned, readWhole_of_wholePart hwhole hnext, hdigits, hpower]
  refine ⟨digits, power, ?_, hnofraction, hnopower⟩
  rcases hsign with rfl | rfl
  · rw [List.nil_append, readNumeral.eq_def]
    split
    · next heq =>
      -- A minus sign is no digit.
      obtain ⟨c, tail, rfl, hc⟩ := hwhole.exists_cons
      obtain ⟨rfl, -⟩ := List.cons.inj heq
      exact absurd hc (by decide)
    · exact hunsigned false
  · exact hunsigned true

/-- **A number of any size is passed over.** -/
theorem passNumber_of_numberText (h : NumberText text rest) (hrest : Stops rest) :
    passNumber text = .ok rest := by
  obtain ⟨sign, whole, fraction, exponent, hsign, hwhole, hfraction, hexponent, rfl⟩ := h
  obtain ⟨digits, power, hread, -⟩ :=
    readNumeral_of_parts .badNumber hsign hwhole hfraction hexponent hrest
  simp only [passNumber, hread]

/-- Further digits do not make a number smaller. -/
theorem le_ofDigitChars (digits : List Char) (n : Nat) : n ≤ Nat.ofDigitChars 10 digits n := by
  induction digits generalizing n with
  | nil => exact le_rfl
  | cons c digits ih =>
    rw [Nat.ofDigitChars_cons]
    have := ih (10 * n + (c.toNat - '0'.toNat))
    omega

/-- Digits that 64 bits hold are all taken. -/
theorem appendDigits_of_lt {n : Nat} (h : Nat.ofDigitChars 10 digits n < wordLimit) :
    appendDigits n digits = (Nat.ofDigitChars 10 digits n, []) := by
  induction digits generalizing n with
  | nil => rfl
  | cons c digits ih =>
    rw [Nat.ofDigitChars_cons, Nat.mul_comm] at h
    -- What is taken so far is no more than the whole, so it fits as the whole does.
    have hfront : n * 10 + (c.toNat - '0'.toNat) < wordLimit := lt_of_le_of_lt (le_ofDigitChars _ _) h
    rw [appendDigits, if_pos hfront, ih h, Nat.ofDigitChars_cons, Nat.mul_comm]

/-- Digits that are all taken are those of a number that 64 bits hold. -/
theorem lt_of_appendDigits {n m : Nat} (h : appendDigits n digits = (m, [])) (hn : n < wordLimit) :
    Nat.ofDigitChars 10 digits n = m ∧ m < wordLimit := by
  induction digits generalizing n with
  | nil =>
    obtain ⟨rfl, -⟩ := Prod.mk.inj h
    exact ⟨rfl, hn⟩
  | cons c digits ih =>
    rw [appendDigits] at h
    split at h
    · next hnext =>
      rw [Nat.ofDigitChars_cons, Nat.mul_comm]
      exact ih h hnext
    · cases (Prod.mk.inj h).2

/-- **A whole number of 64 bits is read exactly.** -/
theorem readNumber_of_wordText {n : Nat} (h : WordText n text rest) (hrest : Stops rest) :
    readNumber text = .ok (.natural n, rest) := by
  obtain ⟨digits, hdigits, hvalue, hlt, rfl⟩ := h
  obtain ⟨behind, power, hread, hbehind, hpower⟩ :=
    readNumeral_of_parts .endInValue (Or.inl rfl) hdigits (Or.inl rfl) (Or.inl rfl) hrest
  rw [hbehind rfl, hpower rfl] at hread
  have hlimit : Nat.ofDigitChars 10 digits 0 < wordLimit := by
    rw [hvalue]
    exact hlt
  have happend := appendDigits_of_lt hlimit
  rw [hvalue] at happend
  simp only [List.nil_append] at hread
  simp [readNumber, hread, Numeral.value, happend, Numeral.wholeValue]

/-- A numeral without a sign, a point and a power of ten is read off its digits. -/
theorem wholePart_of_readNumeral {numeral : Numeral}
    (h : readNumeral cut text = .ok (numeral, rest)) (hpositive : numeral.negative = false)
    (hfraction : numeral.fraction = []) (hexponent : numeral.exponent = none) :
    WholePart numeral.whole ∧ text = numeral.whole ++ rest := by
  have hunsigned {negative : Bool} {inner : List Char}
      (h : readUnsigned cut negative inner = .ok (numeral, rest)) :
      numeral.negative = negative ∧ WholePart numeral.whole ∧ inner = numeral.whole ++ rest := by
    unfold readUnsigned at h
    split at h
    · cases h
    · next whole text₁ hwhole =>
      split at h
      · cases h
      · next fraction text₂ hpoint =>
        split at h
        · cases h
        · next power text₃ hpower =>
          obtain ⟨rfl, rfl⟩ := Prod.mk.inj (Except.ok.inj h)
          obtain rfl : fraction = [] := hfraction
          obtain rfl : power = none := hexponent
          obtain ⟨hpart, htext⟩ := wholePart_of_readWhole hwhole
          obtain rfl := eq_of_readFraction_nil hpoint
          obtain rfl := eq_of_readExponent_none hpower
          exact ⟨rfl, hpart, htext⟩
  unfold readNumeral at h
  split at h
  · obtain ⟨hnegative, -⟩ := hunsigned h
    rw [hpositive] at hnegative
    cases hnegative
  · exact (hunsigned h).2

/-- Only a numeral without a sign, a point and a power of ten is a whole number. -/
theorem Numeral.eq_of_value {numeral : Numeral} {n : Nat} (h : numeral.value = .ok (.natural n)) :
    numeral.negative = false ∧ numeral.fraction = [] ∧ numeral.exponent = none
      ∧ Nat.ofDigitChars 10 numeral.whole 0 = n ∧ n < wordLimit := by
  unfold Numeral.value at h
  rcases happend : appendDigits 0 numeral.whole with ⟨wholes, dropped⟩
  rw [happend] at h
  dsimp only at h
  split at h
  · next hplain =>
    simp only [Bool.and_eq_true, List.isEmpty_iff, Option.isNone_iff_eq_none] at hplain
    obtain ⟨⟨hfraction, hexponent⟩, rfl⟩ := hplain
    obtain ⟨hvalue, hlt⟩ := lt_of_appendDigits happend (by decide)
    unfold Numeral.wholeValue at h
    split at h
    · next hpositive =>
      obtain rfl := Number.natural.inj (Except.ok.inj h)
      exact ⟨by simpa using hpositive, hfraction, hexponent, hvalue, hlt⟩
    · split at h <;> cases h
  · -- Every other numeral is a double, or out of range.
    exfalso
    split at h
    · split at h <;> simp [Numeral.signed] at h
    · split at h
      · split at h <;> simp [Numeral.signed] at h
      · split at h <;> cases h

/-- **Only whole numbers of 64 bits are read as such.** -/
theorem wordText_of_readNumber {n : Nat} (h : readNumber text = .ok (.natural n, rest)) :
    WordText n text rest := by
  unfold readNumber at h
  split at h
  · cases h
  · next numeral rest' hread =>
    split at h
    · next number hvalue =>
      obtain ⟨rfl, rfl⟩ := Prod.mk.inj (Except.ok.inj h)
      obtain ⟨hpositive, hfraction, hexponent, hdigits, hlt⟩ := Numeral.eq_of_value hvalue
      obtain ⟨hwhole, htext⟩ := wholePart_of_readNumeral hread hpositive hfraction hexponent
      exact ⟨numeral.whole, hwhole, hdigits, hlt, htext⟩
    · cases h

/-! ## §5. Readers. -/

/-- The reader understands the elements of the grammar: it reads one that means something as what it
means, wherever it stands, and it refuses one that means nothing. -/
structure Understands {α γ : Type} (reader : Reader α) (element : γ → List Char → List Char → Prop)
    (means : γ → α → Prop) : Prop where
  /-- An element begins with neither space nor a closing bracket. -/
  opens : ∀ {g : γ} {text rest : List Char}, element g text rest → Opens text
  /-- What has a meaning is read. -/
  ok : ∀ {g : γ} {a : α} {text' text rest : List Char}, Space text' text → element g text rest →
    Stops rest → means g a → reader.read text' = .ok (a, rest)
  /-- What has none is refused. -/
  error : ∀ {g : γ} {text' text rest : List Char}, Space text' text → element g text rest →
    Stops rest → (∀ a, ¬ means g a) → ∃ fault, reader.read text' = .error fault

/-- A reader that understands elements understands fewer of them. -/
theorem Understands.of_element {α γ : Type} {reader : Reader α}
    {element element' : γ → List Char → List Char → Prop} {means : γ → α → Prop}
    (h : Understands reader element means)
    (helement : ∀ g text rest, element' g text rest → element g text rest) :
    Understands reader element' means where
  opens hg := h.opens (helement _ _ _ hg)
  ok hspace hg := h.ok hspace (helement _ _ _ hg)
  error hspace hg := h.error hspace (helement _ _ _ hg)

theorem Reader.map_read_ok {α β : Type} {reader : Reader α} {f : α → β} {a : α}
    (h : reader.read text = .ok (a, rest)) : (reader.map f).read text = .ok (f a, rest) := by
  simp only [Reader.map, Reader.refine, h]

theorem Reader.map_read_error {α β : Type} {reader : Reader α} {f : α → β} {fault : Fault}
    (h : reader.read text = .error fault) : (reader.map f).read text = .error fault := by
  simp only [Reader.map, Reader.refine, h]

/-- A quoted text that denotes a number. -/
def DecimalText (n : Nat) (text rest : List Char) : Prop :=
  ∃ value, QuotedText value text rest ∧ Number.IsDecimal value n

theorem QuotedText.opens (h : QuotedText value text rest) : Opens text := by
  obtain ⟨body, rfl, -⟩ := h
  exact ⟨'"', body, rfl, by decide, by decide, by decide⟩

/-- A text is read from the space in front of it. -/
theorem takeText_of_quotedText {text' : List Char} (hspace : Space text' text)
    (h : QuotedText value text rest) : takeText text' = .ok (value, rest) := by
  rw [takeText, hspace.skipSpace_of_opens h.opens]
  obtain ⟨body, rfl, hbody⟩ := h
  exact readText_eq_ok_iff.2 hbody

/-- **Numbers of any size are read from texts.** -/
theorem understands_decimal : Understands Reader.decimal DecimalText Eq where
  opens := by
    rintro n text rest ⟨value, hquoted, -⟩
    exact hquoted.opens
  ok := by
    rintro n _ text' text rest hspace ⟨value, hquoted, hvalue⟩ - rfl
    have htext : Reader.text.read text' = .ok (value, rest) := takeText_of_quotedText hspace hquoted
    simp only [Reader.decimal, Reader.refine, htext, Number.ofText?_eq_some_iff.2 hvalue]
  error := by
    intro n text' text rest _ _ _ hnothing
    exact absurd rfl (hnothing n)

theorem WordText.exists_cons {n : Nat} (h : WordText n text rest) :
    ∃ c tail, text = c :: tail ∧ c.isDigit = true := by
  obtain ⟨digits, hdigits, -, -, rfl⟩ := h
  obtain ⟨c, tail, rfl, hc⟩ := hdigits.exists_cons
  exact ⟨c, tail ++ rest, rfl, hc⟩

theorem WordText.opens {n : Nat} (h : WordText n text rest) : Opens text := by
  obtain ⟨c, tail, rfl, hc⟩ := h.exists_cons
  exact opens_of_isDigit hc tail

theorem WordText.begins {n : Nat} (h : WordText n text rest) : text.head?.any beginsNumber = true := by
  obtain ⟨c, tail, rfl, hc⟩ := h.exists_cons
  simp [beginsNumber, hc]

/-- **Numbers of 64 bits are read.** -/
theorem understands_word : Understands Reader.word WordText Eq where
  opens h := h.opens
  ok := by
    rintro n _ text' text rest hspace hword hstops rfl
    show takeWord text' = _
    rw [takeWord, hspace.skipSpace_of_opens hword.opens, if_pos hword.begins,
      readNumber_of_wordText hword hstops]
  error := by
    intro n text' text rest _ _ _ hnothing
    exact absurd rfl (hnothing n)

end ProbablePrime.Json
