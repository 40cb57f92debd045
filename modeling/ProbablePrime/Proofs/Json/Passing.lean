/-
  ProbablePrime.Proofs.Json.Passing — values that are passed over.

  A value that nobody asked for is passed over bracket by bracket, with a record of what is open.
  However deep it is nested, the walk comes out behind its end, with the same brackets open as in front
  of it.  The proof is an induction on how the value is written: a value takes the walk to its end, and
  what is left of a bracket takes it out of the bracket.

  Main results:
    * `Care.nextItem_first`, `Care.nextItem_later` and `Care.nextItem_closed` — from item to item;
    * `pass_of_valueText` — every value is passed over, and no more than the value.
-/
import ProbablePrime.Proofs.Json.Scalar

namespace ProbablePrime.Json

variable {text text' inner more mid rest head tail value : List Char} {bracket : Bracket}
  {first : Bool} {care : Care} {outside opened : List Bracket}

/-! ## §1. Items. -/

theorem Opens.exists_ne_closer (h : Opens inner) (bracket : Bracket) :
    ∃ c tail, inner = c :: tail ∧ c ≠ bracket.closer := by
  obtain ⟨c, tail, rfl, -, hlist, hobject⟩ := h
  refine ⟨c, tail, rfl, ?_⟩
  rcases bracket.closer_eq_or with heq | heq
  · rwa [heq]
  · rwa [heq]

theorem Bracket.opened_closer (bracket : Bracket) (rest : List Char) :
    skipSpace (bracket.closer :: rest) = bracket.closer :: rest := by
  cases bracket with
  | list => exact skipSpace_cons (by decide) rest
  | object => exact skipSpace_cons (by decide) rest

/-- The end of a bracket. -/
theorem Care.nextItem_closed (h : Space text (bracket.closer :: rest)) :
    care.nextItem bracket first text = .ok (.closed rest) := by
  simp only [Care.nextItem, h.skipSpace_eq, bracket.opened_closer, if_pos]

/-- The first item follows the bracket. -/
theorem Care.nextItem_first (h : Space text inner) (hinner : Opens inner) :
    care.nextItem bracket true text = .ok (.item inner) := by
  have hskip := h.skipSpace_of_opens hinner
  obtain ⟨c, tail, rfl, hc⟩ := hinner.exists_ne_closer bracket
  simp only [Care.nextItem, hskip, if_neg hc, if_pos]

/-- Every other item follows a comma. -/
theorem Care.nextItem_later (hcomma : Space text (',' :: more)) (h : Space more inner)
    (hinner : Opens inner) : care.nextItem bracket false text = .ok (.item inner) := by
  have hskip := h.skipSpace_of_opens hinner
  obtain ⟨c, tail, rfl, hc⟩ := hinner.exists_ne_closer bracket
  have hne : ',' ≠ bracket.closer := by
    rcases bracket.closer_eq_or with heq | heq <;> rw [heq] <;> decide
  have htext : skipSpace text = ',' :: more := by
    rw [hcomma.skipSpace_eq]
    exact skipSpace_cons (by decide) more
  simp only [Care.nextItem, htext, if_neg hne, Bool.false_eq_true, if_false, if_pos]
  cases care with
  | loose => simp only [Care.itemAfterComma, hskip]
  | close outer => simp only [Care.itemAfterComma, hskip, if_neg hc]

theorem readColon_of_space (h : Space text (':' :: rest)) : readColon text = .ok rest := by
  simp only [readColon, h.skipSpace_eq, skipSpace_cons (show isSpace ':' = false by decide)]

/-! ## §2. Scalars. -/

theorem NumberText.exists_cons (h : NumberText text rest) :
    ∃ c tail, text = c :: tail ∧ (c = '-' ∨ c.isDigit = true) := by
  obtain ⟨sign, whole, fraction, exponent, hsign, hwhole, -, -, rfl⟩ := h
  obtain ⟨c, tail, rfl, hc⟩ := hwhole.exists_cons
  rcases hsign with rfl | rfl
  · exact ⟨c, _, rfl, Or.inr hc⟩
  · exact ⟨'-', _, rfl, Or.inl rfl⟩

theorem ValueText.opens (h : ValueText .value text rest) : Opens text := by
  cases h with
  | number hnumber =>
    obtain ⟨c, tail, rfl, rfl | hc⟩ := hnumber.exists_cons
    · exact ⟨'-', tail, rfl, by decide, by decide, by decide⟩
    · exact opens_of_isDigit hc tail
  | _ => exact ⟨_, _, rfl, by decide, by decide, by decide⟩

/-- A scalar is passed over in one step. -/
theorem Care.startValue_of_scalar (hspace : Space text' text) (hopens : Opens text)
    (h : care.passScalar text = .ok rest) :
    care.startValue opened text' = .ok (⟨false, opened⟩, rest) := by
  rw [Care.startValue, hspace.skipSpace_of_opens hopens]
  split
  · simp [Care.passScalar, beginsNumber] at h
  · simp [Care.passScalar, beginsNumber] at h
  · rw [h]

theorem passScalar_of_numberText (h : NumberText text rest) (hrest : Stops rest) :
    Care.loose.passScalar text = .ok rest := by
  have hpass : Care.loose.passNumber text = .ok rest := passNumber_of_numberText h hrest
  obtain ⟨c, tail, rfl, hc⟩ := h.exists_cons
  have hbegins : beginsNumber c = true := by
    rcases hc with rfl | hc
    · rfl
    · simp [beginsNumber, hc]
  rw [Care.passScalar.eq_def]
  split
  · next heq => cases heq
  · next heq =>
    obtain ⟨rfl, -⟩ := List.cons.inj heq
    simp [beginsNumber] at hbegins
  · next heq =>
    obtain ⟨rfl, -⟩ := List.cons.inj heq
    simp [beginsNumber] at hbegins
  · next heq =>
    obtain ⟨rfl, -⟩ := List.cons.inj heq
    simp [beginsNumber] at hbegins
  · next heq =>
    obtain ⟨rfl, -⟩ := List.cons.inj heq
    simp [beginsNumber] at hbegins
  · next heq =>
    obtain ⟨rfl, -⟩ := List.cons.inj heq
    rw [if_pos hbegins, hpass]

/-! ## §3. Walks. -/

theorem Care.walkFrom_of_step {walk next : Walk} (hwalk : walk.goesOn = true)
    (h : care.step walk text = .ok (next, rest)) :
    care.walkFrom walk text = care.walkFrom next rest := by
  rw [Care.walkFrom, dif_pos hwalk]
  split
  · simp_all
  · next heq =>
    obtain ⟨rfl, rfl⟩ := Prod.mk.inj (Except.ok.inj (heq.symm.trans h))
    rfl

/-- A walk that wants a value starts with it. -/
theorem Care.walkFrom_of_startValue {next : Walk}
    (h : care.startValue opened text = .ok (next, rest)) :
    care.walkFrom ⟨true, opened⟩ text = care.walkFrom next rest :=
  Care.walkFrom_of_step rfl h

/-- A walk behind an item goes on to the next one, or out of the bracket. -/
theorem Care.walkFrom_of_nextValue {next : Walk}
    (h : care.nextValue bracket outside false text = .ok (next, rest)) :
    care.walkFrom ⟨false, bracket :: outside⟩ text = care.walkFrom next rest :=
  Care.walkFrom_of_step rfl h

/-- What a part of a value does to a walk. -/
def PassedOver (part : Part) (text rest : List Char) : Prop :=
  match part with
  -- A value takes the walk to its end.
  | .value => Stops rest → ∀ text' opened, Space text' text →
      Care.loose.walkFrom ⟨true, opened⟩ text' = Care.loose.walkFrom ⟨false, opened⟩ rest
  -- What is left of a bracket takes it out of the bracket.
  | .items bracket first => ∀ outside, ∃ walk next,
      Care.loose.nextValue bracket outside first text = .ok (walk, next)
        ∧ Care.loose.walkFrom walk next = Care.loose.walkFrom ⟨false, outside⟩ rest

theorem passedOver_of_scalar (hopens : Opens text)
    (h : Stops rest → Care.loose.passScalar text = .ok rest) : PassedOver .value text rest := by
  intro hrest text' opened hspace
  exact Care.walkFrom_of_startValue (Care.startValue_of_scalar hspace hopens (h hrest))

/-- In front of an item, the walk goes to the value of the item. -/
theorem nextValue_of_itemHead (hhead : ItemHead bracket head tail) (hvalue : Space tail value)
    (hopens : Opens value) (hspace : Space inner head)
    (hitem : ∀ {item}, Space inner item → Opens item →
      Care.loose.nextItem bracket first text = .ok (.item item)) (outside : List Bracket) :
    ∃ next, Space next value
      ∧ Care.loose.nextValue bracket outside first text = .ok (⟨true, bracket :: outside⟩, next) := by
  cases hhead with
  | list =>
    refine ⟨value, Space.refl value, ?_⟩
    simp only [Care.nextValue, hitem (hspace.trans hvalue) hopens]
  | object hname hcolon =>
    have hkey := hitem hspace ⟨'"', _, rfl, by decide, by decide, by decide⟩
    refine ⟨tail, hvalue, ?_⟩
    simp only [Care.nextValue, hkey, Care.passKey, Care.passText, passText_of_looseBody hname,
      readColon_of_space hcolon]

/-- A bracket is passed over if its items are; `c` is the character that opens it. -/
theorem passedOver_of_bracket {c : Char} (hopens : Opens (c :: inner))
    (hstart : ∀ {text' opened}, skipSpace text' = c :: inner →
      Care.loose.startValue opened text' = Care.loose.openBracket bracket opened c inner)
    (hitems : PassedOver (.items bracket true) inner rest) : PassedOver .value (c :: inner) rest := by
  intro _ text' opened hspace
  obtain ⟨walk, next, hnext, hwalk⟩ := hitems opened
  -- What is passed over may be nested as deep as it likes.
  have hdepth : Care.loose.allowsDepth opened = true := rfl
  rw [← hwalk]
  apply Care.walkFrom_of_startValue
  rw [hstart (hspace.skipSpace_of_opens hopens), Care.openBracket, if_pos hdepth, hnext]

/-- Items are passed over if the walk comes to the value of the first of them, and that value and the
other items are passed over. -/
theorem passedOver_of_item
    (hhead : ∀ outside, ∃ next, Space next value
      ∧ Care.loose.nextValue bracket outside first text = .ok (⟨true, bracket :: outside⟩, next))
    (hvalue : PassedOver .value value mid) (hmid : Stops mid)
    (hrest : PassedOver (.items bracket false) mid rest) :
    PassedOver (.items bracket first) text rest := by
  intro outside
  obtain ⟨next, hspace, hnext⟩ := hhead outside
  obtain ⟨walk, next', hnext', hwalk⟩ := hrest outside
  refine ⟨⟨true, bracket :: outside⟩, next, hnext, ?_⟩
  calc Care.loose.walkFrom ⟨true, bracket :: outside⟩ next
    _ = Care.loose.walkFrom ⟨false, bracket :: outside⟩ mid := hvalue hmid next _ hspace
    _ = Care.loose.walkFrom walk next' := Care.walkFrom_of_nextValue hnext'
    _ = Care.loose.walkFrom ⟨false, outside⟩ rest := hwalk

theorem passedOver_of_valueText {part : Part} (h : ValueText part text rest) :
    PassedOver part text rest := by
  induction h with
  | nullWord => exact passedOver_of_scalar ValueText.nullWord.opens fun _ => rfl
  | trueWord => exact passedOver_of_scalar ValueText.trueWord.opens fun _ => rfl
  | falseWord => exact passedOver_of_scalar ValueText.falseWord.opens fun _ => rfl
  | text hbody =>
    exact passedOver_of_scalar (ValueText.text hbody).opens fun _ => passText_of_looseBody hbody
  | number hnumber =>
    exact passedOver_of_scalar (ValueText.number hnumber).opens (passScalar_of_numberText hnumber)
  | list hitems ih =>
    refine passedOver_of_bracket (ValueText.list hitems).opens ?_ ih
    intro text' opened hskip
    simp only [Care.startValue, hskip]
  | object hitems ih =>
    refine passedOver_of_bracket (ValueText.object hitems).opens ?_ ih
    intro text' opened hskip
    simp only [Care.startValue, hskip]
  | closed hspace =>
    intro outside
    refine ⟨⟨false, outside⟩, _, ?_, rfl⟩
    simp only [Care.nextValue, Care.nextItem_closed hspace]
  | first hspace hhead hvalue hinner hrest ihvalue ihrest =>
    refine passedOver_of_item ?_ ihvalue hrest.stops ihrest
    exact nextValue_of_itemHead hhead hvalue hinner.opens hspace Care.nextItem_first
  | later hcomma hspace hhead hvalue hinner hrest ihvalue ihrest =>
    refine passedOver_of_item ?_ ihvalue hrest.stops ihrest
    exact nextValue_of_itemHead hhead hvalue hinner.opens hspace (Care.nextItem_later hcomma)

/-- **Every value is passed over**, with the space in front of it and nothing behind it. -/
theorem pass_of_valueText (hspace : Space text' text) (h : ValueText .value text rest)
    (hrest : Stops rest) : Care.loose.pass text' = .ok rest := by
  rw [Care.pass, passedOver_of_valueText h hrest text' [] hspace, Care.walkFrom]
  rfl

end ProbablePrime.Json
