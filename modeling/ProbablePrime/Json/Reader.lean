/-
  ProbablePrime.Json.Reader — readers of JSON values, put together from smaller ones.

  A reader takes a value off the beginning of a text and leaves less than it was given; that it does
  is part of the reader, and it is what lets lists and records be read to their end.

  A record is written as an object, its fields in any order and with other members in between, or as
  a list of its fields in their own order.
-/
import ProbablePrime.Json.Pass
import ProbablePrime.Number.Decimal

namespace ProbablePrime.Json

/-! ## §1. Readers. -/

/-- A way to read an `α` off the beginning of a text. -/
structure Reader (α : Type) where
  /-- The value and the text behind it. -/
  read : List Char → Except Fault (α × List Char)
  /-- Something is always taken off. -/
  shorter : ∀ {text rest : List Char} {a : α}, read text = .ok (a, rest) →
    rest.length < text.length

namespace Reader

variable {α β : Type}

/-- Reads a whole text, with nothing but space behind the value. -/
def readAll (reader : Reader α) (text : List Char) : Except Refusal α :=
  match reader.read text with
  | .error fault => .error (fault.refusal text)
  | .ok (a, rest) =>
    match skipSpace rest with
    | [] => .ok a
    | rest => .error ((Fault.behind rest .trailingCharacters).refusal text)

/-- Reads an `α` and makes a `β` of it; what is wrong with the value is pending. -/
def refine (reader : Reader α) (f : α → Except Problem β) : Reader β where
  read text :=
    match reader.read text with
    | .error fault => .error fault
    | .ok (a, rest) =>
      match f a with
      | .ok b => .ok (b, rest)
      | .error problem => .error (.pending problem rest)
  shorter h := by
    split at h
    · cases h
    · next hr =>
      split at h
      · simp only [Except.ok.injEq, Prod.mk.injEq] at h
        obtain ⟨-, rfl⟩ := h
        exact reader.shorter hr
      · cases h

end Reader

/-! ## §2. Values of the wrong kind. -/

/-- The fault at a value that is not wanted.  A scalar is read first and may have faults of its own;
a list or an object is not entered. -/
def unexpected (wanted : Wanted) (text : List Char) : Fault :=
  let word (letters rest : List Char) (found : Found) : Fault :=
    match readWord letters rest with
    | .error fault => fault
    | .ok rest => .before rest (.wrongType found wanted)
  match text with
  | [] => .before [] .endInValue
  | 'n' :: rest => word ['u', 'l', 'l'] rest .null
  | 't' :: rest => word ['r', 'u', 'e'] rest (.boolean true)
  | 'f' :: rest => word ['a', 'l', 's', 'e'] rest (.boolean false)
  | '[' :: _ => .before text (.wrongType .list wanted)
  | '\x7b' :: _ => .before text (.wrongType .object wanted)
  | '"' :: rest =>
    match readText rest with
    | .error fault => fault
    | .ok (value, rest) => .before rest (.wrongType (.text (String.ofList value)) wanted)
  | c :: _ =>
    if beginsNumber c then
      match readNumber text with
      | .error fault => fault
      | .ok (number, rest) => .before rest (.wrongType number.found wanted)
    else
      .behind text .noValue

/-! ## §3. Scalars. -/

/-- Reads a quoted text, behind space. -/
def takeText (text : List Char) : Except Fault (List Char × List Char) :=
  match skipSpace text with
  | '"' :: rest => readText rest
  | rest => .error (unexpected .text rest)

/-- Reads a whole number of 64 bits without a sign, behind space. -/
def takeWord (text : List Char) : Except Fault (Nat × List Char) :=
  let text := skipSpace text
  if text.head?.any beginsNumber then
    match readNumber text with
    | .error fault => .error fault
    | .ok (.natural n, rest) => .ok (n, rest)
    | .ok (.negative n, rest) => .error (.before rest (.wrongValue (.integer n) .word))
    | .ok (number, rest) => .error (.before rest (.wrongType number.found .word))
  else
    .error (unexpected .word text)

theorem takeText_shorter {text value rest : List Char} (h : takeText text = .ok (value, rest)) :
    rest.length < text.length := by
  unfold takeText at h
  have := length_skipSpace_le text
  split at h
  · next hs =>
    rw [hs, List.length_cons] at this
    have := readText_shorter h
    omega
  · cases h

theorem takeWord_shorter {text rest : List Char} {n : Nat} (h : takeWord text = .ok (n, rest)) :
    rest.length < text.length := by
  unfold takeWord at h
  dsimp only at h
  have := length_skipSpace_le text
  split at h
  · split at h
    · cases h
    · next hr =>
      have := readNumber_shorter hr
      simp only [Except.ok.injEq, Prod.mk.injEq] at h
      obtain ⟨-, rfl⟩ := h
      omega
    · cases h
    · cases h
  · cases h

namespace Reader

/-- Reads a text. -/
def text : Reader (List Char) := ⟨takeText, takeText_shorter⟩

/-- Reads a whole number of 64 bits without a sign. -/
def word : Reader Nat := ⟨takeWord, takeWord_shorter⟩

/-- Reads a number of any size that is written as a text. -/
def decimal : Reader Nat :=
  text.refine fun value =>
    match Number.ofText? value with
    | some n => .ok n
    | none => .error (.notDecimal (String.ofList value))

end Reader

/-! ## §4. Closing brackets. -/

/-- What is left of a text when a bracket is closed as far as that can be done. -/
def Bracket.settle (bracket : Bracket) (text : List Char) : List Char :=
  match bracket, skipSpace text with
  | .list, ']' :: rest => rest
  -- A comma in front of further elements is passed, and they are not.
  | .list, ',' :: rest => skipSpace rest
  | .object, '\x7d' :: rest => rest
  | _, rest => rest

/-- A fault seen from outside the bracket that it happened in: if it was pending, it is placed. -/
def Fault.outside (bracket : Bracket) : Fault → Fault
  | .placed problem left => .placed problem left
  | .pending problem rest => .before (bracket.settle rest) problem

/-- Closes a list whose elements have all been read. -/
def closeList (text : List Char) : Except Fault (List Char) :=
  match skipSpace text with
  | [] => .error (.before [] .endInList)
  | ']' :: rest => .ok rest
  | ',' :: rest =>
    match skipSpace rest with
    | ']' :: rest => .error (.behind (']' :: rest) .trailingComma)
    | rest => .error (.behind rest .trailingCharacters)
  | rest => .error (.behind rest .trailingCharacters)

theorem closeList_shorter {text rest : List Char} (h : closeList text = .ok rest) :
    rest.length < text.length := by
  unfold closeList at h
  have := length_skipSpace_le text
  split at h
  · cases h
  · next hs =>
    obtain rfl := Except.ok.inj h
    rw [hs, List.length_cons] at this
    omega
  · split at h <;> cases h
  · cases h

/-- How closely a value is checked that is kept. -/
def kept : Care := .close 0

/-! ## §5. Lists. -/

namespace Reader

variable {α β : Type}

/-- Reads elements to the end of a list; `read` holds those that were read so far, the last one
first. -/
def elementsFrom (element : Reader α) (first : Bool) (read : List α) (text : List Char) :
    Except Fault (List α × List Char) :=
  match hn : kept.nextItem .list first text with
  | .error fault => .error fault
  | .ok (.closed rest) => .ok (read.reverse, rest)
  | .ok (.item item) =>
    match he : element.read item with
    | .error fault => .error fault
    | .ok (a, rest) =>
      have := Nat.lt_of_lt_of_le (element.shorter he) (Care.nextItem_item_le hn)
      element.elementsFrom false (a :: read) rest
termination_by text.length

theorem elementsFrom_shorter {element : Reader α} {first : Bool} {read as : List α}
    {text rest : List Char} (h : element.elementsFrom first read text = .ok (as, rest)) :
    rest.length < text.length := by
  fun_induction elementsFrom element first read text with
  | case1 => cases h
  | case2 first read text rest' hn =>
    simp only [Except.ok.injEq, Prod.mk.injEq] at h
    obtain ⟨-, rfl⟩ := h
    exact Care.nextItem_closed_shorter hn
  | case3 => cases h
  | case4 first read text item hn a rest' he hshorter ih => exact Nat.lt_trans (ih h) hshorter

/-- Reads a list, behind space. -/
def takeList (element : Reader α) (text : List Char) : Except Fault (List α × List Char) :=
  match skipSpace text with
  | '[' :: rest => (element.elementsFrom true [] rest).mapError (Fault.outside .list)
  | rest => .error (unexpected .list rest)

theorem of_mapError_eq_ok {γ : Type} {x : Except Fault γ} {f : Fault → Fault} {c : γ}
    (h : x.mapError f = .ok c) : x = .ok c := by
  cases x with
  | error fault => cases h
  | ok a => exact h

theorem takeList_shorter {element : Reader α} {text rest : List Char} {as : List α}
    (h : element.takeList text = .ok (as, rest)) : rest.length < text.length := by
  unfold takeList at h
  have := length_skipSpace_le text
  split at h
  · next hs =>
    rw [hs, List.length_cons] at this
    have := elementsFrom_shorter (of_mapError_eq_ok h)
    omega
  · cases h

/-- Reads a list of what `element` reads. -/
def list (element : Reader α) : Reader (List α) := ⟨element.takeList, takeList_shorter⟩

end Reader

/-! ## §6. Records. -/

/-- A field of a record. -/
structure Field (β : Type) where
  /-- The key under which an object has it. -/
  key : String
  /-- How it is read. -/
  reader : Reader β

/-- The fields of a record, all of one type, in their own order. -/
structure Record (β : Type) (k : Nat) where
  /-- The name of the record. -/
  name : String
  /-- The fields. -/
  fields : Vector (Field β) k

namespace Record

variable {β : Type} {k : Nat}

/-- Which field has a key. -/
def find? (record : Record β k) (key : List Char) : Option (Fin k) :=
  (List.finRange k).find? fun i => record.fields[i].key.toList == key

/-- The first field without a value. -/
def missing? (values : Vector (Option β) k) : Option (Fin k) :=
  (List.finRange k).find? fun i => (values.get i).isNone

theorem isSome_of_missing?_eq_none {values : Vector (Option β) k} (h : missing? values = none)
    (i : Fin k) : (values.get i).isSome = true := by
  have := List.find?_eq_none.1 h i (List.mem_finRange i)
  cases hv : values.get i <;> simp_all

/-- The values of all fields, or the key of the first that has none. -/
def complete (record : Record β k) (values : Vector (Option β) k) : Except String (Vector β k) :=
  match h : missing? values with
  | some i => .error record.fields[i].key
  | none => .ok (Vector.ofFn fun i => (values.get i).get (isSome_of_missing?_eq_none h i))

/-- Reads the value of a member behind its key: the value of field `i`, or one that is not kept. -/
def takeMember (record : Record β k) (values : Vector (Option β) k) (key rest : List Char) :
    Except Fault (Vector (Option β) k × List Char) :=
  match record.find? key with
  | none =>
    match readColon rest with
    | .error fault => .error fault
    | .ok rest =>
      match Care.loose.pass rest with
      | .error fault => .error fault
      | .ok rest => .ok (values, rest)
  | some i =>
    -- A second value is refused before it is looked at.
    if values[i].isSome then
      .error (.pending (.duplicate record.fields[i].key) rest)
    else
      match readColon rest with
      | .error fault => .error fault
      | .ok rest =>
        match record.fields[i].reader.read rest with
        | .error fault => .error fault
        | .ok (value, rest) => .ok (values.set i (some value), rest)

/-- Reads the key of a member. -/
def takeKey (text : List Char) : Except Fault (List Char × List Char) :=
  match text with
  | '"' :: rest => readText rest
  | text => .error (.behind text .noKey)

theorem takeKey_shorter {text key rest : List Char} (h : takeKey text = .ok (key, rest)) :
    rest.length < text.length := by
  unfold takeKey at h
  split at h
  · exact Nat.lt_succ_of_lt (readText_shorter h)
  · cases h

theorem takeMember_shorter {record : Record β k} {values values' : Vector (Option β) k}
    {key text rest : List Char} (h : record.takeMember values key text = .ok (values', rest)) :
    rest.length < text.length := by
  unfold takeMember at h
  split at h
  · split at h
    · cases h
    · next hc =>
      have := readColon_shorter hc
      split at h
      · cases h
      · next hp =>
        have := Care.pass_shorter hp
        simp only [Except.ok.injEq, Prod.mk.injEq] at h
        obtain ⟨-, rfl⟩ := h
        omega
  · next i _ =>
    split at h
    · cases h
    · split at h
      · cases h
      · next hc =>
        have := readColon_shorter hc
        split at h
        · cases h
        · next hr =>
          have := record.fields[i].reader.shorter hr
          simp only [Except.ok.injEq, Prod.mk.injEq] at h
          obtain ⟨-, rfl⟩ := h
          omega

/-- Reads members to the end of an object; `values` holds the fields that were read so far. -/
def membersFrom (record : Record β k) (first : Bool) (values : Vector (Option β) k)
    (text : List Char) : Except Fault (Vector β k × List Char) :=
  match hn : kept.nextItem .object first text with
  | .error fault => .error fault
  | .ok (.closed rest) =>
    match record.complete values with
    | .ok values => .ok (values, rest)
    | .error key => .error (.before rest (.missing key))
  | .ok (.item item) =>
    match hk : takeKey item with
    | .error fault => .error fault
    | .ok (key, rest) =>
      match hm : record.takeMember values key rest with
      | .error fault => .error fault
      | .ok (values, rest') =>
        have := Nat.lt_trans (takeMember_shorter hm)
          (Nat.lt_of_lt_of_le (takeKey_shorter hk) (Care.nextItem_item_le hn))
        record.membersFrom false values rest'
termination_by text.length

theorem membersFrom_shorter {record : Record β k} {first : Bool} {values : Vector (Option β) k}
    {all : Vector β k} {text rest : List Char}
    (h : record.membersFrom first values text = .ok (all, rest)) : rest.length < text.length := by
  fun_induction membersFrom record first values text with
  | case1 => cases h
  | case2 first values text rest' hn values' hc =>
    simp only [Except.ok.injEq, Prod.mk.injEq] at h
    obtain ⟨-, rfl⟩ := h
    exact Care.nextItem_closed_shorter hn
  | case3 => cases h
  | case4 => cases h
  | case5 => cases h
  | case6 first values text item hn key rest' hk values' rest'' hm hshorter ih =>
    exact Nat.lt_trans (ih h) hshorter

/-- Reads the fields from number `i` on as elements of a list, and closes the list. -/
def elementsFrom (record : Record β k) (i : Nat) (hi : i ≤ k) (read : Vector β i)
    (text : List Char) : Except Fault (Vector β k × List Char) :=
  if h : i < k then
    match kept.nextItem .list (i == 0) text with
    | .error fault => .error fault
    | .ok (.closed rest) => .error (.before rest (.wrongLength i record.name k))
    | .ok (.item item) =>
      match (record.fields.get ⟨i, h⟩).reader.read item with
      | .error fault => .error fault
      | .ok (value, rest) => record.elementsFrom (i + 1) h (read.push value) rest
  else
    match closeList text with
    | .error fault => .error fault
    | .ok rest => .ok (read.cast (Nat.le_antisymm hi (Nat.le_of_not_lt h)), rest)
termination_by k - i

theorem elementsFrom_shorter {record : Record β k} {i : Nat} {hi : i ≤ k} {read : Vector β i}
    {all : Vector β k} {text rest : List Char}
    (h : record.elementsFrom i hi read text = .ok (all, rest)) : rest.length < text.length := by
  fun_induction elementsFrom record i hi read text with
  | case1 => cases h
  | case2 => cases h
  | case3 => cases h
  | case4 i hi read text hik item hn value rest' hr ih =>
    have := ih h
    have := (record.fields.get ⟨i, hik⟩).reader.shorter hr
    have := Care.nextItem_item_le hn
    omega
  | case5 => cases h
  | case6 i hi read text hik rest' hc =>
    simp only [Except.ok.injEq, Prod.mk.injEq] at h
    obtain ⟨-, rfl⟩ := h
    exact closeList_shorter hc

/-- Reads a record, behind space. -/
def take (record : Record β k) (text : List Char) : Except Fault (Vector β k × List Char) :=
  match skipSpace text with
  | '[' :: rest =>
    (record.elementsFrom 0 (Nat.zero_le k) #v[] rest).mapError (Fault.outside .list)
  | '\x7b' :: rest =>
    (record.membersFrom true (Vector.replicate k none) rest).mapError (Fault.outside .object)
  | rest => .error (unexpected (.record record.name) rest)

theorem take_shorter {record : Record β k} {text rest : List Char} {values : Vector β k}
    (h : record.take text = .ok (values, rest)) : rest.length < text.length := by
  unfold take at h
  have := length_skipSpace_le text
  split at h
  · next hs =>
    rw [hs, List.length_cons] at this
    have := elementsFrom_shorter (Reader.of_mapError_eq_ok h)
    omega
  · next hs =>
    rw [hs, List.length_cons] at this
    have := membersFrom_shorter (Reader.of_mapError_eq_ok h)
    omega
  · cases h

/-- Reads the values of the fields of a record. -/
def reader (record : Record β k) : Reader (Vector β k) := ⟨record.take, take_shorter⟩

end Record

/-- Makes something else of what a reader reads. -/
def Reader.map {α β : Type} (f : α → β) (reader : Reader α) : Reader β :=
  reader.refine fun a => .ok (f a)

end ProbablePrime.Json
