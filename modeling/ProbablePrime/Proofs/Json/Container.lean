/-
  ProbablePrime.Proofs.Json.Container — lists and records, and their readers.

  A list means what its elements mean, one by one.  A record means something when its members are those
  that are asked for, each once and in any order, and every value means something; members that nobody
  asked for are passed over.  A reader that understands the elements, or the fields, understands the
  list, or the record.

  Reading goes from item to item and keeps what was read so far, so both proofs are inductions on how
  the items are written.  For a record `Completes` says when the members that are still to come make the
  fields that were read so far complete; that this does not depend on their order is a fact about lists
  of names, and not about reading.

  Main results:
    * `Understands.list` — lists of elements that are understood;
    * `listOf_of_takeList` — only lists of the grammar are read;
    * `Record.take_of_objectOf` — records whose fields are understood.
-/
import ProbablePrime.Proofs.Json.Passing

namespace ProbablePrime.Json

variable {α β γ : Type} {reader : Reader α} {element : γ → List Char → List Char → Prop}
  {means : γ → α → Prop} {text text' inner mid rest : List Char} {bracket : Bracket} {first : Bool}

/-! ## §1. Lists. -/

theorem Reader.elementsFrom_closed {read : List α}
    (h : kept.nextItem .list first text = .ok (.closed rest)) :
    reader.elementsFrom first read text = .ok (read.reverse, rest) := by
  rw [Reader.elementsFrom]
  split <;> simp_all

theorem Reader.elementsFrom_item {a : α} {read : List α} {item : List Char}
    (h : kept.nextItem .list first text = .ok (.item item))
    (hitem : reader.read item = .ok (a, rest)) :
    reader.elementsFrom first read text = reader.elementsFrom false (a :: read) rest := by
  rw [Reader.elementsFrom]
  split
  · simp_all
  · simp_all
  · next heq =>
    obtain rfl := Next.item.inj (Except.ok.inj (heq.symm.trans h))
    split
    · simp_all
    · next heq' =>
      obtain ⟨rfl, rfl⟩ := Prod.mk.inj (Except.ok.inj (heq'.symm.trans hitem))
      rfl

theorem Reader.elementsFrom_item_error {read : List α} {item : List Char} {fault : Fault}
    (h : kept.nextItem .list first text = .ok (.item item))
    (hitem : reader.read item = .error fault) :
    reader.elementsFrom first read text = .error fault := by
  rw [Reader.elementsFrom]
  split
  · simp_all
  · simp_all
  · next heq =>
    obtain rfl := Next.item.inj (Except.ok.inj (heq.symm.trans h))
    split <;> simp_all

/-- What becomes of elements that follow those that were read. -/
def ReadOn (reader : Reader α) (means : γ → α → Prop) (first : Bool) (gs : List γ)
    (text rest : List Char) : Prop :=
  ∀ read, (∀ as, List.Forall₂ means gs as →
      reader.elementsFrom first read text = .ok (read.reverse ++ as, rest))
    ∧ ((∀ as, ¬ List.Forall₂ means gs as) →
      ∃ fault, reader.elementsFrom first read text = .error fault)

/-- One more element in front. -/
theorem Understands.readOn_cons (h : Understands reader element means) {g : γ} {gs : List γ}
    (hnext : kept.nextItem .list first text = .ok (.item inner)) (hitem : element g inner mid)
    (hmid : Stops mid) (hrest : ReadOn reader means false gs mid rest) :
    ReadOn reader means first (g :: gs) text rest := by
  intro read
  constructor
  · intro as has
    cases has with
    | @cons _ a _ as ha has =>
      rw [Reader.elementsFrom_item hnext (h.ok (Space.refl inner) hitem hmid ha),
        (hrest (a :: read)).1 as has]
      simp
  · intro hnothing
    by_cases hmeaning : ∃ a, means g a
    · obtain ⟨a, ha⟩ := hmeaning
      rw [Reader.elementsFrom_item hnext (h.ok (Space.refl inner) hitem hmid ha)]
      exact (hrest (a :: read)).2 fun as has => hnothing (a :: as) (.cons ha has)
    · obtain ⟨fault, hfault⟩ := h.error (Space.refl inner) hitem hmid (not_exists.1 hmeaning)
      exact ⟨fault, Reader.elementsFrom_item_error hnext hfault⟩

theorem Understands.readOn (h : Understands reader element means) {gs : List γ}
    (hitems : Items element .list first gs text rest) : ReadOn reader means first gs text rest := by
  induction hitems with
  | closed hspace =>
    intro read
    constructor
    · rintro as ⟨⟩
      rw [Reader.elementsFrom_closed (Care.nextItem_closed hspace), List.append_nil]
    · intro hnothing
      exact absurd .nil (hnothing [])
  | first hspace hitem hrest ih =>
    exact h.readOn_cons (Care.nextItem_first hspace (h.opens hitem)) hitem hrest.stops ih
  | later hcomma hspace hitem hrest ih =>
    exact h.readOn_cons (Care.nextItem_later hcomma hspace (h.opens hitem)) hitem hrest.stops ih

/-- **A reader of elements understands lists of them.** -/
theorem Understands.list (h : Understands reader element means) :
    Understands reader.list (ListOf element) (List.Forall₂ means) where
  opens hlist := hlist.opens
  ok := by
    intro gs as text' text rest hspace hlist _ has
    have hskip := hspace.skipSpace_of_opens hlist.opens
    obtain ⟨inner, rfl, hitems⟩ := hlist
    show reader.takeList text' = _
    rw [Reader.takeList, hskip]
    simp only [(h.readOn hitems []).1 as has, Except.mapError, List.reverse_nil, List.nil_append]
  error := by
    intro gs text' text rest hspace hlist _ hnothing
    have hskip := hspace.skipSpace_of_opens hlist.opens
    obtain ⟨inner, rfl, hitems⟩ := hlist
    obtain ⟨fault, hfault⟩ := (h.readOn hitems []).2 hnothing
    refine ⟨fault.outside .list, ?_⟩
    show reader.takeList text' = _
    rw [Reader.takeList, hskip]
    simp only [hfault, Except.mapError]

/-! ## §2. Only lists are read as lists. -/

/-- Whatever is read is an element of the grammar. -/
def Reader.Sound (reader : Reader α) (element : α → List Char → List Char → Prop) : Prop :=
  ∀ ⦃text rest : List Char⦄ ⦃a : α⦄, reader.read text = .ok (a, rest) →
    ∃ inner, Space text inner ∧ element a inner rest

theorem space_of_nextItem_closed (h : kept.nextItem bracket first text = .ok (.closed rest)) :
    Space text (bracket.closer :: rest) := by
  have hspace := space_skipSpace text
  unfold Care.nextItem at h
  split at h
  · cases h
  · next c tail hskip =>
    rw [hskip] at hspace
    split at h
    · next hc =>
      obtain rfl := Next.closed.inj (Except.ok.inj h)
      rwa [hc] at hspace
    · split at h
      · cases h
      · split at h
        · exact absurd h Care.itemAfterComma_ne_closed
        · cases h

/-- An item follows the bracket or a comma. -/
theorem space_of_nextItem_item (h : kept.nextItem bracket first text = .ok (.item inner)) :
    first = true ∧ Space text inner
      ∨ first = false ∧ ∃ more, Space text (',' :: more) ∧ Space more inner := by
  have hspace := space_skipSpace text
  unfold Care.nextItem at h
  split at h
  · cases h
  · next c tail hskip =>
    rw [hskip] at hspace
    split at h
    · cases h
    · split at h
      · next hfirst =>
        obtain rfl := Next.item.inj (Except.ok.inj h)
        exact Or.inl ⟨hfirst, hspace⟩
      · next hlater =>
        split at h
        · next hc =>
          subst hc
          refine Or.inr ⟨by simpa using hlater, tail, hspace, ?_⟩
          have hmore := space_skipSpace tail
          rcases hnext : skipSpace tail with _ | ⟨d, tail'⟩
          · simp [kept, Care.itemAfterComma, hnext] at h
          · rw [hnext] at hmore
            simp only [kept, Care.itemAfterComma, hnext] at h
            split at h
            · cases h
            · obtain rfl := Next.item.inj (Except.ok.inj h)
              exact hmore
        · cases h

theorem Reader.Sound.items {element : α → List Char → List Char → Prop}
    (h : reader.Sound element) {read as : List α}
    (hread : reader.elementsFrom first read text = .ok (as, rest)) :
    ∃ as', as = read.reverse ++ as' ∧ Items element .list first as' text rest := by
  fun_induction Reader.elementsFrom reader first read text with
  | case1 => cases hread
  | case2 first read text rest' hclosed =>
    obtain ⟨rfl, rfl⟩ := Prod.mk.inj (Except.ok.inj hread)
    exact ⟨[], by simp, .closed (space_of_nextItem_closed hclosed)⟩
  | case3 => cases hread
  | case4 first read text item hitem a mid helement hshorter ih =>
    obtain ⟨as', rfl, hrest⟩ := ih hread
    obtain ⟨inner, hinner, ha⟩ := h helement
    refine ⟨a :: as', by simp, ?_⟩
    rcases space_of_nextItem_item hitem with ⟨rfl, hspace⟩ | ⟨rfl, more, hcomma, hspace⟩
    · exact .first (hspace.trans hinner) ha hrest
    · exact .later hcomma (hspace.trans hinner) ha hrest

/-- **Only lists of elements are read.** -/
theorem Reader.Sound.list {element : α → List Char → List Char → Prop} (h : reader.Sound element) :
    reader.list.Sound (ListOf element) := by
  intro text rest as hread
  have hspace := space_skipSpace text
  have htake : reader.takeList text = .ok (as, rest) := hread
  unfold Reader.takeList at htake
  split at htake
  · next inner hskip =>
    rw [hskip] at hspace
    obtain ⟨as', rfl, hitems⟩ := h.items (Reader.of_mapError_eq_ok htake)
    exact ⟨_, hspace, inner, rfl, hitems⟩
  · cases htake

/-! ## §3. Records. -/

theorem Member.opens {names : List String}
    {value : String → γ → List Char → List Char → Prop} {member : Option (String × γ)}
    (h : Member names value member text rest) : Opens text := by
  cases h with
  | asked _ hquoted _ _ _ => exact hquoted.opens
  | other _ hquoted _ _ _ => exact hquoted.opens

namespace Record

variable {k : Nat} {record : Record β k} {all : Vector β k} {values values' : Vector (Option β) k}
  {value : String → γ → List Char → List Char → Prop} {means : γ → β → Prop}
  {members : List (Option (String × γ))}

/-- The key of a field. -/
def keyOf (record : Record β k) (i : Fin k) : String := (record.fields.get i).key

/-- The keys of all fields. -/
def keys (record : Record β k) : List String := (List.finRange k).map record.keyOf

/-- The members make the values of a record complete: each of them tells a field that has no value yet,
and in the end every field has its value. -/
def Completes (record : Record β k) (means : γ → β → Prop) (all : Vector β k) :
    (values : Vector (Option β) k) → (members : List (Option (String × γ))) → Prop
  | values, [] => ∀ i : Fin k, values.get i = some (all.get i)
  | values, none :: members => Completes record means all values members
  | values, some (key, g) :: members =>
    ∃ i : Fin k, record.find? key.toList = some i ∧ values.get i = none
      ∧ ∃ b, means g b ∧ Completes record means all (values.set i (some b) i.isLt) members

theorem find?_eq_none {name : List Char} (h : name ∉ record.keys.map String.toList) :
    record.find? name = none := by
  refine List.find?_eq_none.2 fun i _ => ?_
  rw [beq_iff_eq]
  rintro rfl
  refine h (List.mem_map_of_mem (List.mem_map_of_mem (List.mem_finRange i)))

theorem keyOf_of_find? {key : String} {i : Fin k} (h : record.find? key.toList = some i) :
    record.keyOf i = key := by
  have hkey := List.find?_some h
  rw [beq_iff_eq] at hkey
  exact String.toList_inj.1 hkey

theorem exists_find? {key : String} (h : key ∈ record.keys) :
    ∃ i, record.find? key.toList = some i := by
  obtain ⟨i, -, rfl⟩ := List.mem_map.1 h
  refine Option.isSome_iff_exists.1 (List.find?_isSome.2 ⟨i, List.mem_finRange i, ?_⟩)
  exact beq_self_eq_true _

/-- A record is complete when every field has its value. -/
theorem complete_eq_ok_iff :
    record.complete values = .ok all ↔ ∀ i : Fin k, values.get i = some (all.get i) := by
  unfold Record.complete
  split
  · next i hmissing =>
    have hnone := List.find?_some hmissing
    constructor
    · intro h
      cases h
    · intro h
      rw [h i] at hnone
      cases hnone
  · next hmissing =>
    constructor
    · intro h i
      obtain rfl := Except.ok.inj h
      simp [Vector.get_eq_getElem]
    · intro h
      refine congrArg Except.ok (Vector.ext fun j hj => ?_)
      rw [Vector.getElem_ofFn]
      simp only [h, Option.get_some]
      exact Vector.get_eq_getElem all ⟨j, hj⟩

theorem membersFrom_closed (h : kept.nextItem .object first text = .ok (.closed rest))
    (hcomplete : record.complete values = .ok all) :
    record.membersFrom first values text = .ok (all, rest) := by
  rw [membersFrom]
  split
  · simp_all
  · next heq =>
    obtain rfl := Next.closed.inj (Except.ok.inj (heq.symm.trans h))
    simp only [hcomplete]
  · simp_all

theorem membersFrom_closed_error (h : kept.nextItem .object first text = .ok (.closed rest))
    (hcomplete : ∀ all, record.complete values ≠ .ok all) :
    ∃ fault, record.membersFrom first values text = .error fault := by
  rw [membersFrom]
  split
  · simp_all
  · cases hvalues : record.complete values with
    | ok all => exact absurd hvalues (hcomplete all)
    | error key => exact ⟨_, rfl⟩
  · simp_all

theorem membersFrom_item {item key inner : List Char}
    (h : kept.nextItem .object first text = .ok (.item item)) (hkey : takeKey item = .ok (key, inner))
    (hmember : record.takeMember values key inner = .ok (values', rest)) :
    record.membersFrom first values text = record.membersFrom false values' rest := by
  rw [membersFrom]
  split
  · simp_all
  · simp_all
  · next heq =>
    obtain rfl := Next.item.inj (Except.ok.inj (heq.symm.trans h))
    split
    · simp_all
    · next heq' =>
      obtain ⟨rfl, rfl⟩ := Prod.mk.inj (Except.ok.inj (heq'.symm.trans hkey))
      split
      · simp_all
      · next heq'' =>
        obtain ⟨rfl, rfl⟩ := Prod.mk.inj (Except.ok.inj (heq''.symm.trans hmember))
        rfl

theorem membersFrom_item_error {item key inner : List Char} {fault : Fault}
    (h : kept.nextItem .object first text = .ok (.item item)) (hkey : takeKey item = .ok (key, inner))
    (hmember : record.takeMember values key inner = .error fault) :
    record.membersFrom first values text = .error fault := by
  rw [membersFrom]
  split
  · simp_all
  · simp_all
  · next heq =>
    obtain rfl := Next.item.inj (Except.ok.inj (heq.symm.trans h))
    split
    · simp_all
    · next heq' =>
      obtain ⟨rfl, rfl⟩ := Prod.mk.inj (Except.ok.inj (heq'.symm.trans hkey))
      split <;> simp_all

theorem takeKey_of_quotedText {key : List Char} (h : QuotedText key text rest) :
    takeKey text = .ok (key, rest) := by
  obtain ⟨body, rfl, hbody⟩ := h
  exact readText_eq_ok_iff.2 hbody

/-- A member that nobody asked for is passed over. -/
theorem takeMember_other {key : List Char} {tail : List Char} (hkey : key ∉ record.keys.map String.toList)
    (hcolon : Space text (':' :: tail)) (hspace : Space tail inner)
    (hvalue : ValueText .value inner rest) (hrest : Stops rest) :
    record.takeMember values key text = .ok (values, rest) := by
  simp only [takeMember, find?_eq_none hkey, readColon_of_space hcolon,
    pass_of_valueText hspace hvalue hrest]

/-- A field that has a value is not told again. -/
theorem takeMember_again {key : List Char} {i : Fin k} (hfind : record.find? key = some i)
    (hvalue : values.get i ≠ none) (text : List Char) :
    ∃ fault, record.takeMember values key text = .error fault := by
  have hsome : values[i].isSome = true := Option.isSome_iff_ne_none.2 hvalue
  rw [takeMember, hfind]
  dsimp only
  rw [if_pos hsome]
  exact ⟨_, rfl⟩

/-- A field without a value is read behind its key. -/
theorem takeMember_free {key tail : List Char} {i : Fin k} (hfind : record.find? key = some i)
    (hvalue : values.get i = none) (hcolon : Space text (':' :: tail)) :
    record.takeMember values key text
      = ((record.fields.get i).reader.read tail).map fun told =>
        (values.set i (some told.1) i.isLt, told.2) := by
  have hsome : ¬ values[i].isSome = true := by
    intro h
    exact Option.isSome_iff_ne_none.1 h hvalue
  rw [takeMember, hfind]
  dsimp only
  rw [if_neg hsome, readColon_of_space hcolon]
  dsimp only
  cases (record.fields.get i).reader.read tail <;> rfl

/-- What becomes of members that follow those that were read. -/
def ReadOn (record : Record β k) (means : γ → β → Prop) (first : Bool)
    (members : List (Option (String × γ))) (text rest : List Char) : Prop :=
  ∀ values, (∀ all, record.Completes means all values members →
      record.membersFrom first values text = .ok (all, rest))
    ∧ ((∀ all, ¬ record.Completes means all values members) →
      ∃ fault, record.membersFrom first values text = .error fault)

/-- One more member in front. -/
theorem readOn_cons
    (hfields : ∀ i : Fin k, Understands (record.fields.get i).reader (value (record.keyOf i)) means)
    {member : Option (String × γ)} (hnext : kept.nextItem .object first text = .ok (.item inner))
    (hmember : Member record.keys value member inner mid) (hmid : Stops mid)
    (hrest : record.ReadOn means false members mid rest) :
    record.ReadOn means first (member :: members) text rest := by
  intro values
  cases hmember with
  | other hkey hquoted hcolon hspace hvalue =>
    rw [membersFrom_item hnext (takeKey_of_quotedText hquoted)
      (takeMember_other hkey hcolon hspace hvalue hmid)]
    exact hrest values
  | @asked key g _ _ tail _ _ hkey hquoted hcolon hspace hvalue =>
    have htake := takeKey_of_quotedText hquoted
    obtain ⟨i, hfind⟩ := exists_find? hkey
    obtain rfl := keyOf_of_find? hfind
    constructor
    · rintro all ⟨j, hfind', hfree, b, hb, hall⟩
      obtain rfl := Option.some.inj (hfind.symm.trans hfind')
      have hread := (hfields i).ok hspace hvalue hmid hb
      rw [membersFrom_item hnext htake (by rw [takeMember_free hfind hfree hcolon, hread]; rfl)]
      exact (hrest _).1 all hall
    · intro hnothing
      by_cases hfree : values.get i = none
      · by_cases hmeaning : ∃ b, means g b
        · obtain ⟨b, hb⟩ := hmeaning
          have hread := (hfields i).ok hspace hvalue hmid hb
          rw [membersFrom_item hnext htake (by rw [takeMember_free hfind hfree hcolon, hread]; rfl)]
          exact (hrest _).2 fun all hall => hnothing all ⟨i, hfind, hfree, b, hb, hall⟩
        · obtain ⟨fault, hread⟩ := (hfields i).error hspace hvalue hmid (not_exists.1 hmeaning)
          refine ⟨fault, membersFrom_item_error hnext htake ?_⟩
          rw [takeMember_free hfind hfree hcolon, hread]
          rfl
      · obtain ⟨fault, hfault⟩ := takeMember_again hfind hfree _
        exact ⟨fault, membersFrom_item_error hnext htake hfault⟩

theorem readOn
    (hfields : ∀ i : Fin k, Understands (record.fields.get i).reader (value (record.keyOf i)) means)
    (hitems : Items (Member record.keys value) .object first members text rest) :
    record.ReadOn means first members text rest := by
  induction hitems with
  | closed hspace =>
    intro values
    constructor
    · intro all hall
      exact membersFrom_closed (Care.nextItem_closed hspace) (complete_eq_ok_iff.2 hall)
    · intro hnothing
      exact membersFrom_closed_error (Care.nextItem_closed hspace) fun all hcomplete =>
        hnothing all (complete_eq_ok_iff.1 hcomplete)
  | first hspace hmember hrest ih =>
    exact readOn_cons hfields (Care.nextItem_first hspace hmember.opens) hmember hrest.stops ih
  | later hcomma hspace hmember hrest ih =>
    exact readOn_cons hfields (Care.nextItem_later hcomma hspace hmember.opens) hmember hrest.stops ih

/-! ## §4. Members in any order. -/

/-- The fields that have no value. -/
def free (values : Vector (Option β) k) : List (Fin k) :=
  (List.finRange k).filter fun i => (values.get i).isNone

theorem mem_free {i : Fin k} : i ∈ free values ↔ values.get i = none := by
  simp [free]

theorem get_set {i j : Fin k} (b : β) :
    (values.set i (some b) i.isLt).get j = if i = j then some b else values.get j := by
  rw [Vector.get_eq_getElem, Vector.getElem_set, Vector.get_eq_getElem]
  simp only [Fin.ext_iff]

/-- A field that is told has no value before and one after. -/
theorem free_perm_set {i : Fin k} (hfree : values.get i = none) (b : β) :
    (free values).Perm (i :: free (values.set i (some b) i.isLt)) := by
  have hnodup (values : Vector (Option β) k) : (free values).Nodup := (List.nodup_finRange k).filter _
  have hi : i ∉ free (values.set i (some b) i.isLt) := by
    rw [mem_free, get_set, if_pos rfl]
    simp
  refine (List.perm_ext_iff_of_nodup (hnodup values) (List.nodup_cons.2 ⟨hi, hnodup _⟩)).2 ?_
  intro j
  rw [List.mem_cons, mem_free, mem_free, get_set]
  by_cases hij : i = j
  · subst hij
    simp [hfree]
  · simp [hij, Ne.symm hij]

/-- A value that was read stays what it is. -/
theorem Completes.eq_of_get {i : Fin k} {b : β} (h : record.Completes means all values members)
    (hvalue : values.get i = some b) : b = all.get i := by
  induction members generalizing values with
  | nil => exact Option.some.inj (hvalue.symm.trans (h i))
  | cons member members ih =>
    cases member with
    | none => exact ih h hvalue
    | some member =>
      obtain ⟨j, -, hfree, b', -, hrest⟩ := h
      refine ih hrest ?_
      have hij : j ≠ i := by
        rintro rfl
        rw [hfree] at hvalue
        cases hvalue
      rw [get_set, if_neg hij, hvalue]

/-- No two fields have the same key, so each is found under its own. -/
theorem find?_keyOf (hkeys : record.keys.Nodup) (i : Fin k) :
    record.find? (record.keyOf i).toList = some i := by
  obtain ⟨j, hj⟩ := exists_find? (List.mem_map_of_mem (List.mem_finRange i) : record.keyOf i ∈ record.keys)
  have hji := List.inj_on_of_nodup_map hkeys (List.mem_finRange j) (List.mem_finRange i)
    (keyOf_of_find? hj)
  rw [hj, hji]

/-- **The order of the members does not matter**: they complete a record when they tell the fields that
have no value, each once, in what stands for its value. -/
theorem completes_iff (hkeys : record.keys.Nodup) {write : β → γ}
    (hmeans : ∀ g b, means g b ↔ g = write b) (hvalues : ∀ i b, values.get i = some b → b = all.get i) :
    record.Completes means all values members
      ↔ (members.reduceOption).Perm
        ((free values).map fun i => (record.keyOf i, write (all.get i))) := by
  induction members generalizing values with
  | nil =>
    rw [List.reduceOption_nil, List.nil_perm, List.map_eq_nil_iff, List.eq_nil_iff_forall_not_mem]
    refine forall_congr' fun i => ?_
    rw [mem_free]
    cases hvalue : values.get i with
    | none => simp
    | some b => simp [hvalues i b hvalue]
  | cons member members ih =>
    cases member with
    | none => exact ih hvalues
    | some member =>
      obtain ⟨key, g⟩ := member
      -- Behind a field that is told, the others that have no value are still to come.
      have hset (i : Fin k) : ∀ j b, (values.set i (some (all.get i)) i.isLt).get j = some b → b = all.get j := by
        intro j b hj
        rw [get_set] at hj
        split at hj
        · next hij =>
          subst hij
          exact (Option.some.inj hj).symm
        · exact hvalues j b hj
      have hrest {i : Fin k} (hfree : values.get i = none) :
          ((record.keyOf i, write (all.get i)) :: members.reduceOption).Perm
              ((free values).map fun j => (record.keyOf j, write (all.get j)))
            ↔ record.Completes means all (values.set i (some (all.get i)) i.isLt) members := by
        rw [ih (hset i), ((free_perm_set hfree (all.get i)).map _).congr_right, List.map_cons,
          List.perm_cons]
      rw [List.reduceOption_cons_of_some]
      constructor
      · rintro ⟨i, hfind, hfree, b, hb, hmembers⟩
        obtain rfl := keyOf_of_find? hfind
        obtain rfl : b = all.get i := hmembers.eq_of_get (by rw [get_set, if_pos rfl])
        rw [(hmeans g _).1 hb]
        exact (hrest hfree).2 hmembers
      · intro hperm
        obtain ⟨i, hi, heq⟩ := List.mem_map.1 (hperm.subset List.mem_cons_self)
        obtain ⟨rfl, rfl⟩ := Prod.mk.inj heq
        rw [mem_free] at hi
        exact ⟨i, find?_keyOf hkeys i, hi, all.get i, (hmeans _ _).2 rfl, (hrest hi).1 hperm⟩

theorem free_replicate : free (Vector.replicate k (none : Option β)) = List.finRange k := by
  simp [free]

/-- **An object is read to its end**, whatever stands behind it, if its members tell the fields of the
record, each once and in any order; otherwise it is refused. -/
theorem take_of_objectOf
    (hfields : ∀ i : Fin k, Understands (record.fields.get i).reader (value (record.keyOf i)) means)
    (hkeys : record.keys.Nodup) {write : β → γ} (hmeans : ∀ g b, means g b ↔ g = write b)
    (hspace : Space text' text) (h : ObjectOf record.keys value members text rest) :
    (∀ all : Vector β k, members.reduceOption.Perm
          ((List.finRange k).map fun i => (record.keyOf i, write (all.get i))) →
        record.take text' = .ok (all, rest))
      ∧ ((∀ all : Vector β k, ¬ members.reduceOption.Perm
          ((List.finRange k).map fun i => (record.keyOf i, write (all.get i)))) →
        ∃ fault, record.take text' = .error fault) := by
  have htold (all : Vector β k) :
      record.Completes means all (Vector.replicate k none) members
        ↔ members.reduceOption.Perm
          ((List.finRange k).map fun i => (record.keyOf i, write (all.get i))) := by
    rw [completes_iff hkeys hmeans (by simp), free_replicate]
  have hskip := hspace.skipSpace_of_opens h.opens
  obtain ⟨inner, rfl, hitems⟩ := h
  obtain ⟨hok, herror⟩ := readOn hfields hitems (Vector.replicate k none)
  simp only [htold] at hok herror
  constructor
  · intro all hall
    rw [take, hskip]
    simp only [hok all hall, Except.mapError]
  · intro hnothing
    obtain ⟨fault, hfault⟩ := herror hnothing
    refine ⟨fault.outside .object, ?_⟩
    rw [take, hskip]
    simp only [hfault, Except.mapError]

end Record

end ProbablePrime.Json
