/-
  ProbablePrime.Proofs.Command.OrderFree — lines on which only order, place and spelling differ.

  A line is a row of options, or two with the word `vectors` between them.  Within a row the options
  may change places; one that may stand on either side may go to the other; and each may be written in
  another way.  A step of this kind keeps every option and its value (`Alike`), and the options of a
  side are found by name wherever they stand.  So the line is understood as before.

  Every line that begins a run is such a layout, so this holds of all of them.

  Main results:
    * `ofWords_words_iff` — the layouts that begin a run, and their settings;
    * `exists_layout` — every line that begins a run has a layout;
    * `Alike.of_rearranges` — what one step keeps;
    * `order_free` — what any number of steps keeps.
-/
import ProbablePrime.Proofs.Command.Spelling

namespace ProbablePrime.Command

/-! ## §1. Layouts. -/

/-- A line as it is written. -/
structure Layout where
  /-- The options in front of the word `vectors`, or all of them. -/
  root : List Item
  /-- The options behind that word, if it stands on the line. -/
  vectors : Option (List Item)
  /-- Whether the end of the options is marked behind the last of them. -/
  closed : Bool
  deriving DecidableEq, Repr

namespace Layout

variable {layout layout' : Layout}

/-- What is behind the last option. -/
def ending (layout : Layout) : List String := if layout.closed then ["--"] else []

/-- The words of a line. -/
def words (layout : Layout) : List String :=
  layout.root.flatMap Item.words ++
    match layout.vectors with
    | none => layout.ending
    | some items => "vectors" :: (items.flatMap Item.words ++ layout.ending)

/-- All options of a line. -/
def items (layout : Layout) : List Item := layout.root ++ layout.vectors.getD []

/-- Every option may stand on its side, in the way in which it is written. -/
structure Fits (layout : Layout) : Prop where
  /-- In front of the word `vectors`. -/
  root : ∀ item ∈ layout.root, item.Fits .root
  /-- Behind it. -/
  vectors : ∀ items ∈ layout.vectors, ∀ item ∈ items, item.Fits .vectors

/-- Every option takes its value, none stands twice on a side, and test vectors have one source. -/
structure Sound (layout : Layout) : Prop where
  /-- Every option makes a setting. -/
  settings : ∀ item ∈ layout.items, item.setting?.isSome
  /-- The options in front of the word `vectors` differ. -/
  root : Distinct (settingsOf layout.root)
  /-- The options behind it differ, and name one source. -/
  vectors : ∀ items ∈ layout.vectors,
    Distinct (settingsOf items) ∧ checkSources (settingsOf items) = .ok ()

theorem behind_ending (layout : Layout) (side : Side) : Behind side layout.ending none := by
  unfold ending
  split
  · exact .closed
  · exact .nothing

/-- **A layout begins a run exactly if it is sound**, and then its settings are those of its options. -/
theorem ofWords_words_iff (hfits : layout.Fits) {root : List Setting}
    {vectors : Option (List Setting)} :
    Line.ofWords layout.words = .ok (.run root vectors)
      ↔ layout.Sound ∧ root = settingsOf layout.root ∧ vectors = layout.vectors.map settingsOf := by
  obtain ⟨rootItems, vectorItems, closed⟩ := layout
  have hending := behind_ending ⟨rootItems, vectorItems, closed⟩
  rw [ofWords_eq_run_iff]
  unfold words
  cases vectorItems with
  | none =>
    constructor
    · rintro (⟨rfl, htaken⟩ | ⟨settings, rest, rfl, htaken, -⟩)
      · obtain ⟨-, hitems, rfl, hdistinct⟩ :=
          (takeSide_row_eq_ok_iff hfits.root (hending .root)).1 htaken
        exact ⟨⟨by simpa [items] using hitems, hdistinct, by simp⟩, rfl, rfl⟩
      · obtain ⟨hnone, -⟩ := (takeSide_row_eq_ok_iff hfits.root (hending .root)).1 htaken
        cases hnone
    · rintro ⟨hsound, rfl, rfl⟩
      refine Or.inl ⟨rfl, (takeSide_row_eq_ok_iff hfits.root (hending .root)).2 ?_⟩
      exact ⟨rfl, by simpa [items] using hsound.settings, rfl, hsound.root⟩
  | some vectorItems =>
    have hrow := hfits.vectors vectorItems rfl
    have hmark (rest : List String) : Behind .root ("vectors" :: rest) (some ("vectors", rest)) :=
      .word (by decide)
    constructor
    · rintro (⟨rfl, htaken⟩ | ⟨settings, rest, rfl, htaken, hbehind, hsources⟩)
      · obtain ⟨hsome, -⟩ := (takeSide_row_eq_ok_iff hfits.root (hmark _)).1 htaken
        cases hsome
      · obtain ⟨hrest, hroot, rfl, hdistinct⟩ :=
          (takeSide_row_eq_ok_iff hfits.root (hmark _)).1 htaken
        obtain ⟨-, rfl⟩ := Prod.mk.inj (Option.some.inj hrest)
        obtain ⟨-, hvectors, rfl, hdistinct'⟩ :=
          (takeSide_row_eq_ok_iff hrow (hending .vectors)).1 hbehind
        refine ⟨⟨?_, hdistinct, ?_⟩, rfl, rfl⟩
        · exact List.forall_mem_append.2 ⟨hroot, hvectors⟩
        · intro items hitems
          obtain rfl := Option.some.inj hitems
          exact ⟨hdistinct', hsources⟩
    · rintro ⟨hsound, rfl, rfl⟩
      obtain ⟨hroot, hvectors⟩ := List.forall_mem_append.1 hsound.settings
      obtain ⟨hdistinct, hsources⟩ := hsound.vectors vectorItems rfl
      refine Or.inr ⟨_, vectorItems.flatMap Item.words ++ ending ⟨rootItems, some vectorItems, closed⟩,
        rfl, ?_, ?_, hsources⟩
      · exact (takeSide_row_eq_ok_iff hfits.root (hmark _)).2 ⟨rfl, hroot, rfl, hsound.root⟩
      · exact (takeSide_row_eq_ok_iff hrow (hending .vectors)).2 ⟨rfl, hvectors, rfl, hdistinct⟩

/-- **Every line that begins a run has a layout.** -/
theorem exists_layout {words : List String} {root : List Setting} {vectors : Option (List Setting)}
    (h : Line.ofWords words = .ok (.run root vectors)) :
    ∃ layout : Layout, layout.Fits ∧ layout.words = words := by
  -- What is behind the last option is nothing, or the mark of the end.
  have hclosed {side : Side} {tail : List String} (hbehind : Behind side tail none) :
      ∃ closed : Bool, tail = if closed then ["--"] else [] := by
    cases hbehind with
    | nothing => exact ⟨false, rfl⟩
    | closed => exact ⟨true, rfl⟩
  rcases ofWords_eq_run_iff.1 h with ⟨-, htaken⟩ | ⟨settings, rest, -, htaken, hbehind, -⟩
  · obtain ⟨rootItems, tail, hfits, rfl, htail, -⟩ := takeSide_eq_ok_iff.1 htaken
    obtain ⟨closed, rfl⟩ := hclosed htail
    exact ⟨⟨rootItems, none, closed⟩, ⟨hfits, by simp⟩, rfl⟩
  · obtain ⟨rootItems, tail, hfits, rfl, htail, -⟩ := takeSide_eq_ok_iff.1 htaken
    obtain ⟨vectorItems, tail', hfits', rfl, htail', -⟩ := takeSide_eq_ok_iff.1 hbehind
    obtain ⟨closed, rfl⟩ := hclosed htail'
    cases htail
    refine ⟨⟨rootItems, some vectorItems, closed⟩, ⟨hfits, ?_⟩, rfl⟩
    intro items hitems
    obtain rfl := Option.some.inj hitems
    exact hfits'

end Layout

/-! ## §2. Rearrangements. -/

namespace Item

variable {side : Side} {item item' : Item}

/-- An option and its value, however that is written. -/
def bare : Item → Opt × Option String
  | verify => (.verify, none)
  | valued opt value _ => (opt, some value)

/-- The value of the option, if it has one, is not empty and does not begin with a hyphen. -/
def Plain : Item → Prop
  | verify => True
  | valued _ value _ => value.toList ≠ [] ∧ value.toList.head? ≠ some '-'

/-- The same option with the same value, in another spelling that serves for it. -/
inductive Respells : Item → Item → Prop
  /-- Only the spelling changes. -/
  | mk {opt : Opt} {value : String} {spelling spelling' : Spelling} :
    spelling'.Serves opt value → Respells (.valued opt value spelling) (.valued opt value spelling')

@[simp] theorem bare_fst (item : Item) : item.bare.1 = item.opt := by cases item <;> rfl

theorem setting?_eq_of_bare (h : item.bare = item'.bare) : item.setting? = item'.setting? := by
  cases item with
  | verify =>
    cases item' with
    | verify => rfl
    | valued opt value spelling => cases h
  | valued opt value spelling =>
    cases item' with
    | verify => cases h
    | valued opt' value' spelling' =>
      obtain ⟨rfl, hvalue⟩ := Prod.mk.inj h
      obtain rfl := Option.some.inj hvalue
      rfl

theorem Plain.of_bare (hplain : item.Plain) (h : item.bare = item'.bare) : item'.Plain := by
  cases item' with
  | verify => trivial
  | valued opt' value' spelling' =>
    cases item with
    | verify => cases h
    | valued opt value spelling =>
      obtain ⟨-, hvalue⟩ := Prod.mk.inj h
      obtain rfl := Option.some.inj hvalue
      exact hplain

theorem Respells.bare_eq (h : Respells item item') : item'.bare = item.bare := by
  cases h
  rfl

/-- A plain value can be written in every spelling. -/
theorem Plain.holds {opt : Opt} {value : String} {spelling spelling' : Spelling}
    (h : (valued opt value spelling).Plain) : spelling'.Holds value := by
  obtain ⟨hnil, hhyphen⟩ := h
  have hvalue : canBeValue value = true := by
    unfold canBeValue
    split
    · next heq => exact absurd (by rw [heq]; rfl) hhyphen
    · rfl
  cases spelling' with
  | apart => exact hvalue
  | joined => trivial
  | shortApart => exact hvalue
  | shortJoined => trivial
  | attached => exact hnil

theorem Fits.respell (hfits : item.Fits side) (hplain : item.Plain) (h : Respells item item') :
    item'.Fits side := by
  cases h with
  | mk hserves =>
    obtain ⟨hside, hopt, -, -⟩ := hfits
    exact ⟨hside, hopt, hserves, hplain.holds⟩

/-- A global option may stand on either side. -/
theorem Fits.of_global (hfits : item.Fits side) (hglobal : item.opt ∈ Opt.global) (side' : Side) :
    item.Fits side' := by
  refine ⟨?_, hfits.2⟩
  cases side' with
  | root => exact List.mem_cons_of_mem _ hglobal
  | vectors => exact List.mem_append_right _ hglobal

end Item

open Item (Respells)

/-- One change of order, place or spelling. -/
inductive Rearranges : Layout → Layout → Prop
  /-- The options in front of the word `vectors` change places. -/
  | root {items items' : List Item} (vectors : Option (List Item)) (closed : Bool) :
    items.Perm items' → Rearranges ⟨items, vectors, closed⟩ ⟨items', vectors, closed⟩
  /-- The options behind it do. -/
  | vectors (root : List Item) {items items' : List Item} (closed : Bool) :
    items.Perm items' → Rearranges ⟨root, some items, closed⟩ ⟨root, some items', closed⟩
  /-- A global option goes behind the word `vectors`. -/
  | behind {item : Item} (front back front' back' : List Item) (closed : Bool) :
    item.opt ∈ Opt.global →
      Rearranges ⟨front ++ item :: back, some (front' ++ back'), closed⟩
        ⟨front ++ back, some (front' ++ item :: back'), closed⟩
  /-- A global option goes in front of it. -/
  | before {item : Item} (front back front' back' : List Item) (closed : Bool) :
    item.opt ∈ Opt.global →
      Rearranges ⟨front ++ back, some (front' ++ item :: back'), closed⟩
        ⟨front ++ item :: back, some (front' ++ back'), closed⟩
  /-- An option in front of the word `vectors` is written in another way. -/
  | respellRoot {item item' : Item} (front back : List Item) (vectors : Option (List Item))
      (closed : Bool) : Respells item item' →
      Rearranges ⟨front ++ item :: back, vectors, closed⟩ ⟨front ++ item' :: back, vectors, closed⟩
  /-- An option behind it is. -/
  | respellVectors {item item' : Item} (root front back : List Item) (closed : Bool) :
    Respells item item' →
      Rearranges ⟨root, some (front ++ item :: back), closed⟩
        ⟨root, some (front ++ item' :: back), closed⟩

/-- No option stands twice on the line, and all values are plain. -/
structure Layout.Plain (layout : Layout) : Prop where
  /-- The options differ. -/
  once : (layout.items.map Item.opt).Nodup
  /-- The values are plain. -/
  values : ∀ item ∈ layout.items, item.Plain

/-- Two rows have the same options of their own, apart from the global ones. -/
def SameLocal (items items' : List Item) : Prop :=
  ∀ option : Opt × Option String, option.1 ∉ Opt.global →
    (option ∈ items.map Item.bare ↔ option ∈ items'.map Item.bare)

/-- Two lines have the same options with the same values, and those that are not global on the same
sides. -/
structure Alike (layout layout' : Layout) : Prop where
  /-- All options. -/
  items : (layout.items.map Item.bare).Perm (layout'.items.map Item.bare)
  /-- Those in front of the word `vectors`. -/
  root : SameLocal layout.root layout'.root
  /-- Those behind it. -/
  vectors : SameLocal (layout.vectors.getD []) (layout'.vectors.getD [])
  /-- That word stands on both lines or on none. -/
  command : layout.vectors.isSome = layout'.vectors.isSome

/-! ## §3. What a step keeps. -/

theorem SameLocal.refl (items : List Item) : SameLocal items items := fun _ _ => Iff.rfl

theorem SameLocal.of_perm {items items' : List Item} (h : items.Perm items') :
    SameLocal items items' := fun _ _ => (h.map Item.bare).mem_iff

/-- A global option makes no difference to the others. -/
theorem SameLocal.of_global {item : Item} (front back : List Item) (h : item.opt ∈ Opt.global) :
    SameLocal (front ++ item :: back) (front ++ back) := by
  intro option hlocal
  have hne : option ≠ item.bare := by
    rintro rfl
    exact hlocal (item.bare_fst ▸ h)
  simp [hne]

theorem SameLocal.of_respells {item item' : Item} (front back : List Item)
    (h : Respells item item') : SameLocal (front ++ item :: back) (front ++ item' :: back) := by
  intro option _
  simp [h.bare_eq]

theorem SameLocal.symm {items items' : List Item} (h : SameLocal items items') :
    SameLocal items' items := fun option hlocal => (h option hlocal).symm

theorem SameLocal.trans {items items' items'' : List Item} (h : SameLocal items items')
    (h' : SameLocal items' items'') : SameLocal items items'' :=
  fun option hlocal => (h option hlocal).trans (h' option hlocal)

/-- Two rows have the same elements between them, whichever of the rows one of these stands in. -/
theorem perm_of_moved {α : Type} (a : α) (front back front' back' : List α) :
    ((front ++ a :: back) ++ (front' ++ back')).Perm ((front ++ back) ++ (front' ++ a :: back')) :=
  calc ((front ++ a :: back) ++ (front' ++ back')).Perm
        (a :: (front ++ back) ++ (front' ++ back')) := List.perm_middle.append_right _
    List.Perm _ (a :: ((front ++ back) ++ (front' ++ back'))) := .refl _
    List.Perm _ ((front ++ back) ++ a :: (front' ++ back')) := List.perm_middle.symm
    List.Perm _ ((front ++ back) ++ (front' ++ a :: back')) :=
      List.perm_middle.symm.append_left _

namespace Alike

variable {layout layout' layout'' : Layout}

theorem refl (layout : Layout) : Alike layout layout where
  items := .refl _
  root := .refl _
  vectors := .refl _
  command := rfl

theorem symm (h : Alike layout layout') : Alike layout' layout where
  items := h.items.symm
  root := h.root.symm
  vectors := h.vectors.symm
  command := h.command.symm

theorem trans (h : Alike layout layout') (h' : Alike layout' layout'') :
    Alike layout layout'' where
  items := h.items.trans h'.items
  root := h.root.trans h'.root
  vectors := h.vectors.trans h'.vectors
  command := h.command.trans h'.command

/-- A global option that goes behind the word `vectors`. -/
theorem of_moved {item : Item} (front back front' back' : List Item) (closed : Bool)
    (h : item.opt ∈ Opt.global) :
    Alike ⟨front ++ item :: back, some (front' ++ back'), closed⟩
      ⟨front ++ back, some (front' ++ item :: back'), closed⟩ where
  items := (perm_of_moved item front back front' back').map Item.bare
  root := .of_global front back h
  vectors := (SameLocal.of_global front' back' h).symm
  command := rfl

/-- **What one change keeps.** -/
theorem of_rearranges (h : Rearranges layout layout') : Alike layout layout' := by
  cases h with
  | root vectors closed hperm =>
    exact ⟨(hperm.append_right _).map Item.bare, .of_perm hperm, .refl _, rfl⟩
  | vectors root closed hperm =>
    exact ⟨(hperm.append_left root).map Item.bare, .refl root, .of_perm hperm, rfl⟩
  | behind front back front' back' closed hglobal => exact of_moved _ _ _ _ closed hglobal
  | before front back front' back' closed hglobal => exact (of_moved _ _ _ _ closed hglobal).symm
  | respellRoot front back vectors closed hrespell =>
    refine ⟨?_, .of_respells front back hrespell, .refl _, rfl⟩
    simp [Layout.items, hrespell.bare_eq]
  | respellVectors root front back closed hrespell =>
    refine ⟨?_, .refl root, .of_respells front back hrespell, rfl⟩
    simp [Layout.items, hrespell.bare_eq]

/-- An option on one of two such lines stands on the other one, too. -/
theorem exists_bare_eq (h : Alike layout layout') {item' : Item} (hitem' : item' ∈ layout'.items) :
    ∃ item ∈ layout.items, item.bare = item'.bare :=
  List.mem_map.1 (h.items.mem_iff.2 (List.mem_map_of_mem hitem'))

/-- Plain lines are alike to plain lines only. -/
theorem plain (h : Alike layout layout') (hplain : layout.Plain) : layout'.Plain where
  once := by
    have hopt (items : List Item) : items.map Item.opt = (items.map Item.bare).map Prod.fst := by
      simp
    have honce := hplain.once
    rw [hopt] at honce ⊢
    exact (h.items.map Prod.fst).nodup_iff.1 honce
  values item' hitem' := by
    obtain ⟨item, hitem, hbare⟩ := h.exists_bare_eq hitem'
    exact (hplain.values item hitem).of_bare hbare

end Alike

namespace Layout

variable {layout layout' : Layout}

/-- A line fits if its rows do. -/
theorem Fits.of_rows {root items : List Item} {closed : Bool} (hroot : ∀ item ∈ root, item.Fits .root)
    (hitems : ∀ item ∈ items, item.Fits .vectors) : Fits ⟨root, some items, closed⟩ where
  root := hroot
  vectors _ hsome := Option.some.inj hsome ▸ hitems

/-- What holds of a row holds of one of its options and of the others. -/
theorem forall_mem_middle {P : Item → Prop} {item : Item} {front back : List Item} :
    (∀ other ∈ front ++ item :: back, P other) ↔ P item ∧ ∀ other ∈ front ++ back, P other := by
  rw [← List.forall_mem_cons]
  exact forall_congr' fun other => by rw [List.perm_middle.mem_iff]

/-- **A change leaves every option where it may stand**, in the way in which it is written. -/
theorem Fits.rearranges (hfits : layout.Fits) (hplain : layout.Plain)
    (h : Rearranges layout layout') : layout'.Fits := by
  obtain ⟨hvaluesRoot, hvaluesVectors⟩ := List.forall_mem_append.1 hplain.values
  cases h with
  | root vectors closed hperm =>
    exact ⟨fun item hitem => hfits.root item (hperm.mem_iff.2 hitem), hfits.vectors⟩
  | vectors root closed hperm =>
    exact .of_rows hfits.root fun item hitem => hfits.vectors _ rfl item (hperm.mem_iff.2 hitem)
  | behind front back front' back' closed hglobal =>
    obtain ⟨hitem, hroot⟩ := forall_mem_middle.1 hfits.root
    exact .of_rows hroot (forall_mem_middle.2 ⟨hitem.of_global hglobal _, hfits.vectors _ rfl⟩)
  | before front back front' back' closed hglobal =>
    obtain ⟨hitem, hvectors⟩ := forall_mem_middle.1 (hfits.vectors _ rfl)
    exact .of_rows (forall_mem_middle.2 ⟨hitem.of_global hglobal _, hfits.root⟩) hvectors
  | respellRoot front back vectors closed hrespell =>
    obtain ⟨hitem, hroot⟩ := forall_mem_middle.1 hfits.root
    have hvalue := (forall_mem_middle.1 hvaluesRoot).1
    exact ⟨forall_mem_middle.2 ⟨hitem.respell hvalue hrespell, hroot⟩, hfits.vectors⟩
  | respellVectors root front back closed hrespell =>
    obtain ⟨hitem, hvectors⟩ := forall_mem_middle.1 (hfits.vectors _ rfl)
    have hvalue := (forall_mem_middle.1 hvaluesVectors).1
    exact .of_rows hfits.root (forall_mem_middle.2 ⟨hitem.respell hvalue hrespell, hvectors⟩)

/-- **What any number of changes keeps.** -/
theorem fits_and_alike_of_rearranged (hfits : layout.Fits) (hplain : layout.Plain)
    (h : Relation.ReflTransGen Rearranges layout layout') : layout'.Fits ∧ Alike layout layout' := by
  induction h with
  | refl => exact ⟨hfits, .refl layout⟩
  | tail _ hstep ih =>
    obtain ⟨hmid, halike⟩ := ih
    exact ⟨hmid.rearranges (halike.plain hplain) hstep, halike.trans (.of_rearranges hstep)⟩

end Layout

/-! ## §4. Alike lines. -/

/-- Rows with the same local options make the same local settings. -/
theorem SameLocal.mem_settingsOf_iff {items items' : List Item} (h : SameLocal items items')
    {setting : Setting} (hlocal : setting.opt ∉ Opt.global) :
    setting ∈ settingsOf items ↔ setting ∈ settingsOf items' := by
  have hhalf {items items' : List Item} (h : SameLocal items items')
      (hmem : setting ∈ settingsOf items) : setting ∈ settingsOf items' := by
    obtain ⟨item, hitem, hsetting⟩ := mem_settingsOf.1 hmem
    have hopt : item.bare.1 ∉ Opt.global := by
      rw [Item.bare_fst, ← opt_of_setting? hsetting]
      exact hlocal
    obtain ⟨item', hitem', hbare⟩ := List.mem_map.1 ((h item.bare hopt).1 (List.mem_map_of_mem hitem))
    exact mem_settingsOf.2 ⟨item', hitem', (Item.setting?_eq_of_bare hbare).trans hsetting⟩
  exact ⟨hhalf h, hhalf h.symm⟩

/-- Whether one source is named is decided by settings that are not global. -/
theorem checkSources_congr {settings settings' : List Setting}
    (h : ∀ setting, setting.opt ∉ Opt.global → (setting ∈ settings ↔ setting ∈ settings')) :
    checkSources settings = checkSources settings' := by
  have hany (opt : Opt) (hopt : opt ∉ Opt.global) :
      settings.any (·.opt = opt) = settings'.any (·.opt = opt) := by
    rw [Bool.eq_iff_iff, List.any_eq_true, List.any_eq_true]
    refine exists_congr fun setting => and_congr_left fun hkind => ?_
    exact h setting (of_decide_eq_true hkind ▸ hopt)
  unfold checkSources
  rw [hany .inputDir (by decide), hany .synthesize (by decide)]

namespace Layout

/-- The settings of a line as one row, those behind the word `vectors` first. -/
theorem settingsOf_items (layout : Layout) :
    settingsOf layout.items
      = (layout.vectors.map settingsOf).getD [] ++ settingsOf layout.root := by
  rw [Layout.items, settingsOf_append]
  cases layout.vectors with
  | none => rfl
  | some items => rfl

/-- The settings of either row of a plain line differ. -/
theorem Plain.distinct_rows {layout : Layout} (hplain : layout.Plain) :
    Distinct (settingsOf layout.root) ∧ Distinct (settingsOf (layout.vectors.getD [])) := by
  have honce := hplain.once
  rw [Layout.items, List.map_append] at honce
  exact ⟨distinct_settingsOf honce.of_append_left, distinct_settingsOf honce.of_append_right⟩

end Layout

namespace Alike

variable {layout layout' : Layout}

/-- Lines that are alike make the same settings. -/
theorem mem_settingsOf_iff (h : Alike layout layout') {setting : Setting} :
    setting ∈ settingsOf layout.items ↔ setting ∈ settingsOf layout'.items := by
  have hhalf {layout layout' : Layout} (h : Alike layout layout')
      (hmem : setting ∈ settingsOf layout'.items) : setting ∈ settingsOf layout.items := by
    obtain ⟨item', hitem', hsetting⟩ := mem_settingsOf.1 hmem
    obtain ⟨item, hitem, hbare⟩ := h.exists_bare_eq hitem'
    exact mem_settingsOf.2 ⟨item, hitem, (Item.setting?_eq_of_bare hbare).trans hsetting⟩
  exact ⟨hhalf h.symm, hhalf h⟩

/-- **A line that is alike to a sound one is sound.** -/
theorem sound (h : Alike layout layout') (hplain : layout'.Plain) (hsound : layout.Sound) :
    layout'.Sound where
  settings item' hitem' := by
    obtain ⟨item, hitem, hbare⟩ := h.exists_bare_eq hitem'
    rw [← Item.setting?_eq_of_bare hbare]
    exact hsound.settings item hitem
  root := hplain.distinct_rows.1
  vectors items' hitems' := by
    have hdistinct := hplain.distinct_rows.2
    have hvectors := h.vectors
    have hcommand := h.command
    rw [Option.mem_def.1 hitems'] at hdistinct hvectors hcommand
    obtain ⟨items, hitems⟩ := Option.isSome_iff_exists.1 hcommand
    rw [hitems, Option.getD_some, Option.getD_some] at hvectors
    refine ⟨hdistinct, ?_⟩
    rw [← checkSources_congr fun setting => hvectors.mem_settingsOf_iff]
    exact (hsound.vectors items hitems).2

/-- Lines that are alike have the same task. -/
theorem task_eq (h : Alike layout layout') (hplain : layout.Plain) :
    (Options.ofSettings (settingsOf layout'.root) (layout'.vectors.map settingsOf)).task
      = (Options.ofSettings (settingsOf layout.root) (layout.vectors.map settingsOf)).task := by
  have hdistinct := hplain.distinct_rows.2
  have hdistinct' := (h.plain hplain).distinct_rows.2
  have hvectors := h.vectors
  have hcommand := h.command
  cases hitems : layout.vectors with
  | none =>
    rw [hitems, eq_comm, Option.isSome_none, Option.isSome_eq_false_iff,
      Option.isNone_iff_eq_none] at hcommand
    rw [hcommand]
    -- Without the word `vectors`, only verifying is left to be looked at.
    show sampleTask (settingsOf layout'.root) = sampleTask (settingsOf layout.root)
    rw [sampleTask, sampleTask, Task.sample.injEq, Bool.eq_iff_iff, List.contains_iff_mem,
      List.contains_iff_mem]
    exact (h.root.mem_settingsOf_iff (by decide)).symm
  | some items =>
    rw [hitems] at hcommand
    obtain ⟨items', hitems'⟩ := Option.isSome_iff_exists.1 hcommand.symm
    rw [hitems] at hdistinct
    rw [hitems'] at hdistinct' ⊢
    rw [hitems, hitems'] at hvectors
    exact vectorsTask_congr hdistinct hdistinct' fun setting => hvectors.mem_settingsOf_iff

/-- **Lines that are alike make the same options.** -/
theorem ofSettings_eq (h : Alike layout layout') (hplain : layout.Plain) :
    Options.ofSettings (settingsOf layout'.root) (layout'.vectors.map settingsOf)
      = Options.ofSettings (settingsOf layout.root) (layout.vectors.map settingsOf) := by
  have hdistinct := distinct_settingsOf hplain.once
  have hdistinct' := distinct_settingsOf (h.plain hplain).once
  rw [Layout.settingsOf_items] at hdistinct hdistinct'
  have hsame (setting : Setting) (_ : setting.opt ≠ .verify) :
      setting ∈ settingsOf layout.items ↔ setting ∈ settingsOf layout'.items := h.mem_settingsOf_iff
  simp only [Layout.settingsOf_items] at hsame
  refine (ofSettings_congr hdistinct hdistinct' hsame).trans ?_
  rw [h.task_eq hplain]

end Alike

/-- **The order of a command line does not matter.**  Every line that begins a run is a layout of
options.  Where no option stands twice on it and all values are plain, the options of a side may change
places, global options may go to the other side, and every option may be written in another way, any
number of times: the line still begins a run, with the same options, verifying where it did and making
test vectors where it did. -/
theorem order_free :
    (∀ words root vectors, Line.ofWords words = .ok (.run root vectors) →
      ∃ layout : Layout, layout.Fits ∧ layout.words = words)
    ∧ ∀ layout layout' : Layout, layout.Fits → layout.Plain →
      Relation.ReflTransGen Rearranges layout layout' →
      ∀ root vectors, Line.ofWords layout.words = .ok (.run root vectors) →
        ∃ root' vectors', Line.ofWords layout'.words = .ok (.run root' vectors')
          ∧ Options.ofSettings root' vectors' = Options.ofSettings root vectors
          ∧ (.verify ∈ root' ↔ .verify ∈ root) ∧ vectors'.isSome = vectors.isSome := by
  refine ⟨fun words root vectors => Layout.exists_layout, ?_⟩
  intro layout layout' hfits hplain hsteps root vectors hline
  obtain ⟨hfits', halike⟩ := Layout.fits_and_alike_of_rearranged hfits hplain hsteps
  obtain ⟨hsound, rfl, rfl⟩ := (Layout.ofWords_words_iff hfits).1 hline
  have hsound' := halike.sound (halike.plain hplain) hsound
  refine ⟨_, _, (Layout.ofWords_words_iff hfits').2 ⟨hsound', rfl, rfl⟩,
    halike.ofSettings_eq hplain, ?_, ?_⟩
  · exact (halike.root.mem_settingsOf_iff (by decide)).symm
  · rw [Option.isSome_map, Option.isSome_map]
    exact halike.command.symm

/-- The seed of the line below. -/
def seedSeven (spelling : Spelling) : Item := .valued .seed "7" spelling

/-- The length of its lists. -/
def countTwo (spelling : Spelling) : Item := .valued .synthesize "2" spelling

/-- Its file. -/
def fileX (spelling : Spelling) : Item := .valued .output "x" spelling

/-- A seed that goes behind the word `vectors` and to the end of the line, a file whose name becomes a
word of its own, and values that are joined to their options. -/
theorem order_free_seed_seven :
    Line.ofWords ["--seed", "7", "vectors", "--synthesize", "2", "-o=x"]
        = .ok (.run [.seed 7] (some [.output "x", .synthesize 2]))
      ∧ ∃ root vectors, Line.ofWords ["vectors", "-o", "x", "--synthesize=2", "--seed=7"]
          = .ok (.run root vectors)
        ∧ Options.ofSettings root vectors
          = Options.ofSettings [.seed 7] (some [.output "x", .synthesize 2]) := by
  have hline : Line.ofWords ["--seed", "7", "vectors", "--synthesize", "2", "-o=x"]
      = .ok (.run [.seed 7] (some [.output "x", .synthesize 2])) := by decide +kernel
  have hfile : Respells (fileX .shortJoined) (fileX .shortApart) := .mk rfl
  have hcount : Respells (countTwo .apart) (countTwo .joined) := .mk trivial
  have hseed : Respells (seedSeven .apart) (seedSeven .joined) := .mk trivial
  have hsteps : Relation.ReflTransGen Rearranges
      ⟨[seedSeven .apart], some [countTwo .apart, fileX .shortJoined], false⟩
      ⟨[], some [fileX .shortApart, countTwo .joined, seedSeven .joined], false⟩ := by
    refine .head (.behind [] [] [] [countTwo .apart, fileX .shortJoined] false (by decide)) ?_
    refine .head (.vectors [] false (List.reverse_perm _).symm) ?_
    refine .head (.respellVectors [] [] [countTwo .apart, seedSeven .apart] false hfile) ?_
    refine .head (.respellVectors [] [fileX .shortApart] [seedSeven .apart] false hcount) ?_
    exact .single (.respellVectors [] [fileX .shortApart, countTwo .joined] [] false hseed)
  have hfits : Layout.Fits ⟨[seedSeven .apart], some [countTwo .apart, fileX .shortJoined], false⟩ := by
    refine .of_rows (List.forall_mem_singleton.2 ?_) ?_
    · exact ⟨by decide, by decide, trivial, rfl⟩
    · refine List.forall_mem_cons.2 ⟨?_, List.forall_mem_singleton.2 ?_⟩
      · exact ⟨by decide, by decide, trivial, rfl⟩
      · exact ⟨by decide, by decide, rfl, trivial⟩
  have hplain : Layout.Plain ⟨[seedSeven .apart], some [countTwo .apart, fileX .shortJoined], false⟩ := by
    refine ⟨by decide, ?_⟩
    refine List.forall_mem_cons.2 ⟨?_, List.forall_mem_cons.2 ⟨?_, List.forall_mem_singleton.2 ?_⟩⟩
    · exact ⟨by decide, by decide⟩
    · exact ⟨by decide, by decide⟩
    · exact ⟨by decide, by decide⟩
  obtain ⟨root, vectors, hline', hoptions, -⟩ := order_free.2 _ _ hfits hplain hsteps _ _ hline
  exact ⟨hline, root, vectors, hline', hoptions⟩

end ProbablePrime.Command
