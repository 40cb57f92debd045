/-
  ProbablePrime.Proofs.Entropy.Shared — a source and the family of handles on it.

  A family is a source's first handle, the clones of it, the clones of those, and so on, less the
  handles that were dropped or made anew.  Which names are in it follows from the steps alone,
  without a look at the pool.

  A pool keeps the promise of a family as long as all its handles, and no others, are on one cell.
  Every step keeps it, and a request through the family is then answered by the source of that cell:
  the whole family is served like one handle, whatever the rest of the pool does in between.

  Main results:
    * `Shares.step` — what a step does to a family and its source;
    * `Shares.exchanges_eq` — a family is served like one handle;
    * `Shares.exchangesAlone_held` — and each of its handles, as a source, like the one they share.
-/
import ProbablePrime.Entropy.Shared

namespace ProbablePrime.Entropy

variable {σ : Type}

/-! ## §1. Families. -/

/-- The family of a single handle. -/
def alone (name : String) : String → Bool := fun other => other = name

/-- The family after a step. -/
def Use.family (family : String → Bool) : Use σ → String → Bool
  | .make name _ => rebind name false family
  | .clone name copy => rebind copy (family name) family
  | .drop name => rebind name false family
  | .ask _ _ => family

/-- The size of the request that a step makes through the family, if it makes one. -/
def Use.requested (family : String → Bool) : Use σ → Option Nat
  | .ask name count => if family name then some count else none
  | _ => none

/-- The sizes of the requests that the family makes in a history. -/
def requestsOf (family : String → Bool) : List (Use σ) → List Nat
  | [] => []
  | use :: rest => (use.requested family).toList ++ requestsOf (use.family family) rest

/-- The requests that the family makes in a history that a pool goes through, each with its
answer. -/
def Pool.exchanges [Source σ] (family : String → Bool) (pool : Pool σ) :
    List (Use σ) → List (Nat × Option (Except PrimeError (List UInt8)))
  | [] => []
  | use :: rest =>
    (use.requested family).toList.map (fun count => (count, (pool.step use).1))
      ++ exchanges (use.family family) (pool.step use).2 rest

/-- The same requests made to a source that nothing else is asked of. -/
def exchangesAlone [Source σ] (source : σ) :
    List Nat → List (Nat × Option (Except PrimeError (List UInt8)))
  | [] => []
  | count :: rest =>
    (count, some (Source.fill count source).1) :: exchangesAlone (Source.fill count source).2 rest

/-! ## §2. Pools that serve a family from one cell. -/

/-- A cell holds the source, and the handles on it are those of the family. -/
structure OnCell (pool : Pool σ) (family : String → Bool) (source : σ) (cell : Fin pool.size) :
    Prop where
  /-- The cell holds the source. -/
  holds : pool.source cell = source
  /-- A handle is in the family exactly if it is on the cell. -/
  on_cell : ∀ name, family name = true ↔ pool.handle name = some cell

/-- The family's handles, and no others, are on one cell, which holds the source. -/
def Shares (pool : Pool σ) (family : String → Bool) (source : σ) : Prop :=
  ∃ cell, OnCell pool family source cell

@[simp] theorem rebind_self {β : Type} (name : String) (value : β) (f : String → β) :
    rebind name value f name = value := if_pos rfl

theorem rebind_of_ne {β : Type} {name other : String} (h : other ≠ name) (value : β)
    (f : String → β) : rebind name value f other = f other := if_neg h

/-- A handle that is made is on a cell of its own. -/
theorem shares_make (name : String) (source : σ) (pool : Pool σ) :
    Shares (pool.make name source) (alone name) source := by
  refine ⟨Fin.last pool.size, ?_, fun other => ?_⟩
  · exact Vector.getElem_push_eq
  · by_cases h : other = name
    · simp [alone, Pool.make, h]
    · simp only [alone, h, Pool.make, rebind_of_ne h, decide_false, Bool.false_eq_true, false_iff]
      intro hlast
      obtain ⟨cell, -, hcell⟩ := Option.map_eq_some_iff.1 hlast
      exact Fin.ne_of_lt (Fin.castSucc_lt_last cell) hcell

variable {pool : Pool σ} {family : String → Bool} {source : σ} {cell : Fin pool.size}

/-- Another source does not come onto the cell, and a handle made anew leaves the family. -/
theorem OnCell.make (h : OnCell pool family source cell) (name : String) (newcomer : σ) :
    OnCell (pool.make name newcomer) (rebind name false family) source cell.castSucc where
  holds := (Vector.getElem_push_lt cell.isLt).trans h.holds
  on_cell other := by
    by_cases hname : other = name
    · subst hname
      simp only [Pool.make, rebind_self, Bool.false_eq_true, false_iff]
      intro hlast
      exact Fin.ne_of_lt (Fin.castSucc_lt_last cell) (Option.some.inj hlast).symm
    · simp only [Pool.make, rebind_of_ne hname, h.on_cell, Option.map_eq_some_iff]
      constructor
      · exact fun hcell => ⟨cell, hcell, rfl⟩
      · rintro ⟨same, hsame, hcast⟩
        have hval : (same.castSucc : Nat) = cell.castSucc := congrArg Fin.val hcast
        rwa [← Fin.ext (a := same) hval]

/-- A name that is set on a cell is in the family exactly if it is that cell. -/
theorem OnCell.point (h : OnCell pool family source cell) (name : String)
    {target : Option (Fin pool.size)} {joins : Bool} (hjoins : joins = true ↔ target = some cell) :
    OnCell (pool.point name target) (rebind name joins family) source cell where
  holds := h.holds
  on_cell other := by
    by_cases hname : other = name
    · subst hname
      simpa only [Pool.point, rebind_self] using hjoins
    · simpa only [Pool.point, rebind_of_ne hname] using h.on_cell other

variable [Source σ]

theorem step_ask_of_some {name : String} (h : pool.handle name = some cell) (count : Nat) :
    pool.step (.ask name count) = (some (pool.fill count cell).1, (pool.fill count cell).2) := by
  simp only [Pool.step, h]

theorem step_ask_of_none {name : String} (h : pool.handle name = none) (count : Nat) :
    pool.step (.ask name count) = (none, pool) := by
  simp only [Pool.step, h]

/-- A request on the cell is answered by its source, which goes on there. -/
theorem OnCell.fill (h : OnCell pool family source cell) (count : Nat) :
    (pool.fill count cell).1 = (Source.fill count source).1
      ∧ OnCell (pool.fill count cell).2 family (Source.fill count source).2 cell := by
  obtain rfl := h.holds
  exact ⟨rfl, Vector.getElem_set_self cell.isLt, h.on_cell⟩

/-- A request on another cell leaves the cell alone. -/
theorem OnCell.fill_other (h : OnCell pool family source cell) {other : Fin pool.size}
    (hne : other ≠ cell) (count : Nat) : OnCell (pool.fill count other).2 family source cell where
  holds := (Vector.getElem_set_ne other.isLt cell.isLt fun hval => hne (Fin.ext hval)).trans h.holds
  on_cell := h.on_cell

/-- What a step that makes a request through the family answers, and leaves behind. -/
theorem Shares.ask (h : Shares pool family source) {name : String} (hname : family name = true)
    (count : Nat) :
    (pool.step (.ask name count)).1 = some (Source.fill count source).1
      ∧ Shares (pool.step (.ask name count)).2 family (Source.fill count source).2 := by
  obtain ⟨cell, h⟩ := h
  rw [step_ask_of_some ((h.on_cell name).1 hname)]
  obtain ⟨hanswer, hafter⟩ := h.fill count
  exact ⟨congrArg some hanswer, cell, hafter⟩

/-- A request past the family leaves its source alone. -/
theorem Shares.ask_other (h : Shares pool family source) {name : String}
    (hname : ¬ family name = true) (count : Nat) :
    Shares (pool.step (.ask name count)).2 family source := by
  obtain ⟨cell, h⟩ := h
  cases hhandle : pool.handle name with
  | none =>
    rw [step_ask_of_none hhandle]
    exact ⟨cell, h⟩
  | some other =>
    rw [step_ask_of_some hhandle]
    refine ⟨cell, h.fill_other ?_ count⟩
    rintro rfl
    exact hname ((h.on_cell name).2 hhandle)

/-- The source of a family after a step. -/
def Use.served (family : String → Bool) (use : Use σ) (source : σ) : σ :=
  match use.requested family with
  | none => source
  | some count => (Source.fill count source).2

/-- **A step keeps the family on one cell.**  The source there has served the request of the step,
if it made one through the family, and is as it was otherwise. -/
theorem Shares.step (h : Shares pool family source) (use : Use σ) :
    Shares (pool.step use).2 (use.family family) (use.served family source) := by
  cases use with
  | make name newcomer =>
    -- There is one cell more, so the family's cell is another number of another size.
    obtain ⟨cell, h⟩ := h
    exact ⟨_, h.make name newcomer⟩
  | clone name copy =>
    obtain ⟨cell, h⟩ := h
    exact ⟨cell, h.point copy (h.on_cell name)⟩
  | drop name =>
    obtain ⟨cell, h⟩ := h
    exact ⟨cell, h.point name (by simp)⟩
  | ask name count =>
    by_cases hname : family name = true
    · simpa only [Use.family, Use.served, Use.requested, if_pos hname] using (h.ask hname count).2
    · simpa only [Use.family, Use.served, Use.requested, if_neg hname] using
        h.ask_other hname count

/-- What a step answers to the family is what the source answers. -/
theorem Shares.answer (h : Shares pool family source) {use : Use σ} {count : Nat}
    (hrequest : use.requested family = some count) :
    (pool.step use).1 = some (Source.fill count source).1 := by
  cases use with
  | ask name asked =>
    by_cases hname : family name = true
    · rw [Use.requested, if_pos hname] at hrequest
      obtain rfl := Option.some.inj hrequest
      exact (h.ask hname asked).1
    · simp [Use.requested, hname] at hrequest
  | make name newcomer => simp [Use.requested] at hrequest
  | clone name copy => simp [Use.requested] at hrequest
  | drop name => simp [Use.requested] at hrequest

/-! ## §3. Whole histories. -/

/-- **A family is served like one handle**: its requests, whichever handle each of them came
through and whatever else was done to the pool, get the answers that the source gives to the same
requests when nothing else is asked of it. -/
theorem Shares.exchanges_eq (h : Shares pool family source) (history : List (Use σ)) :
    pool.exchanges family history = exchangesAlone source (requestsOf family history) := by
  -- The family, the pool and the source all change from step to step; `Shares` is the invariant.
  induction history generalizing pool family source with
  | nil => rfl
  | cons use rest ih =>
    rw [Pool.exchanges, requestsOf, ih (h.step use)]
    cases hrequest : use.requested family with
    | none => simp [Use.served, hrequest]
    | some count => simp [Use.served, hrequest, exchangesAlone, h.answer hrequest]

/-! ## §4. Handles as sources. -/

variable {held : Held σ}

/-- A request that a handle makes as a source is answered by the source that its family shares, and
what that leaves is shared from then on. -/
theorem Shares.fill_held (h : Shares held.pool family source) (hname : family held.name = true)
    (count : Nat) :
    (Source.fill count held).1 = (Source.fill count source).1
      ∧ Shares (Source.fill count held).2.pool family (Source.fill count source).2 := by
  have hstep : held.pool.step (.ask held.name count)
      = (some (Source.fill count held).1, (Source.fill count held).2.pool) :=
    step_ask_of_some (Option.some_get held.known).symm count
  obtain ⟨hanswer, hafter⟩ := h.ask hname count
  rw [hstep] at hanswer hafter
  exact ⟨Option.some.inj hanswer, hafter⟩

/-- **A handle is served like the source that its family shares.** -/
theorem Shares.exchangesAlone_held (h : Shares held.pool family source)
    (hname : family held.name = true) (counts : List Nat) :
    exchangesAlone held counts = exchangesAlone source counts := by
  induction counts generalizing held source with
  | nil => rfl
  | cons count rest ih =>
    obtain ⟨hanswer, hafter⟩ := h.fill_held hname count
    rw [exchangesAlone, exchangesAlone, hanswer, ih hafter hname]

/-- A clone of a handle is in its family. -/
theorem Shares.clone_held (h : Shares held.pool family source) (hname : family held.name = true)
    (copy : String) : Shares (held.clone copy).pool (rebind copy true family) source := by
  have hstep := h.step (.clone held.name copy)
  rw [Use.family, hname] at hstep
  exact hstep

end ProbablePrime.Entropy
