/-
  ProbablePrime.Proofs.Log.Shown — which events a filter shows.

  Of the directives that concern an event the most special decides, and of several that are alike in
  that the last.  For a filter that is written as clauses this says: the longest of the names with
  which the target of the event begins decides, a bare level counting as the empty name.

  Main results:
    * `deciding_eq_some_iff` — the directive that decides about an event;
    * `admits_iff_shows` — a filter of clauses shows what the clause with the longest name shows;
    * `admits_everything` — the finest level shows every event;
    * `admits_of_raised` — a filter with finer levels shows no less.
-/
import Mathlib
import ProbablePrime.Proofs.Log.Clauses

namespace ProbablePrime

namespace Log

/-! ## §1. The last of the most special. -/

/-- A directive of a row is more special than those behind it, and as special as those in front. -/
def Prevails (directives : List Directive) (best : Directive) : Prop :=
  ∃ front back, directives = front ++ best :: back
    ∧ (∀ other ∈ front, other.rank ≤ best.rank) ∧ ∀ other ∈ back, other.rank < best.rank

/-- In every row but the empty one there is such a directive. -/
theorem exists_prevails {directives : List Directive} (h : directives ≠ []) :
    ∃ best, Prevails directives best := by
  -- A directive in front gives way to the one that prevails behind it, or it is above all of them.
  induction directives with
  | nil => exact absurd rfl h
  | cons first directives ih =>
    by_cases hnil : directives = []
    · exact ⟨first, [], [], by rw [hnil, List.nil_append], by simp, by simp⟩
    · obtain ⟨best, front, back, rfl, hfront, hback⟩ := ih hnil
      by_cases hfirst : first.rank ≤ best.rank
      · exact ⟨best, first :: front, back, rfl, List.forall_mem_cons.2 ⟨hfirst, hfront⟩, hback⟩
      · have hbest : best.rank < first.rank := Nat.lt_of_not_le hfirst
        refine ⟨first, [], front ++ best :: back, rfl, by simp, ?_⟩
        refine List.forall_mem_append.2 ⟨?_, List.forall_mem_cons.2 ⟨hbest, ?_⟩⟩
        · exact fun other hother => (hfront other hother).trans_lt hbest
        · exact fun other hother => (hback other hother).trans hbest

/-- What is chosen is as special as something that it was chosen from. -/
theorem rank_le_of_mem_foldl {directives : List Directive} {start : Option Directive} {bound : Nat}
    (hstart : ∀ directive ∈ start, directive.rank ≤ bound)
    (h : ∀ directive ∈ directives, directive.rank ≤ bound) :
    ∀ best ∈ directives.foldl Filter.moreSpecial start, best.rank ≤ bound := by
  induction directives generalizing start with
  | nil => exact hstart
  | cons first directives ih =>
    obtain ⟨hfirst, hrest⟩ := List.forall_mem_cons.1 h
    refine ih ?_ hrest
    intro directive hdirective
    unfold Filter.moreSpecial at hdirective
    split at hdirective
    · obtain rfl := Option.some.inj hdirective
      exact hfirst
    · next other =>
      split at hdirective
      · obtain rfl := Option.some.inj hdirective
        exact hfirst
      · exact hstart directive hdirective

/-- A directive stays chosen while less special ones are looked at. -/
theorem foldl_moreSpecial_of_lt {directives : List Directive} {best : Directive}
    (h : ∀ directive ∈ directives, directive.rank < best.rank) :
    directives.foldl Filter.moreSpecial (some best) = some best := by
  induction directives with
  | nil => rfl
  | cons first directives ih =>
    obtain ⟨hfirst, hrest⟩ := List.forall_mem_cons.1 h
    have hstep : Filter.moreSpecial (some best) first = some best := if_neg (by omega)
    rw [List.foldl_cons, hstep]
    exact ih hrest

/-- **The last of the most special directives is chosen.** -/
theorem foldl_moreSpecial_eq_some_iff {directives : List Directive} {best : Directive} :
    directives.foldl Filter.moreSpecial none = some best ↔ Prevails directives best := by
  have hchosen {best : Directive} (h : Prevails directives best) :
      directives.foldl Filter.moreSpecial none = some best := by
    obtain ⟨front, back, rfl, hfront, hback⟩ := h
    -- Whatever was chosen in front of it is no more special, and gives way.
    have hstep : Filter.moreSpecial (front.foldl Filter.moreSpecial none) best = some best := by
      cases hfold : front.foldl Filter.moreSpecial none with
      | none => rfl
      | some other => exact if_pos (rank_le_of_mem_foldl (by simp) hfront other hfold)
    rw [List.foldl_append, List.foldl_cons, hstep]
    exact foldl_moreSpecial_of_lt hback
  refine ⟨fun h => ?_, hchosen⟩
  have hne : directives ≠ [] := by
    rintro rfl
    cases h
  obtain ⟨other, hother⟩ := exists_prevails hne
  obtain rfl := Option.some.inj (h.symm.trans (hchosen hother))
  exact hother

/-- **The directive that decides about an event** is the last of the most special that concern it. -/
theorem deciding_eq_some_iff {filter : Filter} {event : Event} {directive : Directive} :
    filter.deciding event = some directive
      ↔ ∃ front back, filter = front ++ directive :: back ∧ directive.concerns event = true
        ∧ (∀ other ∈ front, other.concerns event = true → other.rank ≤ directive.rank)
        ∧ ∀ other ∈ back, other.concerns event = true → other.rank < directive.rank := by
  rw [Filter.deciding, foldl_moreSpecial_eq_some_iff]
  constructor
  · rintro ⟨front, back, hsplit, hfront, hback⟩
    obtain ⟨front', rest, rfl, rfl, hrest⟩ := List.filter_eq_append_iff.1 hsplit
    obtain ⟨skipped, back', rfl, hskipped, hconcerns, rfl⟩ := List.filter_eq_cons_iff.1 hrest
    -- What was skipped just in front of the directive does not concern the event.
    refine ⟨front' ++ skipped, back', by rw [List.append_assoc], hconcerns,
      List.forall_mem_append.2 ⟨List.forall_mem_filter.1 hfront, ?_⟩, List.forall_mem_filter.1 hback⟩
    exact fun other hother hconcerned => absurd hconcerned (hskipped other hother)
  · rintro ⟨front, back, rfl, hconcerns, hfront, hback⟩
    refine ⟨front.filter (·.concerns event), back.filter (·.concerns event), ?_,
      List.forall_mem_filter.2 hfront, List.forall_mem_filter.2 hback⟩
    simp only [List.filter_append, List.filter_cons, hconcerns, if_true]

/-! ## §2. The longest name decides. -/

namespace Directive

/-- What the targets begin with that a directive concerns. -/
def lead (directive : Directive) : List Char := (directive.target.getD "").toList

/-- A directive without a span and a field, and with a name for its target, if it has one. -/
structure Simple (directive : Directive) : Prop where
  /-- It asks for no span. -/
  span : directive.span = none
  /-- It asks for no field. -/
  field : directive.field = none
  /-- Its target is not empty. -/
  target : directive.target ≠ some ""

variable {directive directive' : Directive} {event : Event}

/-- A simple directive concerns the events whose targets begin with its name. -/
theorem Simple.concerns_iff (h : directive.Simple) :
    directive.concerns event = true ↔ directive.lead <+: event.target.toList := by
  obtain ⟨target, span, field, detail⟩ := directive
  obtain rfl : span = none := h.span
  obtain rfl : field = none := h.field
  cases target with
  | none => simp [concerns, lead]
  | some target => simp [concerns, lead, List.isPrefixOf_iff_prefix]

/-- How special a simple directive is: its name counts by its length, and below all names is none. -/
theorem Simple.rank_eq (h : directive.Simple) :
    directive.rank = if directive.lead = [] then 0
      else 2 * ((String.ofList directive.lead).utf8ByteSize + 1) := by
  have htarget := h.target
  unfold rank lead
  rw [h.field]
  cases hname : directive.target with
  | none => rfl
  | some target =>
    have hne : target.toList ≠ [] := by
      rw [Ne, String.toList_eq_nil_iff]
      rintro rfl
      exact htarget hname
    rw [Option.getD_some, if_neg hne, String.ofList_toList]
    rfl

/-- The longer of two names that begin alike is the more special. -/
theorem Simple.rank_lt_of_lead (h : directive.Simple) (h' : directive'.Simple)
    (hbegins : directive.lead <+: directive'.lead) (hne : directive.lead ≠ directive'.lead) :
    directive.rank < directive'.rank := by
  obtain ⟨behind, hbehind⟩ := hbegins
  have hmore : behind ≠ [] := by
    rintro rfl
    exact hne (by rw [← hbehind, List.append_nil])
  have hsize : 0 < (String.ofList behind).utf8ByteSize := by
    rw [Nat.pos_iff_ne_zero, Ne, String.utf8ByteSize_eq_zero_iff, String.ofList_eq_empty_iff]
    exact hmore
  rw [h.rank_eq, h'.rank_eq, ← hbehind, String.ofList_append, String.utf8ByteSize_append,
    if_neg (List.append_ne_nil_of_right_ne_nil _ hmore)]
  split <;> omega

/-- **Of two names with which a text begins, the longer is the more special.** -/
theorem Simple.rank_le_iff (h : directive.Simple) (h' : directive'.Simple) {text : List Char}
    (hlead : directive.lead <+: text) (hlead' : directive'.lead <+: text) :
    directive.rank ≤ directive'.rank ↔ directive.lead.length ≤ directive'.lead.length := by
  by_cases hsame : directive.lead = directive'.lead
  · rw [h.rank_eq, h'.rank_eq, hsame]
    simp
  · have hlength {l l' : List Char} (hbegins : l <+: l') (hne : l ≠ l') : l.length < l'.length :=
      lt_of_le_of_ne hbegins.length_le fun heq => hne (hbegins.eq_of_length heq)
    -- Of two names that begin one text, one begins with the other.
    rcases List.prefix_or_prefix_of_prefix hlead hlead' with hbegins | hbegins
    · have hrank := h.rank_lt_of_lead h' hbegins hsame
      have hless := hlength hbegins hsame
      omega
    · have hrank := h'.rank_lt_of_lead h hbegins (Ne.symm hsame)
      have hless := hlength hbegins (Ne.symm hsame)
      omega

end Directive

/-- A directive decides about an event: the event's target begins with its name, which is longer than
those of that kind behind it, and not shorter than those in front. -/
def Decides (filter : Filter) (event : Event) (directive : Directive) : Prop :=
  ∃ front back, filter = front ++ directive :: back ∧ directive.lead <+: event.target.toList
    ∧ (∀ other ∈ front, other.lead <+: event.target.toList →
      other.lead.length ≤ directive.lead.length)
    ∧ ∀ other ∈ back, other.lead <+: event.target.toList →
      other.lead.length < directive.lead.length

/-- An event is shown: the directive that decides about it has a level that is as fine. -/
def Shows (filter : Filter) (event : Event) : Prop :=
  ∃ directive, Decides filter event directive ∧ event.level.detail ≤ directive.detail

/-- A clause writes a simple directive. -/
theorem Writes.simple {clause : List Char} {directive : Directive} (h : Writes clause directive) :
    directive.Simple := by
  have hnamed {name : List Char} (hname : IsTarget name) : some (String.ofList name) ≠ some "" := by
    obtain ⟨c, hc, -⟩ := hname.begins
    intro hempty
    rw [String.ofList_eq_empty_iff.1 (Option.some.inj hempty)] at hc
    cases hc
  cases h with
  | level hlevel hplus => exact ⟨rfl, rfl, by simp⟩
  | target hname hlevel => exact ⟨rfl, rfl, hnamed hname⟩
  | targetLevel hname hlevel => exact ⟨rfl, rfl, hnamed hname⟩

/-- A filter that is written as clauses has simple directives only. -/
theorem WritesFilter.simple {text : String} {filter : Filter} (h : WritesFilter text filter) :
    ∀ directive ∈ filter, directive.Simple := by
  obtain ⟨clauses, hclauses, -⟩ := h
  clear * - hclauses
  induction hclauses with
  | nil => simp
  | cons hwrites _ ih => exact List.forall_mem_cons.2 ⟨hwrites.simple, ih⟩

/-- So has the filter of a run. -/
theorem Chosen.simple {environment : Option String} {option : String} {filter : Filter}
    (h : Chosen environment option filter) : ∀ directive ∈ filter, directive.Simple := by
  cases h with
  | environment hwrites => exact hwrites.simple
  | option hwrites => exact hwrites.simple

/-- **In a filter of clauses the longest name decides.** -/
theorem deciding_eq_some_iff_decides {filter : Filter} {event : Event} {directive : Directive}
    (hsimple : ∀ directive ∈ filter, directive.Simple) :
    filter.deciding event = some directive ↔ Decides filter event directive := by
  rw [deciding_eq_some_iff]
  refine exists_congr fun front => exists_congr fun back => and_congr_right fun hsplit => ?_
  obtain ⟨hfront, hdirective, hback⟩ : (∀ other ∈ front, other.Simple) ∧ directive.Simple
      ∧ ∀ other ∈ back, other.Simple := by
    rw [hsplit] at hsimple
    simpa [or_imp, forall_and] using hsimple
  rw [hdirective.concerns_iff]
  -- The filter is split at the same place, and only the measure of the names differs.
  refine and_congr_right fun hlead => and_congr ?_ ?_
  · refine forall₂_congr fun other hother => ?_
    rw [(hfront other hother).concerns_iff]
    exact forall_congr' fun hlead' => (hfront other hother).rank_le_iff hdirective hlead' hlead
  · refine forall₂_congr fun other hother => ?_
    rw [(hback other hother).concerns_iff]
    refine forall_congr' fun hlead' => ?_
    rw [← Nat.not_le, ← Nat.not_le, hdirective.rank_le_iff (hback other hother) hlead hlead']

/-- **A filter of clauses shows** what the clause with the longest name shows. -/
theorem admits_iff_shows {filter : Filter} {event : Event}
    (hsimple : ∀ directive ∈ filter, directive.Simple) :
    filter.admits event = true ↔ Shows filter event := by
  rw [Filter.admits, Option.any_eq_true]
  refine exists_congr fun directive => ?_
  rw [deciding_eq_some_iff_decides hsimple, decide_eq_true_iff]

/-! ## §3. Finer levels. -/

/-- The filter of the finest level. -/
def everything : Filter := [⟨none, none, none, Level.trace.detail⟩]

theorem writesFilter_trace : WritesFilter "trace" everything :=
  ⟨["trace".toList], .cons (.level (by decide) (by decide)) .nil, rfl⟩

/-- **The finest level shows every event.** -/
theorem admits_everything (event : Event) : everything.admits event = true := by
  have hlevel : event.level.detail ≤ Level.trace.detail := by cases event.level <;> decide
  exact decide_eq_true hlevel

/-- The same directive with a level that is as fine or finer. -/
structure Raised (directive directive' : Directive) : Prop where
  /-- Only the level changes. -/
  same : { directive with detail := directive'.detail } = directive'
  /-- It shows no less. -/
  finer : directive.detail ≤ directive'.detail

namespace Raised

variable {directive directive' other other' : Directive}

theorem concerns_eq (h : Raised directive directive') (event : Event) :
    directive.concerns event = directive'.concerns event := by
  rw [← h.same]
  rfl

theorem rank_eq (h : Raised directive directive') : directive.rank = directive'.rank := by
  rw [← h.same]
  rfl

/-- The more special of two directives is the more special of them with finer levels. -/
theorem moreSpecial {best best' : Option Directive} (hbest : Option.Rel Raised best best')
    (h : Raised directive directive') :
    Option.Rel Raised (Filter.moreSpecial best directive) (Filter.moreSpecial best' directive') := by
  cases hbest with
  | none => exact .some h
  | some hother =>
    unfold Filter.moreSpecial
    dsimp only
    rw [hother.rank_eq, h.rank_eq]
    split
    · exact .some h
    · exact .some hother

end Raised

/-- **With finer levels a filter shows no less.** -/
theorem admits_of_raised {filter filter' : Filter} {event : Event}
    (h : List.Forall₂ Raised filter filter') (hadmits : filter.admits event = true) :
    filter'.admits event = true := by
  -- The names are the same in both filters, so directives at the same place decide.
  have hconcerned : List.Forall₂ Raised (filter.filter (·.concerns event))
      (filter'.filter (·.concerns event)) :=
    List.rel_filter (fun _ _ hraised => Bool.eq_iff_iff.1 (hraised.concerns_eq event)) h
  have hdeciding : Option.Rel Raised (filter.deciding event) (filter'.deciding event) :=
    List.rel_foldl (fun _ _ hbest _ _ hraised => hraised.moreSpecial hbest) .none hconcerned
  unfold Filter.admits at hadmits ⊢
  generalize filter.deciding event = best at hdeciding hadmits
  generalize filter'.deciding event = best' at hdeciding ⊢
  cases hdeciding with
  | none => cases hadmits
  | some hraised => exact decide_eq_true ((of_decide_eq_true hadmits).trans hraised.finer)

end Log

end ProbablePrime
