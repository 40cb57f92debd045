/-
  ProbablePrime.Proofs.Generator.Plan — operations made of searches, under different caps.

  An operation that searches for primes does three things: it draws something that has nothing to do
  with a cap, it searches, and it is done.  A `Plan` is such an operation written down, so that what
  holds of one search can be carried over a whole operation by induction on the plan, and the searches
  that a run makes can be listed with the candidates that each of them needed.

  A cap is a bound for each search and not for the run.  It is never noticed by a run whose searches
  all stay within it, and any other run stops in the first search that does not.

  Main results:
    * `Plan.exists_makes` — a run that ends without a cap has made some list of searches;
    * `Plan.Makes.ends_capped` and `Plan.Makes.ends_exhausted` — what a cap makes of the run;
    * `cap_transparent` — the four operations that search.
-/
import ProbablePrime.Proofs.Generator.Cap
import ProbablePrime.Proofs.Vectors.Scan
import ProbablePrime.Sample.Basic

namespace ProbablePrime

open Entropy (Source Tape)
open Draw (Ends Steady)
open Vectors (Inputs)

/-! ## §1. Plans. -/

/-- An operation that draws and searches. -/
inductive Plan (σ α : Type) : Type 1
  /-- Nothing is left to do. -/
  | done (a : α) : Plan σ α
  /-- A step that no cap has a part in, and what follows it. -/
  | draw {β : Type} (step : Nat → Draw σ PrimeError β) (steady : Steady step)
      (next : β → Plan σ α) : Plan σ α
  /-- A search for a prime of `bits` bits, and what follows it. -/
  | search (bits : Nat) (next : Nat → Plan σ α) : Plan σ α

/-- A search that was made: its size, and how many candidates it needed. -/
structure Effort where
  /-- The size of the prime. -/
  bits : Nat
  /-- The number of candidates that were begun. -/
  candidates : Nat
  deriving DecidableEq, Repr

namespace Plan

variable {σ α β : Type}

/-- One plan after another. -/
def bind : Plan σ α → (α → Plan σ β) → Plan σ β
  | done a, rest => rest a
  | draw step steady next, rest => draw step steady fun b => (next b).bind rest
  | search bits next, rest => search bits fun p => (next p).bind rest

variable [Source σ]

/-- Carries out a plan. -/
def run (config : Config) (fuel : Nat) : Plan σ α → Draw σ PrimeError α
  | done a => pure a
  | draw step _ next => step fuel >>= fun b => (next b).run config fuel
  | search bits next => probablePrime config fuel bits >>= fun p => (next p).run config fuel

theorem run_bind (config : Config) (fuel : Nat) (plan : Plan σ α) (rest : α → Plan σ β) :
    (plan.bind rest).run config fuel
      = plan.run config fuel >>= fun a => (rest a).run config fuel := by
  induction plan with
  | done a =>
    show (rest a).run config fuel = pure a >>= fun a => (rest a).run config fuel
    rw [pure_bind]
  | draw step steady next ih =>
    show (step fuel >>= fun b => ((next b).bind rest).run config fuel) = _
    simp only [ih, run, bind_assoc]
  | search bits next ih =>
    show (probablePrime config fuel bits >>= fun p => ((next p).bind rest).run config fuel) = _
    simp only [ih, run, bind_assoc]

/-! ## §2. The searches of a run. -/

/-- Without a cap the plan ends from `session` with `answer` in `session'`, and the searches that it
makes on the way are those of the list, in order. -/
inductive Makes (config : Config) : (plan : Plan σ α) → (session : Session σ) → List Effort →
    (answer : Except PrimeError α) → (session' : Session σ) → Prop
  /-- Nothing is left to do. -/
  | done {a : α} {session : Session σ} : Makes config (.done a) session [] (.ok a) session
  /-- A step is made, and the rest of the plan. -/
  | draw {β : Type} {step : Nat → Draw σ PrimeError β} {steady : Steady step} {next : β → Plan σ α}
      {b : β} {session mid session' : Session σ} {efforts : List Effort}
      {answer : Except PrimeError α} : Ends step session (.ok b) mid →
      Makes config (next b) mid efforts answer session' →
      Makes config (.draw step steady next) session efforts answer session'
  /-- A step ends with an error. -/
  | drawError {β : Type} {step : Nat → Draw σ PrimeError β} {steady : Steady step}
      {next : β → Plan σ α} {session session' : Session σ} {cause : PrimeError} :
      Ends step session (.error cause) session' →
      Makes config (.draw step steady next) session [] (.error cause) session'
  /-- A search finds its prime, and the rest of the plan is made. -/
  | search {bits count p : Nat} {next : Nat → Plan σ α} {session mid session' : Session σ}
      {efforts : List Effort} {answer : Except PrimeError α} :
      Needs config.rounds bits session count →
      Ends (fun fuel => probablePrime (config.capped none) fuel bits) session (.ok p) mid →
      Makes config (next p) mid efforts answer session' →
      Makes config (.search bits next) session (⟨bits, count⟩ :: efforts) answer session'
  /-- A search ends with an error. -/
  | searchError {bits count : Nat} {next : Nat → Plan σ α} {session session' : Session σ}
      {cause : PrimeError} : Needs config.rounds bits session count →
      Ends (fun fuel => probablePrime (config.capped none) fuel bits) session (.error cause) session' →
      Makes config (.search bits next) session [⟨bits, count⟩] (.error cause) session'

variable {config : Config} {plan : Plan σ α} {session session' : Session σ}
  {answer : Except PrimeError α} {efforts : List Effort}

/-- **A run that ends without a cap has made some list of searches.** -/
theorem exists_makes (h : Ends (plan.run (config.capped none)) session answer session') :
    ∃ efforts, Makes config plan session efforts answer session' := by
  induction plan generalizing session with
  | done a =>
    have hdone : Ends (fun _ => (pure a : Draw σ PrimeError α)) session (.ok a) session :=
      Ends.of_const rfl
    obtain ⟨rfl, rfl⟩ := hdone.unique h
    exact ⟨[], .done⟩
  | draw step steady next ih =>
    rcases Ends.of_bind steady h with ⟨cause, rfl, hstep⟩ | ⟨b, mid, hstep, hrest⟩
    · exact ⟨[], .drawError hstep⟩
    · obtain ⟨efforts, hmakes⟩ := ih b hrest
      exact ⟨efforts, .draw hstep hmakes⟩
  | search bits next ih =>
    -- Whether the search finds its prime or not, it has needed some number of candidates.
    rcases Ends.of_bind (steady_probablePrime _ bits) h with ⟨cause, rfl, hsearch⟩ |
      ⟨p, mid, hsearch, hrest⟩
    · obtain ⟨count, hneeds⟩ := exists_needs hsearch
      exact ⟨[⟨bits, count⟩], .searchError hneeds hsearch⟩
    · obtain ⟨count, hneeds⟩ := exists_needs hsearch
      obtain ⟨efforts, hmakes⟩ := ih p hrest
      exact ⟨⟨bits, count⟩ :: efforts, .search hneeds hsearch hmakes⟩

/-! ## §3. The same run under a cap. -/

variable {m : Nat}

/-- The first search of a run that needs more candidates than the cap allows. -/
def firstOver (m : Nat) (efforts : List Effort) : Option Effort :=
  efforts.find? fun effort => m < effort.candidates

/-- **A run whose searches all stay within the cap does not notice it.** -/
theorem Makes.ends_capped (h : Makes config plan session efforts answer session')
    (hwithin : firstOver m efforts = none) :
    Ends (plan.run (config.capped (some m))) session answer session' := by
  induction h with
  | done => exact Ends.of_const rfl
  | draw hstep _ ih => exact hstep.bind (ih hwithin)
  | drawError hstep => exact hstep.bind_error _
  | search hneeds hsearch _ ih =>
    obtain ⟨hle, hrest⟩ := by simpa [firstOver] using hwithin
    exact (hneeds.ends_capped hsearch hle).bind (ih (by simpa [firstOver] using hrest))
  | searchError hneeds hsearch =>
    have hle := by simpa [firstOver] using hwithin
    exact (hneeds.ends_capped hsearch hle).bind_error _

/-- **A run with a search past the cap stops in the first such search**, and says so. -/
theorem Makes.ends_exhausted (h : Makes config plan session efforts answer session')
    {effort : Effort} (hover : firstOver m efforts = some effort) :
    ∃ last, Ends (plan.run (config.capped (some m))) session
      (.error (.attemptsExhausted effort.bits m)) last := by
  induction h with
  | done => cases hover
  | draw hstep _ ih =>
    obtain ⟨last, hends⟩ := ih hover
    exact ⟨last, hstep.bind hends⟩
  | drawError _ => cases hover
  | @search bits count p next session mid session' efforts answer hneeds hsearch _ ih =>
    by_cases hlt : m < count
    · -- This is the search, and nothing of the plan comes behind it.
      obtain rfl : ⟨bits, count⟩ = effort := by simpa [firstOver, hlt] using hover
      obtain ⟨last, hends⟩ := hneeds.ends_exhausted hsearch hlt
      exact ⟨last, hends.bind_error _⟩
    · obtain ⟨last, hends⟩ := ih (by simpa [firstOver, hlt] using hover)
      exact ⟨last, (hneeds.ends_capped hsearch (by omega)).bind hends⟩
  | @searchError bits count next session session' cause hneeds hsearch =>
    obtain ⟨hlt, rfl⟩ : m < count ∧ ⟨bits, count⟩ = effort := by
      simpa [firstOver, List.find?_cons_eq_some] using hover
    obtain ⟨last, hends⟩ := hneeds.ends_exhausted hsearch hlt
    exact ⟨last, hends.bind_error _⟩

/-- **Raising the cap keeps what a run has come to.** -/
theorem ends_run_of_looser {cap cap' : Option Nat} (hcap : Looser cap cap') {a : α}
    (h : Ends (plan.run (config.capped cap)) session (.ok a) session') :
    Ends (plan.run (config.capped cap')) session (.ok a) session' := by
  induction plan generalizing session with
  | done b => exact h
  | draw step steady next ih =>
    obtain ⟨b, mid, hstep, hrest⟩ := (Draw.ends_bind_ok_iff steady).1 h
    exact hstep.bind (ih b hrest)
  | search bits next ih =>
    obtain ⟨p, mid, hsearch, hrest⟩ := (Draw.ends_bind_ok_iff (steady_probablePrime _ bits)).1 h
    exact (ends_probablePrime_of_looser hcap hsearch).bind (ih p hrest)

end Plan

/-! ## §4. Operations that are transparent to their cap. -/

variable {σ α : Type} [Source σ]

/-- The operation carries out the plan whatever its cap is, and its cap only ever stops it. -/
structure CapTransparent (config : Config) (op : Config → Nat → Draw σ PrimeError α)
    (plan : Plan σ α) : Prop where
  /-- The plan is the operation. -/
  eq_run : ∀ cap fuel, op (config.capped cap) fuel = plan.run (config.capped cap) fuel
  /-- A run that ends without a cap ends in the same way under a cap that none of its searches goes
  past, and otherwise in the first search that does. -/
  capped : ∀ {session session' : Session σ} {answer : Except PrimeError α},
    Ends (op (config.capped none)) session answer session' →
      ∃ efforts, plan.Makes config session efforts answer session' ∧ ∀ m,
        Plan.firstOver m efforts = none
            ∧ Ends (op (config.capped (some m))) session answer session'
          ∨ ∃ effort last, Plan.firstOver m efforts = some effort
            ∧ Ends (op (config.capped (some m))) session
                (.error (.attemptsExhausted effort.bits m)) last
  /-- A run that has come to a value comes to the same under a looser cap. -/
  raised : ∀ {cap cap' : Option Nat}, Looser cap cap' → ∀ {session session' : Session σ} {a : α},
    Ends (op (config.capped cap)) session (.ok a) session' →
      Ends (op (config.capped cap')) session (.ok a) session'

/-- An operation that carries out a plan is transparent to its cap. -/
theorem CapTransparent.of_eq_run {config : Config} {op : Config → Nat → Draw σ PrimeError α}
    {plan : Plan σ α}
    (h : ∀ cap fuel, op (config.capped cap) fuel = plan.run (config.capped cap) fuel) :
    CapTransparent config op plan where
  eq_run := h
  capped {session session' answer} hends := by
    have hop (cap : Option Nat) :
        op (config.capped cap) = fun fuel => plan.run (config.capped cap) fuel := funext (h cap)
    rw [hop] at hends
    obtain ⟨efforts, hmakes⟩ := Plan.exists_makes hends
    refine ⟨efforts, hmakes, fun m => ?_⟩
    rw [hop]
    cases hover : Plan.firstOver m efforts with
    | none => exact Or.inl ⟨rfl, hmakes.ends_capped hover⟩
    | some effort =>
      obtain ⟨last, hlast⟩ := hmakes.ends_exhausted hover
      exact Or.inr ⟨effort, last, rfl, hlast⟩
  raised {cap cap'} hcap {session session' a} hends := by
    have hop (cap : Option Nat) :
        op (config.capped cap) = fun fuel => plan.run (config.capped cap) fuel := funext (h cap)
    rw [hop] at hends ⊢
    exact Plan.ends_run_of_looser hcap hends

/-! ## §5. The operations. -/

/-- One search. -/
def searchPlan (bits : Nat) : Plan σ Nat := .search bits .done

/-- The drawing of a sample: an integer, and two searches of its size. -/
def samplePlan (bits : Nat) : Plan σ Sample :=
  .draw (fun _ => randomInteger bits) (Draw.steady_const _) fun random =>
    .search bits fun p =>
    .search bits fun q =>
    .draw (fun _ => Draw.note (Sample.drew bits (Number.bitLength (p * q)))) (Draw.steady_const _)
      fun _ => .done ⟨bits, random, p, q, p * q⟩

/-- The drawing of large numbers: for each of the two lists in turn, a prime, and the two factors of
a composite. -/
def largePlan (bits : Nat) : (count : Nat) → Plan σ (List Nat × List Nat)
  | 0 => .done ([], [])
  | count + 1 =>
    .search bits fun prime =>
    .search (Vectors.factorBits bits) fun p =>
    .search (Vectors.factorBits bits) fun q =>
    (largePlan bits count).bind fun lists => .done (prime :: lists.1, p * q :: lists.2)

/-- The making of lists: the walk over the small numbers searches for nothing. -/
def listsPlan (rounds count bits : Nat) : Plan σ Inputs :=
  .draw (fun fuel => Vectors.scan fuel rounds count) (Vectors.steady_scan rounds count) fun small =>
    (largePlan bits count).bind fun large => .done ⟨small.1, large.1, small.2, large.2⟩

theorem run_largePlan (config : Config) (fuel bits count : Nat) :
    (largePlan bits count).run config fuel
      = (Vectors.drawLarge config fuel bits count : Draw σ PrimeError _) := by
  induction count with
  | zero => rfl
  | succ count ih =>
    simp only [largePlan, Plan.run, Plan.run_bind, ih, Vectors.drawLarge, Vectors.semiprime,
      bind_assoc, pure_bind]

/-- **The cap is transparent**, in one search, in the search of the configured size, in the drawing
of a sample and in the making of lists.  If the run without a cap ends, the run under a cap of `m`
ends with the same answer in the same session, or it stops with the size of the first search that
needed more than `m` candidates.  What a run has found, it finds again under every looser cap. -/
theorem cap_transparent (config : Config) :
    (∀ bits, CapTransparent config
        (fun config fuel => (probablePrime config fuel bits : Draw σ PrimeError Nat))
        (searchPlan bits))
      ∧ CapTransparent config
        (fun config fuel => (configuredPrime config fuel : Draw σ PrimeError Nat))
        (searchPlan config.bitSize)
      ∧ CapTransparent config
        (fun config fuel => (Sample.draw config fuel : Draw σ PrimeError Sample))
        (samplePlan config.bitSize)
      ∧ ∀ count bits, CapTransparent config
        (fun config fuel => (Vectors.synthesize config fuel count bits : Draw σ PrimeError Inputs))
        (listsPlan config.rounds count bits) := by
  have hsearch (bits : Nat) (cap : Option Nat) (fuel : Nat) :
      (probablePrime (config.capped cap) fuel bits : Draw σ PrimeError Nat)
        = (searchPlan bits).run (config.capped cap) fuel := by
    -- Behind the one search of the plan nothing is left to do.
    simp only [searchPlan, Plan.run, bind_pure]
  refine ⟨fun bits => .of_eq_run (hsearch bits), .of_eq_run (hsearch config.bitSize),
    .of_eq_run fun cap fuel => ?_, fun count bits => .of_eq_run fun cap fuel => ?_⟩
  · rfl
  · simp only [listsPlan, Plan.run, Plan.run_bind, run_largePlan, Vectors.synthesize]
    rfl

/-- Of four bits, the tape holds 9, 15 and 11.  The search without a cap finds 11, so every cap leaves
this be or is reported, and what is found under a cap of three is found under one of seven. -/
theorem cap_transparent_four_bits :
    (∃ efforts, (searchPlan 4).Makes ⟨4, 1, none⟩ (Session.start (⟨[0, 6, 2]⟩ : Tape)) efforts
        (.ok 11) ⟨⟨[]⟩, ⟨3, 3⟩, [found 4 3]⟩ ∧ ∀ m,
          Plan.firstOver m efforts = none
              ∧ Ends (fun fuel => probablePrime ⟨4, 1, some m⟩ fuel 4)
                (Session.start (⟨[0, 6, 2]⟩ : Tape)) (.ok 11) ⟨⟨[]⟩, ⟨3, 3⟩, [found 4 3]⟩
            ∨ ∃ effort last, Plan.firstOver m efforts = some effort
              ∧ Ends (fun fuel => probablePrime ⟨4, 1, some m⟩ fuel 4)
                (Session.start (⟨[0, 6, 2]⟩ : Tape))
                (.error (.attemptsExhausted effort.bits m)) last)
      ∧ Ends (fun fuel => probablePrime ⟨4, 1, some 3⟩ fuel 4)
          (Session.start (⟨[0, 6, 2]⟩ : Tape)) (.ok 11) ⟨⟨[]⟩, ⟨3, 3⟩, [found 4 3]⟩
      ∧ Ends (fun fuel => probablePrime ⟨4, 1, some 7⟩ fuel 4)
          (Session.start (⟨[0, 6, 2]⟩ : Tape)) (.ok 11) ⟨⟨[]⟩, ⟨3, 3⟩, [found 4 3]⟩ := by
  have hfound (cap : Option Nat) (hcap : ∀ m, cap = some m → 2 < m) :
      Ends (fun fuel => probablePrime ⟨4, 1, cap⟩ fuel 4) (Session.start (⟨[0, 6, 2]⟩ : Tape))
        (.ok 11) ⟨⟨[]⟩, ⟨3, 3⟩, [found 4 3]⟩ := by
    have hopen (attempts : Nat) (hle : attempts ≤ 2) :
        Config.exhausted ⟨4, 1, cap⟩ attempts = false := by
      cases cap with
      | none => rfl
      | some m => exact decide_eq_false (by have := hcap m rfl; omega)
    have hrounds : Config.rounds ⟨4, 1, cap⟩ ≠ 0 := Nat.one_ne_zero
    have hrun : (probablePrime ⟨4, 1, cap⟩ 3 4).runIn (Session.start (⟨[0, 6, 2]⟩ : Tape))
        = (.ok 11, ⟨⟨[]⟩, ⟨3, 3⟩, [found 4 3]⟩) := by
      rw [probablePrime, if_neg (by decide),
        runIn_searchFrom_of_small (c := 9) (by decide) hrounds (hopen 0 (by decide)) rfl
          (by decide) (by decide),
        if_neg (by norm_num),
        runIn_searchFrom_of_small (c := 15) (by decide) hrounds (hopen 1 (by decide)) rfl
          (by decide) (by decide),
        if_neg (by norm_num),
        runIn_searchFrom_of_small (c := 11) (by decide) hrounds (hopen 2 (by decide)) rfl
          (by decide) (by decide),
        if_pos (by norm_num)]
      rfl
    exact (steady_probablePrime _ _).ends hrun
  have hlooser : Looser (some 3) (some 7) := by
    rintro m' hm'
    obtain rfl := Option.some.inj hm'
    exact ⟨3, rfl, by decide⟩
  have hthree := hfound (some 3) fun m hm => by obtain rfl := Option.some.inj hm; decide
  refine ⟨?_, hthree, ?_⟩
  · exact ((cap_transparent ⟨4, 1, none⟩).1 4).capped (hfound none fun m hm => by cases hm)
  · exact ((cap_transparent ⟨4, 1, none⟩).1 4).raised hlooser hthree

end ProbablePrime
