/-
  ProbablePrime.Proofs.Vectors.Acceptance — made-up lists, and what their classification says of them.

  Lists are made with one source and classified with another, so two verdicts are passed on the same
  number.  They can differ about one kind of number only, the composite without small factors, and such
  a number is all that a classification of made-up lists can complain about.

  `Accounts` says of a computation which errors of its own it can end with, and which numbers it can
  wait for without an end.  Steps that are accounted for make up runs that are.

  Main results:
    * `Accounts.bind` and `Accounts.mapM` — sequences and lists of steps;
    * `accounts_classify` — one number that suits its category;
    * `accepted_of_synthesize` — made-up lists.
-/
import ProbablePrime.Entropy.KeyStream
import ProbablePrime.Proofs.Vectors.Classified
import ProbablePrime.Proofs.Vectors.InOrder
import ProbablePrime.Proofs.Vectors.Synthesis

namespace ProbablePrime.Vectors

open Entropy (KeyStream Ones Source Tape)
open Entropy.Source (Reaches Refuses NeverRefuses)
open Primality (Passable Settled Verdict check decompose)
open Draw (Ends Endless Steady)

variable {σ τ α β : Type} [Source σ] [Source τ]

/-! ## §1. Accounts. -/

/-- The computation serves its requests one after another.  It stops with the cause of a refusal or
with an error that is blamed, and where it has no end it draws a witness for a number that is waited
for. -/
structure Accounts (blames : VectorError → Prop) (waits : Nat → Prop)
    (draw : Nat → Draw τ VectorError α) : Prop where
  /-- Fuel only decides whether it ends. -/
  steady : Steady draw
  /-- A value is reached by requests that were all served. -/
  reaches : ∀ {fuel : Nat} {session session' : Session τ} {a : α},
    (draw fuel).runIn session = (.ok a, session') → Reaches session.source session'.source
  /-- An error is a refusal or is blamed. -/
  error : ∀ {fuel : Nat} {session session' : Session τ} {cause : VectorError},
    (draw fuel).runIn session = (.error (.error cause), session') →
      (∃ refusal, cause = .prime refusal ∧ Refuses session.source refusal session'.source)
        ∨ blames cause
  /-- Without an end, some witness is drawn for ever. -/
  endless : ∀ {session : Session τ}, Endless draw session →
    ∃ n, waits n ∧ ∃ mid : Session τ, Reaches session.source mid.source
      ∧ Endless (fun fuel => randomBelow fuel (n - 3)) mid

variable {blames : VectorError → Prop} {waits : Nat → Prop}

namespace Accounts

/-- A step that always has a value and leaves the source alone. -/
theorem of_ok {step : Draw τ VectorError α}
    (h : ∀ session, ∃ a session', step.runIn session = (.ok a, session')
      ∧ session'.source = session.source) :
    Accounts blames waits fun _ => step where
  steady := Draw.steady_const step
  reaches {_ session session' a} hrun := by
    obtain ⟨a', after, hstep, hsource⟩ := h session
    obtain ⟨-, rfl⟩ := Prod.mk.inj (hstep.symm.trans hrun)
    rw [hsource]
    exact Reaches.refl _
  error {_ session _ _} hrun := by
    obtain ⟨a, after, hstep, -⟩ := h session
    cases hstep.symm.trans hrun
  endless {session} hendless := by
    obtain ⟨a, after, hstep, -⟩ := h session
    have hout := hendless 0
    rw [hstep] at hout
    cases hout

theorem pure (a : α) : Accounts blames waits fun _ => (Pure.pure a : Draw τ VectorError α) :=
  .of_ok fun session => ⟨a, session, rfl, rfl⟩

theorem note (event : Log.Event) :
    Accounts blames waits fun _ => (Draw.note event : Draw τ VectorError Unit) :=
  .of_ok fun session => ⟨(), session.noted event, rfl, rfl⟩

/-- A step that fails is blamed for it. -/
theorem fail {cause : VectorError} (h : blames cause) :
    Accounts blames waits fun _ => (Draw.fail cause : Draw τ VectorError α) where
  steady := Draw.steady_const _
  reaches hrun := by simp at hrun
  error hrun := by
    rw [Draw.runIn_fail] at hrun
    obtain ⟨hcause, -⟩ := Prod.mk.inj hrun
    obtain rfl := Stop.error.inj (Except.error.inj hcause)
    exact Or.inr h
  endless hendless := by
    have hout := hendless 0
    simp at hout

/-- A sequence is accounted for when its second part is, behind every value that the first part can
have. -/
theorem bind_of_run {draw : Nat → Draw τ VectorError α} {next : Nat → α → Draw τ VectorError β}
    (hdraw : Accounts blames waits draw) (hsteady : ∀ a, Steady (next · a))
    (hnext : ∀ fuel (session session' : Session τ) a,
      (draw fuel).runIn session = (.ok a, session') → Accounts blames waits (next · a)) :
    Accounts blames waits fun fuel => draw fuel >>= next fuel where
  steady := hdraw.steady.bind hsteady
  reaches hrun := by
    obtain ⟨a, mid, hfirst, hsecond⟩ := Draw.runIn_bind_eq_ok.1 hrun
    exact (hdraw.reaches hfirst).trans ((hnext _ _ _ a hfirst).reaches hsecond)
  error hrun := by
    rcases Draw.runIn_bind_eq_error.1 hrun with hfirst | ⟨a, mid, hfirst, hsecond⟩
    · exact hdraw.error hfirst
    · rcases (hnext _ _ _ a hfirst).error hsecond with ⟨refusal, hcause, hrefuse⟩ | hblame
      · exact Or.inl ⟨refusal, hcause, (hdraw.reaches hfirst).refuses hrefuse⟩
      · exact Or.inr hblame
  endless hendless := by
    rcases Draw.Endless.of_bind hdraw.steady hsteady hendless with
      hfirst | ⟨a, mid, ⟨least, hends⟩, hsecond⟩
    · exact hdraw.endless hfirst
    · have hfirst := hends least le_rfl
      obtain ⟨n, hn, last, hreach, hwait⟩ := (hnext _ _ _ a hfirst).endless hsecond
      exact ⟨n, hn, last, (hdraw.reaches hfirst).trans hreach, hwait⟩

/-- **A sequence of steps that are accounted for is accounted for.** -/
theorem bind {draw : Nat → Draw τ VectorError α} {next : Nat → α → Draw τ VectorError β}
    (hdraw : Accounts blames waits draw) (hnext : ∀ a, Accounts blames waits (next · a)) :
    Accounts blames waits fun fuel => draw fuel >>= next fuel :=
  hdraw.bind_of_run (fun a => (hnext a).steady) fun _ _ _ a _ => hnext a

/-- **Steps for the elements of a list.** -/
theorem mapM {f : Nat → α → Draw τ VectorError β} {as : List α}
    (h : ∀ a ∈ as, Accounts blames waits (f · a)) :
    Accounts blames waits fun fuel => as.mapM (f fuel) := by
  induction as with
  | nil => exact .pure []
  | cons a as ih =>
    simp only [List.mapM_cons]
    refine (h a List.mem_cons_self).bind fun b => ?_
    refine (ih fun a' ha' => h a' (List.mem_cons_of_mem a ha')).bind fun bs => ?_
    exact .pure (b :: bs)

/-- **Steps for the categories.** -/
theorem build {f : Nat → Category → Draw τ VectorError α}
    (h : ∀ category, Accounts blames waits (f · category)) :
    Accounts blames waits fun fuel => PerCategory.build (f fuel) := by
  unfold PerCategory.build
  refine (h .smallPrimes).bind fun smallPrimes => ?_
  refine (h .largePrimes).bind fun largePrimes => ?_
  refine (h .smallComposites).bind fun smallComposites => ?_
  exact (h .largeComposites).bind fun largeComposites => .pure _

end Accounts

/-! ## §2. One number. -/

variable {inputs : Inputs} {rounds n : Nat} {category : Category}

/-- What a classification of numbers that suit their categories can complain about: that no rounds
were allowed, or a composite number without small factors. -/
inductive Blamed (inputs : Inputs) (rounds : Nat) : VectorError → Prop
  /-- No rounds were allowed. -/
  | zeroRounds : rounds = 0 → Blamed inputs rounds (.prime .zeroRounds)
  /-- A verdict on a composite number was not the one that its category wants. -/
  | mismatch {category : Category} {n : Nat} : n ∈ inputs.get category → 2 ≤ n → ¬ n.Prime →
      Passable n → Blamed inputs rounds (.mismatch category n)

/-- What a classification can wait for: a listed number that needs witnesses. -/
def Awaited (inputs : Inputs) (n : Nat) : Prop :=
  ∃ category, n ∈ inputs.get category ∧ ¬ Settled n

/-- A check with rounds fails only where its source does, and what it waits for is not settled. -/
theorem accounts_check (hrounds : rounds ≠ 0) (hmem : n ∈ inputs.get category) :
    Accounts (Blamed inputs rounds) (Awaited inputs)
      fun fuel => ((check fuel rounds n).widen .prime : Draw τ VectorError Verdict) where
  steady := (Primality.steady_check rounds n).widen _
  reaches hrun :=
    (Primality.faithful_check hrounds n _).reaches_of_ok (Draw.runIn_widen_eq_ok.1 hrun)
  error hrun := by
    obtain ⟨refusal, rfl, hcheck⟩ := Draw.runIn_widen_eq_error.1 hrun
    exact Or.inl ⟨refusal, rfl, (Primality.faithful_check hrounds n _).refuses_of_error hcheck⟩
  endless hendless := by
    have hcheck := Draw.Endless.of_widen hendless
    refine ⟨n, ⟨category, hmem, fun hsettled => ?_⟩, Primality.exists_endless_of_check hrounds hcheck⟩
    have hout := hcheck 0
    simp only [Primality.check_of_settled hrounds hsettled] at hout
    cases hout

/-- A wrong verdict on a number that suits its category is about a composite number that can pass. -/
theorem Suits.of_wrong {fuel : Nat} {session session' : Session τ} {verdict : Verdict}
    (hn : Suits category n) (h : (check fuel rounds n).runIn session = (.ok verdict, session'))
    (hwrong : verdict.probablePrime ≠ category.expectsPrime) : ¬ n.Prime ∧ Passable n := by
  cases hkind : category.expectsPrime with
  | true =>
    rw [hkind, ne_eq, Bool.not_eq_true] at hwrong
    exact ⟨Primality.not_prime_of_failed h hwrong, hn.passable hkind⟩
  | false =>
    rw [hkind, ne_eq, Bool.not_eq_false] at hwrong
    exact ⟨hn.composite hkind, Passable.of_check h hwrong⟩

/-- **A number that suits its category is accounted for.** -/
theorem accounts_classify (hmem : n ∈ inputs.get category) (hn : Suits category n) :
    Accounts (Blamed inputs rounds) (Awaited inputs)
      fun fuel => (classify fuel rounds category n : Draw τ VectorError TestVector) := by
  by_cases hrounds : rounds = 0
  · have hfail : (fun fuel => (classify fuel rounds category n : Draw τ VectorError TestVector))
        = fun _ => Draw.fail (.prime .zeroRounds) := by
      funext fuel
      rw [classify, check, if_pos hrounds]
      rfl
    rw [hfail]
    exact .fail (.zeroRounds hrounds)
  · unfold classify
    refine (accounts_check hrounds hmem).bind_of_run (fun verdict => Draw.steady_const _) ?_
    intro fuel session session' verdict hrun
    have hcheck := Draw.runIn_widen_eq_ok.1 hrun
    -- A number that is not below two has a decomposition, and the verdict carries it.
    rw [Primality.decomposition_of_check hcheck, Primality.decompose_of_two_le hn.two_le]
    dsimp only
    split
    · exact .pure _
    · next hwrong =>
      obtain ⟨hcomposite, hpass⟩ := hn.of_wrong hcheck hwrong
      exact .fail (.mismatch hmem hn.two_le hcomposite hpass)

/-! ## §3. All numbers. -/

/-- Lists whose numbers all suit their categories are accounted for. -/
theorem accounts_ofInputs (rounds : Nat)
    (hsuits : ∀ category, ∀ n ∈ inputs.get category, Suits category n) :
    Accounts (Blamed inputs rounds) (Awaited inputs)
      fun fuel => (TestVectors.ofInputs fuel rounds inputs : Draw τ VectorError TestVectors) := by
  unfold TestVectors.ofInputs
  refine .build fun category => ?_
  unfold classifyList
  have hlist : Accounts (Blamed inputs rounds) (Awaited inputs) fun fuel =>
      (inputs.get category).mapM (classify fuel rounds category : Nat → Draw τ VectorError _) :=
    .mapM fun n hn => accounts_classify hn (hsuits category n hn)
  exact hlist.bind fun vectors => (Accounts.note _).bind fun _ => .pure vectors

/-- The classification from `session` has no end, because the source serves numbers that are too large
for a witness of one of the listed numbers, for ever. -/
def Stuck (inputs : Inputs) (rounds : Nat) (session : Session τ) : Prop :=
  Endless (fun fuel => TestVectors.ofInputs fuel rounds inputs) session
    ∧ ∃ n, Awaited inputs n ∧ ∃ mid : Session τ, Reaches session.source mid.source
      ∧ Endless (fun fuel => randomBelow fuel (n - 3)) mid

/-- **Made-up lists are accepted.**  If their numbers are primes or multiples of smaller primes of the
table, every classification with at least one round and a source that refuses nothing makes as many
vectors for each category as numbers were asked for, or it is stuck in the draw of a witness.  Whatever
the lists are, a number that is said to be in the wrong list is composite and has no prime factor in
the table, and no number is below two. -/
theorem accepted_of_synthesize {config : Config} {fuel count bits : Nat} {session session' : Session σ}
    (h : (synthesize config fuel count bits).runIn session = (.ok inputs, session')) :
    ((∀ category, ∀ n ∈ inputs.get category,
        n.Prime ∨ ∃ r, r.Prime ∧ r < 1000 ∧ r < n ∧ r ∣ n) →
      ∀ rounds, 1 ≤ rounds → ∀ building : Session τ, NeverRefuses building.source →
        (∃ vectors after, Ends (fun fuel => TestVectors.ofInputs fuel rounds inputs) building
            (.ok vectors) after ∧ ∀ category, (vectors.get category).length = count)
          ∨ Stuck inputs rounds building)
    ∧ ∀ fuel rounds cause (building building' : Session τ),
      (TestVectors.ofInputs fuel rounds inputs).runIn building = (.error (.error cause), building') →
        (∀ category n, cause = .mismatch category n →
          n ∈ inputs.get category ∧ 1 < n ∧ ¬ n.Prime ∧ ∀ r, r.Prime → r ∣ n → 997 < r)
        ∧ ∀ category n, cause ≠ .undecomposable category n := by
  have hsuits := fun category => (suits_of_synthesize h category).2
  constructor
  · intro hplain rounds hrounds building hserve
    have haccounts := accounts_ofInputs (τ := τ) rounds hsuits
    rcases haccounts.steady.ends_or_endless building with ⟨answer, after, hends⟩ | hendless
    · obtain ⟨least, hrun⟩ := id hends
      have hlast := hrun least le_rfl
      cases answer with
      | ok vectors =>
        refine Or.inl ⟨vectors, after, hends, fun category => ?_⟩
        obtain ⟨hnumbers, -⟩ := fits_of_ofInputs hlast category
        rw [← (suits_of_synthesize h category).1, ← hnumbers, List.length_map]
      | error cause =>
        rcases haccounts.error hlast with ⟨refusal, -, hrefuse⟩ | hblame
        · exact absurd hrefuse (hserve refusal after.source)
        · -- The one number that can be complained about is not in the lists.
          cases hblame with
          | zeroRounds hzero => omega
          | @mismatch category n hmem htwo hcomposite hpass =>
            rcases hplain category n hmem with hprime | ⟨r, hr, hsmall, hlt, hdvd⟩
            · exact absurd hprime hcomposite
            · exact absurd hpass (not_passable_of_dvd hr hsmall hlt hdvd)
    · exact Or.inr ⟨hendless, haccounts.endless hendless⟩
  · intro fuel rounds cause building building' hrun
    rcases (accounts_ofInputs rounds hsuits).error hrun with ⟨refusal, rfl, -⟩ | hblame
    · exact ⟨fun category n hcause => VectorError.noConfusion hcause,
        fun category n hcause => VectorError.noConfusion hcause⟩
    · refine ⟨?_, ?_⟩
      · rintro category n rfl
        cases hblame with
        | mismatch hmem htwo hcomposite hpass =>
          exact ⟨hmem, htwo, hcomposite, fun r hr hdvd => hpass.lt_of_dvd hcomposite hr hdvd⟩
      · rintro category n rfl
        cases hblame

/-- The walk for one number of each kind looks at 2, 3 and 4. -/
theorem scan_one : (scan 4 1 1 : Draw σ PrimeError _) = pure ([2], [4]) := by
  rw [scan, scanFrom_of_settled (by decide) (Or.inl (by decide)) (by decide), if_pos (by norm_num),
    scanFrom_of_settled (by decide) (Or.inl (by decide)) (by decide), if_pos (by norm_num),
    scanFrom_of_settled (by decide) (Or.inl (by decide)) (by decide), if_neg (by norm_num)]
  rfl

/-- Lists of one number each, and their classification with witnesses from a key stream. -/
theorem accepted_of_synthesize_one :
    (synthesize ⟨2, 1, none⟩ 4 1 2).runIn (Session.start (⟨[0, 0, 0]⟩ : Tape))
        = (.ok ⟨[2], [3], [4], [9]⟩, ⟨⟨[]⟩, ⟨3, 3⟩, [found 2 1, found 2 1, found 2 1]⟩)
      ∧ NeverRefuses (KeyStream.ofSeed 7)
      ∧ (∃ vectors after, Ends (fun fuel => TestVectors.ofInputs fuel 5 ⟨[2], [3], [4], [9]⟩)
            (Session.start (KeyStream.ofSeed 7)) (.ok vectors) after
          ∧ ∀ category, (vectors.get category).length = 1)
      ∧ ∀ fuel rounds cause (building building' : Session Tape),
        (TestVectors.ofInputs fuel rounds ⟨[2], [3], [4], [9]⟩).runIn building
            = (.error (.error cause), building') →
          ∀ category n, cause ≠ .undecomposable category n := by
  have hthree (rest : List UInt8) (meter : Meter) (events : List Log.Event) :
      (probablePrime ⟨2, 1, none⟩ 4 2).runIn (⟨⟨0 :: rest⟩, meter, events⟩ : Session Tape)
        = (.ok 3, ⟨⟨rest⟩, meter.add 1, events ++ [found 2 1]⟩) :=
    runIn_probablePrime_of_byte (by decide) (by decide) (by decide) (by decide) (by norm_num)
  have hrun : (synthesize ⟨2, 1, none⟩ 4 1 2).runIn (Session.start (⟨[0, 0, 0]⟩ : Tape))
      = (.ok ⟨[2], [3], [4], [9]⟩, ⟨⟨[]⟩, ⟨3, 3⟩, [found 2 1, found 2 1, found 2 1]⟩) := by
    have hfactors : factorBits 2 = 2 := rfl
    rw [synthesize, scan_one, pure_bind, Session.start]
    simp only [drawLarge, semiprime, hfactors, bind_assoc]
    rw [Draw.runIn_bind_of_ok (hthree _ _ _), Draw.runIn_bind_of_ok (hthree _ _ _),
      Draw.runIn_bind_of_ok (hthree _ _ _)]
    rfl
  have hserve : NeverRefuses (KeyStream.ofSeed 7) :=
    NeverRefuses.of_fill (fun count stream => ⟨_, rfl⟩) _
  have hlisted (category : Category) (n : Nat)
      (hn : n ∈ (⟨[2], [3], [4], [9]⟩ : Inputs).get category) : n = 2 ∨ n = 3 ∨ n = 4 ∨ n = 9 := by
    cases category <;> simp_all [PerCategory.get]
  have hplain (category : Category) (n : Nat)
      (hn : n ∈ (⟨[2], [3], [4], [9]⟩ : Inputs).get category) :
      n.Prime ∨ ∃ r, r.Prime ∧ r < 1000 ∧ r < n ∧ r ∣ n := by
    rcases hlisted category n hn with rfl | rfl | rfl | rfl
    · exact Or.inl (by norm_num)
    · exact Or.inl (by norm_num)
    · exact Or.inr ⟨2, by norm_num, by decide, by decide, by decide⟩
    · exact Or.inr ⟨3, by norm_num, by decide, by decide, by decide⟩
  refine ⟨hrun, hserve, ?_, fun fuel rounds cause building building' hfail =>
    ((accepted_of_synthesize hrun).2 fuel rounds cause building building' hfail).2⟩
  rcases (accepted_of_synthesize hrun).1 hplain 5 (by decide) (Session.start (KeyStream.ofSeed 7))
    hserve with haccepted | ⟨-, n, ⟨category, hmem, hopen⟩, -⟩
  · exact haccepted
  · -- All the numbers are in the table, so none needs witnesses.
    refine absurd (Or.inl ?_) hopen
    rw [Primality.trialLimit]
    have := hlisted category n hmem
    omega

/-- **Not every classification of made-up lists returns**: the lists of one number each at ten bits,
made from a tape, hold 1009, and with bytes of ones its check has no end. -/
theorem endless_ofInputs_of_synthesize :
    (synthesize ⟨10, 1, none⟩ 4 1 10).runIn (Session.start (⟨[3, 241, 0, 0, 0, 0]⟩ : Tape))
        = (.ok ⟨[2], [1009], [4], [289]⟩,
          ⟨⟨[]⟩, ⟨4, 6⟩, [found 10 1, found 5 1, found 5 1]⟩)
      ∧ (∀ category, ∀ n ∈ (⟨[2], [1009], [4], [289]⟩ : Inputs).get category,
        n.Prime ∨ ∃ r, r.Prime ∧ r < 1000 ∧ r < n ∧ r ∣ n)
      ∧ NeverRefuses (⟨⟩ : Ones)
      ∧ Endless (fun fuel => TestVectors.ofInputs fuel 1 ⟨[2], [1009], [4], [289]⟩)
          (Session.start (⟨⟩ : Ones))
      ∧ ¬ ∀ config fuel count bits (session session' : Session Tape) inputs,
        (synthesize config fuel count bits).runIn session = (.ok inputs, session') →
          (∀ category, ∀ n ∈ inputs.get category,
            n.Prime ∨ ∃ r, r.Prime ∧ r < 1000 ∧ r < n ∧ r ∣ n) →
          ∀ rounds, 1 ≤ rounds → ∀ building : Session Ones, NeverRefuses building.source →
            ∃ vectors after, Ends (fun fuel => TestVectors.ofInputs fuel rounds inputs) building
                (.ok vectors) after ∧ ∀ category, (vectors.get category).length = count := by
  have hseventeen (rest : List UInt8) (meter : Meter) (events : List Log.Event) :
      (probablePrime ⟨10, 1, none⟩ 4 5).runIn (⟨⟨0 :: rest⟩, meter, events⟩ : Session Tape)
        = (.ok 17, ⟨⟨rest⟩, meter.add 1, events ++ [found 5 1]⟩) :=
    runIn_probablePrime_of_byte (by decide) (by decide) (by decide) (by decide) (by norm_num)
  have hrun : (synthesize ⟨10, 1, none⟩ 4 1 10).runIn
      (Session.start (⟨[3, 241, 0, 0, 0, 0]⟩ : Tape))
      = (.ok ⟨[2], [1009], [4], [289]⟩,
        ⟨⟨[]⟩, ⟨4, 6⟩, [found 10 1, found 5 1, found 5 1]⟩) := by
    have hfactors : factorBits 10 = 5 := rfl
    rw [synthesize, scan_one, pure_bind, Session.start]
    simp only [drawLarge, semiprime, hfactors, bind_assoc]
    rw [Draw.runIn_bind_of_ok (runIn_probablePrime_1009 3 _ _ _),
      Draw.runIn_bind_of_ok (hseventeen _ _ _), Draw.runIn_bind_of_ok (hseventeen _ _ _)]
    rfl
  have hplain (category : Category) (n : Nat)
      (hn : n ∈ (⟨[2], [1009], [4], [289]⟩ : Inputs).get category) :
      n.Prime ∨ ∃ r, r.Prime ∧ r < 1000 ∧ r < n ∧ r ∣ n := by
    obtain rfl | rfl | rfl | rfl : n = 2 ∨ n = 1009 ∨ n = 4 ∨ n = 289 := by
      cases category <;> simp_all [PerCategory.get]
    · exact Or.inl (by norm_num)
    · exact Or.inl (by norm_num)
    · exact Or.inr ⟨2, by norm_num, by decide, by decide, by decide⟩
    · exact Or.inr ⟨17, by norm_num, by decide, by decide, by decide⟩
  have hendless : Endless (fun fuel => TestVectors.ofInputs fuel 1 ⟨[2], [1009], [4], [289]⟩)
      (Session.start (⟨⟩ : Ones)) := by
    -- The number in front of 1009 is in the table and takes no witness.
    have hkind : decide (Nat.Prime 2) = Category.smallPrimes.expectsPrime :=
      decide_eq_true Nat.prime_two
    have htwo : Accepts 1 .smallPrimes 2 (Session.start (⟨⟩ : Ones)) (Session.start ⟨⟩) :=
      accepts_of_settled one_ne_zero (Or.inl (by decide)) le_rfl hkind _
    refine (follows_ofInputs 1 _).endless.2 ⟨[.number .smallPrimes 2, .finished .smallPrimes 1],
      .largePrimes, 1009, _, _, rfl, .number htwo (.finished (.done _)), ?_⟩
    exact Primality.endless_check_of_ones one_ne_zero Primality.not_settled_1009 _
  refine ⟨hrun, hplain, Ones.neverRefuses _, hendless, fun hall => ?_⟩
  obtain ⟨vectors, after, hends, -⟩ :=
    hall _ _ _ _ _ _ _ hrun hplain 1 le_rfl (Session.start ⟨⟩) (Ones.neverRefuses _)
  exact hends.not_endless hendless

end ProbablePrime.Vectors
