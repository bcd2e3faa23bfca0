import MiniScheme.Proofs.Observation
import MiniScheme.Session

/-!
# Evaluators in one process

Evaluators share the counters from which symbols, cells, functions and environments get their
numbers, and nothing else.  Two of them take turns at running sources.  For each evaluator there
is a world in which the store that they share corresponds to the store of this evaluator when it
is alone.  A turn of one evaluator makes its world grow, and leaves alone the environments that
the world of the other one is about.

Main results:

- Theorem `Isolated.of_follows`: a turn of one evaluator does not disturb the other one.
- Theorem `takeTurns_alike`: in any order of turns each evaluator shows what it shows alone.
- Theorem `takeTurns_isolated`: so it does at other times, if its sources do not use the time.
-/

namespace MiniScheme

/-! ## Turns -/

/-- One of two evaluators. -/
inductive Party
  | first
  | second
deriving DecidableEq

/-- A run of a source by one of the evaluators at a time. -/
structure Turn where
  party : Party
  clock : Clock
  source : String

/-- The turns of one evaluator, as times and sources. -/
def Turn.ofParty (party : Party) (turns : List Turn) : List (Clock × String) :=
  (turns.filter fun turn => turn.party = party).map fun turn => (turn.clock, turn.source)

/-- Make two evaluators: each has an environment of the primitive functions. -/
def makeEvaluators : StateM Store (Party → EnvironmentId) := do
  let first ← Store.allocateGlobal
  let second ← Store.allocateGlobal
  return fun
    | .first => first
    | .second => second

/-- Run the sources of both evaluators in the order of the turns. -/
def takeTurns (fuel : Nat) (environment : Party → EnvironmentId) :
    List Turn → StateM Store (List (Party × Observation RunError))
  | [] => return []
  | turn :: turns => do
    let observation ← (run fuel (environment turn.party) turn.source).observe turn.clock
    let observations ← takeTurns fuel environment turns
    return (turn.party, observation) :: observations

/-- What is observed of one of the evaluators. -/
def observationsOf (party : Party) (observations : List (Party × Observation RunError)) :
    List (Observation RunError) :=
  (observations.filter fun observation => observation.1 = party).map Prod.snd

/-- Make an evaluator and run sources with it alone, each at its time. -/
def runAlone (fuel : Nat) (timed : List (Clock × String)) :
    StateM Store (List (Observation RunError)) := do
  let id ← Store.allocateGlobal
  observeAll (run fuel id) timed

/-! ## Runs -/

variable {variation : Variation} {before : Twins}

/-- Runs end alike if evaluation does. -/
theorem endAlike_runResult {values : Value → Value → Prop} (errors : List SyntaxError)
    {left right : Except (Stop EvalError) Value} (h : EndAlike values Eq left right) :
    EndAlike values Eq (runResult errors left) (runResult errors right) := by
  cases h with
  | ok hvalue =>
    cases errors with
    | nil => exact .ok hvalue
    | cons => exact .failed rfl
  | failed herror =>
    subst herror
    cases errors <;> exact .failed rfl
  | exhausted => exact .exhausted

/-- A run ends as the evaluation of its program does, with the errors of reading. -/
theorem run_runOn (fuel : Nat) (id : EnvironmentId) (source : String) {store after : Store}
    {ending : Except (Stop EvalError) Value}
    (h : (evaluateProgram fuel id (readSource source).1).runOn store = (ending, after)) :
    (run fuel id source).runOn store = (runResult (readSource source).2 ending, after) := by
  rw [run_eq, h]

/-- Runs of a source in environments that stand for each other end alike. -/
theorem run_agree (hformals : variation.KeepsFormals) (h : before.Sound variation)
    {id other : EnvironmentId} (htop : before.world.AtTop variation id other) (fuel : Nat)
    {source : String}
    (hsource : Program.Alike variation (readSource source).1 (readSource source).1) :
    (run fuel id source).Agree variation (Value.Matches variation) Eq (run fuel other source)
      before := by
  cases evaluateProgram_agree fuel h htop hsource with
  | intro after hleft hright hfollows hsound hends =>
    refine .intro after (run_runOn fuel id source hleft) (run_runOn fuel other source hright)
      hfollows hsound (endAlike_runResult _ ?_)
    exact hends.mono (fun _ _ hvalue => hvalue) fun _ _ herror => herror.eq hformals

/-! ## Isolation -/

/-- The store that the evaluators share corresponds to that of each of them alone, in worlds
about different environments. -/
structure Isolated (variation : Variation) (environment own : Party → EnvironmentId)
    (store : Store) (worlds : Party → World) (alone : Party → Store) : Prop where
  coherent : ∀ party, Twins.Coherent variation ⟨worlds party, store, alone party⟩
  atTop : ∀ party, (worlds party).AtTop variation (environment party) (own party)
  disjoint : ∀ {party other}, party ≠ other → ∀ {id a b}, (worlds party).environments id a →
    ¬(worlds other).environments id b

variable {environment own : Party → EnvironmentId} {store : Store} {worlds : Party → World}
  {alone : Party → Store}

/-- A turn of one evaluator does not disturb the other one. -/
theorem Isolated.of_follows (h : Isolated variation environment own store worlds alone)
    {party : Party} {after : Twins}
    (hfollows : Twins.Follows ⟨worlds party, store, alone party⟩ after)
    (hcoherent : after.Coherent variation) :
    Isolated variation environment own after.left (Function.update worlds party after.world)
      (Function.update alone party after.right) where
  coherent := by
    intro other
    by_cases hparty : other = party
    · subst hparty
      simpa using hcoherent
    · simp only [Function.update_of_ne hparty]
      refine (h.coherent other).of_left hfollows.symbols.left_le hfollows.objects.left_le
        hfollows.environments.left_le fun {id _} hpair => ?_
      have hlt : id < store.environments.size := ((h.coherent other).environments.lt hpair).1
      exact hfollows.others id hlt fun _ => h.disjoint hparty hpair
  atTop := by
    intro other
    by_cases hparty : other = party
    · subst hparty
      simpa using (h.atTop other).mono hfollows.within
    · simpa [Function.update_of_ne hparty] using h.atTop other
  disjoint := by
    -- what is new in the world of the turn's evaluator was not there before the turn
    have hnew : ∀ {other}, other ≠ party → ∀ {id a b}, (worlds other).environments id a →
        ¬after.world.environments id b := by
      intro other hother id a b hpair hafter
      have hlt : id < store.environments.size := ((h.coherent other).environments.lt hpair).1
      exact h.disjoint hother hpair (hfollows.environments.pairing_of_lt hafter hlt)
    intro one other hne id a b hone hother
    by_cases hfirst : one = party
    · subst hfirst
      rw [Function.update_self] at hone
      rw [Function.update_of_ne (Ne.symm hne)] at hother
      exact hnew (Ne.symm hne) hother hone
    · rw [Function.update_of_ne hfirst] at hone
      by_cases hsecond : other = party
      · subst hsecond
        rw [Function.update_self] at hother
        exact hnew hfirst hone hother
      · rw [Function.update_of_ne hsecond] at hother
        exact h.disjoint hne hone hother

/-- Turns are taken one after the other, each in the store that the one before it left. -/
theorem run_takeTurns {fuel : Nat} {turn : Turn} {after : Store}
    {observation : Observation RunError}
    (h : ((run fuel (environment turn.party) turn.source).observe turn.clock).run store =
      (observation, after)) (turns : List Turn) :
    ((takeTurns fuel environment (turn :: turns)).run store).1 =
      (turn.party, observation) :: ((takeTurns fuel environment turns).run after).1 := by
  rw [takeTurns, StateT.run_bind, h]
  rfl

/-- A turn shows what the run of its source shows when its evaluator is alone. -/
theorem Isolated.turn_alike
    (h : Isolated (.sameCode True) environment own store worlds alone) (fuel : Nat)
    (turn : Turn) :
    Twins.Lead (.sameCode True) (Observation.Alike (.sameCode True) Eq)
      ((run fuel (environment turn.party) turn.source).observe turn.clock)
      ((run fuel (own turn.party) turn.source).observe turn.clock)
      ⟨worlds turn.party, store, alone turn.party⟩ := by
  refine observe_alike (h.coherent turn.party) (fun _ => rfl) fun after hafter hsound => ?_
  apply run_agree (Variation.keepsFormals_sameCode True) hsound
    ((h.atTop turn.party).mono hafter.within)
  exact Program.alike_self (Variation.allowsSame_sameCode True) _ fun _ => trivial

/-- In any order of turns each evaluator shows what it shows alone at the same times. -/
theorem takeTurns_alike (fuel : Nat) (turns : List Turn)
    (h : Isolated (.sameCode True) environment own store worlds alone) :
    ∃ worlds' : Party → World, ∀ party, (worlds party).Within (worlds' party) ∧
      (worlds' party).OneToOne ∧
      List.Forall₂ (Observation.Alike (.sameCode True) Eq (worlds' party))
        (observationsOf party ((takeTurns fuel environment turns).run store).1)
        ((observeAll (run fuel (own party)) (Turn.ofParty party turns)).run (alone party)).1 := by
  induction turns generalizing store worlds alone with
  | nil => exact ⟨worlds, fun party => ⟨refl_of _ _, (h.coherent party).oneToOne, .nil⟩⟩
  | cons turn turns ih =>
    cases h.turn_alike fuel turn with
    | intro middle hleft hright hmiddle hcoherent hobservation =>
      rcases ih (h.of_follows hmiddle hcoherent) with ⟨worlds', hworlds'⟩
      refine ⟨worlds', fun party => ?_⟩
      rcases hworlds' party with ⟨hwithin, honeToOne, hobservations⟩
      rw [run_takeTurns hleft]
      by_cases hparty : turn.party = party
      · subst hparty
        rw [Function.update_self] at hwithin hobservations
        refine ⟨trans_of _ hmiddle.within hwithin, honeToOne, ?_⟩
        have hturns : Turn.ofParty turn.party (turn :: turns) =
            (turn.clock, turn.source) :: Turn.ofParty turn.party turns := by
          simp [Turn.ofParty]
        rw [hturns, run_observeAll hright]
        simp only [observationsOf, List.filter_cons, decide_true, if_true, List.map_cons]
        exact .cons (hobservation.mono hwithin) hobservations
      · rw [Function.update_of_ne (Ne.symm hparty)] at hwithin hobservations
        have hturns : Turn.ofParty party (turn :: turns) = Turn.ofParty party turns := by
          simp [Turn.ofParty, hparty]
        refine ⟨hwithin, honeToOne, ?_⟩
        rw [hturns]
        simpa [observationsOf, hparty] using hobservations

/-! ## Two new evaluators -/

/-- Two new evaluators are isolated from each other, whatever else there is in their store and in
the store of an evaluator that is alone. -/
theorem isolated_makeEvaluators (variation : Variation) (store alone : Store) :
    ∃ worlds, Isolated variation (makeEvaluators.run store).1 (fun _ => alone.environments.size)
      (makeEvaluators.run store).2 worlds (fun _ => (Store.allocateGlobal.run alone).2) := by
  let middle := (Store.allocateGlobal.run store).2
  let first := (Twins.strangers store alone).allocateGlobal variation
  let second := (Twins.strangers middle alone).allocateGlobal variation
  have hfirst : first.Coherent variation := (Twins.coherent_strangers store alone).allocateGlobal
  have hsecond : second.Coherent variation :=
    (Twins.coherent_strangers middle alone).allocateGlobal
  have hfollows : (Twins.strangers middle alone).Follows second :=
    Twins.follows_allocateGlobal (Twins.coherent_strangers middle alone)
  -- the environments of the first evaluator were there before the second one was made
  have hlt : ∀ {id other}, first.world.environments id other → id < middle.environments.size :=
    fun hpair => (hfirst.environments.lt hpair).1
  have hnone : ∀ {id a b}, first.world.environments id a → ¬second.world.environments id b :=
    fun hpair hother => hfollows.environments.pairing_of_lt hother (hlt hpair)
  refine ⟨fun | .first => first.world | .second => second.world, ?_, ?_, ?_⟩
  · intro party
    cases party with
    | first =>
      refine hfirst.of_left hfollows.symbols.left_le hfollows.objects.left_le
        hfollows.environments.left_le fun {id _} hpair => ?_
      exact hfollows.others id (hlt hpair) fun _ => not_false
    | second => exact hsecond
  · intro party
    cases party with
    | first => exact (Twins.strangers store alone).atTop_allocateGlobal
    | second => exact (Twins.strangers middle alone).atTop_allocateGlobal
  · intro party other hne id a b hpair hother
    cases party <;> cases other
    · exact hne rfl
    · exact hnone hpair hother
    · exact hnone hother hpair
    · exact hne rfl

/-- What is observed of some sources, run by an evaluator alone, does not depend on the times at
which they are run. -/
def IgnoreTime (fuel : Nat) (sources : List String) : Prop :=
  ∀ (store : Store) (timed timed' : List (Clock × String)), timed.map Prod.snd = sources →
    timed'.map Prod.snd = sources →
    ((runAlone fuel timed).run store).1 = ((runAlone fuel timed').run store).1

/-- Sources ignore the time if none of them has the name of the function that asks for it. -/
theorem ignoreTime_of_names {sources : List String}
    (h : ∀ source ∈ sources, "time" ∉ Program.names (readSource source).1) (fuel : Nat) :
    IgnoreTime fuel sources := by
  intro store timed timed' htimed htimed'
  have hsources : List.Forall₂ (fun source source' => source ∈ sources ∧ source = source')
      (timed.map Prod.snd) (timed'.map Prod.snd) := by
    rw [htimed, htimed', List.forall₂_same]
    exact fun source hsource => ⟨hsource, rfl⟩
  have halike : Twins.Lead (.sameCode False)
      (fun world => List.Forall₂ (Observation.Alike (.sameCode False) Eq world))
      (runAlone fuel timed) (runAlone fuel timed') (Twins.strangers store store) := by
    apply Twins.Lead.bind _ (allocateGlobal_lead (Twins.coherent_strangers store store))
    intro middle id other _ hcoherent htop
    refine observeAll_alike hcoherent hsources False.elim ?_
    rintro source _ after ⟨hsource, rfl⟩ hafter hsound
    apply run_agree (Variation.keepsFormals_sameCode False) hsound (htop.mono hafter.within)
    exact Program.alike_self (Variation.allowsSame_sameCode False) _ (h source hsource)
  rcases halike.exists_world with ⟨world, hafter, _, hobservations⟩
  have hequal := hobservations.imp fun _ _ hobservation => hobservation.eq hafter.diagonal
  rwa [List.forall₂_eq_eq_eq] at hequal

/-- Observations of a run that are the same up to what stands for each other: the same error, or
values of the same text, and the same has been printed. -/
structure Observation.SameUpTo (world : World) (left right : Observation RunError) : Prop where
  ending : EndAlike (fun value value' => value.Matches (.sameCode True) world value' ∧
    value.text = value'.text) Eq left.ending right.ending
  printed : left.printed = right.printed

/-- Two new evaluators take turns at running sources, in any order.  If the sources of one of
them do not use the time, then what is observed of its runs is the same, up to a renaming of
identities that is one to one, as when an evaluator runs these sources alone: in any store,
whatever identities have been given out in it, and at any times. -/
theorem takeTurns_isolated (fuel : Nat) (turns : List Turn) (party : Party)
    (htime : IgnoreTime fuel ((Turn.ofParty party turns).map Prod.snd))
    {timed : List (Clock × String)}
    (htimed : timed.map Prod.snd = (Turn.ofParty party turns).map Prod.snd)
    (store alone : Store) :
    let evaluators := makeEvaluators.run store
    ∃ world : World, world.OneToOne ∧ List.Forall₂ (Observation.SameUpTo world)
      (observationsOf party ((takeTurns fuel evaluators.1 turns).run evaluators.2).1)
      ((runAlone fuel timed).run alone).1 := by
  intro evaluators
  rcases isolated_makeEvaluators (.sameCode True) store alone with ⟨worlds, hisolated⟩
  rcases takeTurns_alike fuel turns hisolated with ⟨worlds', hworlds'⟩
  rcases hworlds' party with ⟨_, honeToOne, hobservations⟩
  refine ⟨worlds' party, honeToOne, ?_⟩
  rw [htime alone timed (Turn.ofParty party turns) htimed rfl]
  refine hobservations.imp fun left right hobservation => ⟨?_, ?_⟩
  · refine hobservation.ending.mono (fun value value' hvalue => ⟨hvalue, ?_⟩) fun _ _ heq => heq
    exact hvalue.text.eq (Variation.keepsFormals_sameCode True)
  · exact hobservation.printed.eq (Variation.keepsFormals_sameCode True)

/-- An evaluator that interns and compares symbols, prints a closure and fails, while another one
interns symbols of its own. -/
theorem takeTurns_isolated_symbols :
    let turns : List Turn :=
      [⟨.first, 3, "(define x '(a b)) (p x (lambda (y) y))"⟩,
        ⟨.second, 1, "(define x 'c) (eq? x 'c)"⟩,
        ⟨.first, 2, "(eq? (car x) 'a) (car 'c)"⟩]
    let timed : List (Clock × String) :=
      [(0, "(define x '(a b)) (p x (lambda (y) y))"), (0, "(eq? (car x) 'a) (car 'c)")]
    timed.map Prod.snd = (Turn.ofParty .first turns).map Prod.snd ∧
      ∀ fuel store alone,
        IgnoreTime fuel ((Turn.ofParty .first turns).map Prod.snd) ∧
        let evaluators := makeEvaluators.run store
        ∃ world : World, world.OneToOne ∧ List.Forall₂ (Observation.SameUpTo world)
          (observationsOf .first ((takeTurns fuel evaluators.1 turns).run evaluators.2).1)
          ((runAlone fuel timed).run alone).1 := by
  intro turns timed
  have htimed : timed.map Prod.snd = (Turn.ofParty .first turns).map Prod.snd := rfl
  have hnames : ∀ source ∈ (Turn.ofParty .first turns).map Prod.snd,
      "time" ∉ Program.names (readSource source).1 := by
    decide +kernel
  refine ⟨htimed, fun fuel store alone => ?_⟩
  have htime := ignoreTime_of_names hnames fuel
  exact ⟨htime, takeTurns_isolated fuel turns .first htime htimed store alone⟩

end MiniScheme
