import MiniScheme.Proofs.Simulation

/-!
# What can be observed

From outside, an action shows how it ends and what it prints.  Actions that agree look the same
up to what stands for each other, and so do rows of them, each at a time of its own.  Two new
environments of the primitive functions stand for each other whatever else there is in the two
stores, so that what is evaluated in them looks the same.

Main results:

- Theorem `observeAll_alike`: rows of actions that agree one by one look the same.
- Theorem `allocateGlobal_lead`: new environments of the primitive functions stand for each
  other.
-/

namespace MiniScheme

variable {ε : Type}

/-! ## Observations -/

/-- How an action ends and what it prints. -/
structure Observation (ε : Type) where
  ending : Except (Stop ε) Value
  printed : String

/-- The store at a time, when nothing has been printed yet. -/
def Store.begin (clock : Clock) (store : Store) : Store :=
  { store with printed := #[], clock }

/-- Do an action at a time. -/
def Action.observe (clock : Clock) (action : Action ε Value) : StateM Store (Observation ε) := do
  modify (Store.begin clock)
  let ending ← action.run
  return ⟨ending, (← get).output⟩

/-- Do the actions of some items one after another, each at its time, whatever the earlier ones
end with. -/
def observeAll {α : Type} (action : α → Action ε Value) :
    List (Clock × α) → StateM Store (List (Observation ε))
  | [] => return []
  | (clock, item) :: rest => do
    let observation ← (action item).observe clock
    let observations ← observeAll action rest
    return observation :: observations

/-- Items are observed one after the other, each in the store that the one before it left. -/
theorem run_observeAll {α : Type} {action : α → Action ε Value} {clock : Clock} {item : α}
    {store after : Store} {observation : Observation ε}
    (h : ((action item).observe clock).run store = (observation, after)) (rest : List (Clock × α)) :
    ((observeAll action ((clock, item) :: rest)).run store).1 =
      observation :: ((observeAll action rest).run after).1 := by
  rw [observeAll, StateT.run_bind, h]
  rfl

/-- Observations that are the same up to what stands for each other. -/
structure Observation.Alike (variation : Variation) (errors : ε → ε → Prop) (world : World)
    (left right : Observation ε) : Prop where
  ending : EndAlike (Value.Matches variation world) errors left.ending right.ending
  printed : TextAlike variation left.printed right.printed

variable {variation : Variation} {errors : ε → ε → Prop} {before : Twins}

/-- Observations that are alike are so in a later world. -/
theorem Observation.Alike.mono {world after : World} (h : world.Within after)
    {left right : Observation ε} (hobservation : left.Alike variation errors world right) :
    left.Alike variation errors after right where
  ending := hobservation.ending.mono (fun _ _ hvalue => hvalue.mono h) fun _ _ herror => herror
  printed := hobservation.printed

/-- The twins at two times, when nothing has been printed yet. -/
def Twins.begin (twins : Twins) (clock clock' : Clock) : Twins :=
  ⟨twins.world, twins.left.begin clock, twins.right.begin clock'⟩

/-- Setting the clocks and emptying what was printed leaves the world as it is. -/
theorem Twins.follows_begin (twins : Twins) (clock clock' : Clock) :
    twins.Follows (twins.begin clock clock') where
  symbols := refl_of _ twins.symbols
  objects := refl_of _ twins.objects
  environments := refl_of _ twins.environments
  scope _ := rfl
  others _ _ _ := rfl

/-- Twins whose clocks may differ where time does not matter begin soundly. -/
theorem Twins.Coherent.begin (h : before.Coherent variation) {clock clock' : Clock}
    (hclock : variation.timed → clock = clock') :
    (before.begin clock clock').Sound variation where
  symbols := h.symbols
  objects := h.objects
  environments := h.environments
  environment := h.environment
  printed := .nil
  clock := hclock

/-! ## Work on corresponding stores -/

/-- Two ways to work on corresponding stores that find related results and leave corresponding
stores. -/
inductive Twins.Lead {α β : Type} (variation : Variation) (related : World → α → β → Prop)
    (left : StateM Store α) (right : StateM Store β) (before : Twins) : Prop
  | intro (after : Twins) {result : α} {result' : β}
    (left : left.run before.left = (result, after.left))
    (right : right.run before.right = (result', after.right)) (follows : before.Follows after)
    (coherent : after.Coherent variation) (related : related after.world result result')

namespace Twins.Lead

variable {α β γ ζ : Type} {related : World → γ → ζ → Prop}

/-- Twins that are led on stay coherent, in some later world. -/
theorem exists_world {left : StateM Store γ} {right : StateM Store ζ}
    (h : Lead variation related left right before) :
    ∃ world, before.Follows ⟨world, (left.run before.left).2, (right.run before.right).2⟩ ∧
      Coherent variation ⟨world, (left.run before.left).2, (right.run before.right).2⟩ ∧
      related world (left.run before.left).1 (right.run before.right).1 := by
  cases h with
  | intro after hleft hright hfollows hcoherent hresult =>
    rw [hleft, hright]
    exact ⟨after.world, hfollows, hcoherent, hresult⟩

/-- Giving related results leads twins nowhere. -/
theorem pure (h : before.Coherent variation) {result : γ} {result' : ζ}
    (hresult : related before.world result result') :
    Lead variation related (pure result) (pure result') before :=
  .intro before rfl rfl (refl_of _ before) h hresult

/-- What leads twins on may be followed by what leads them on from there. -/
theorem bind (between : World → α → β → Prop) {left : StateM Store α} {right : StateM Store β}
    {next : α → StateM Store γ} {next' : β → StateM Store ζ}
    (h : Lead variation between left right before)
    (hnext : ∀ after result result', before.Follows after → after.Coherent variation →
      between after.world result result' →
      Lead variation related (next result) (next' result') after) :
    Lead variation related (left >>= next) (right >>= next') before := by
  cases h with
  | intro middle hleft hright hmiddle hcoherent hresult =>
    cases hnext middle _ _ hmiddle hcoherent hresult with
    | intro after hleft' hright' hafter hcoherent' hresult' =>
      refine .intro after ?_ ?_ (trans_of _ hmiddle hafter) hcoherent' hresult'
      · rw [StateT.run_bind, hleft]
        exact hleft'
      · rw [StateT.run_bind, hright]
        exact hright'

end Twins.Lead

/-- An action is observed from nothing printed on, at the time of the clock. -/
theorem Action.run_observe {clock : Clock} {action : Action ε Value} {store after : Store}
    {ending : Except (Stop ε) Value} (h : action.runOn (store.begin clock) = (ending, after)) :
    (action.observe clock).run store = (⟨ending, after.output⟩, after) := by
  have hrun : (action.observe clock).run store =
      (⟨(action.runOn (store.begin clock)).1, (action.runOn (store.begin clock)).2.output⟩,
        (action.runOn (store.begin clock)).2) :=
    rfl
  rw [hrun, h]

/-- Actions that agree look the same. -/
theorem observe_alike (h : before.Coherent variation) {clock clock' : Clock}
    (hclock : variation.timed → clock = clock') {left right : Action ε Value}
    (hagree : ∀ after, before.Follows after → after.Sound variation →
      left.Agree variation (Value.Matches variation) errors right after) :
    Twins.Lead variation (Observation.Alike variation errors) (left.observe clock)
      (right.observe clock') before := by
  have hbegin := before.follows_begin clock clock'
  cases hagree _ hbegin (h.begin hclock) with
  | intro after hleft hright hfollows hsound hends =>
    exact .intro after (Action.run_observe hleft) (Action.run_observe hright)
      (trans_of _ hbegin hfollows) hsound.toCoherent ⟨hends, hsound.output⟩

/-- So do rows of actions that agree one by one, at times that are the same on both sides if they
may be asked for. -/
theorem observeAll_alike (h : before.Coherent variation) {α β : Type} {related : α → β → Prop}
    {action : α → Action ε Value} {action' : β → Action ε Value} {timed : List (Clock × α)}
    {timed' : List (Clock × β)}
    (hitems : List.Forall₂ related (timed.map Prod.snd) (timed'.map Prod.snd))
    (hclock : variation.timed → timed.map Prod.fst = timed'.map Prod.fst)
    (haction : ∀ item item' after, related item item' → before.Follows after →
      after.Sound variation →
      (action item).Agree variation (Value.Matches variation) errors (action' item') after) :
    Twins.Lead variation (fun world => List.Forall₂ (Observation.Alike variation errors world))
      (observeAll action timed) (observeAll action' timed') before := by
  induction timed generalizing before timed' with
  | nil =>
    cases timed' with
    | nil => exact .pure h .nil
    | cons => cases hitems
  | cons entry timed ih =>
    cases timed' with
    | nil => cases hitems
    | cons entry' timed' =>
      simp only [List.map_cons, List.forall₂_cons, List.cons.injEq] at hitems hclock
      apply Twins.Lead.bind _ (observe_alike h (fun htimed => (hclock htimed).1)
        fun after => haction entry.2 entry'.2 after hitems.1)
      intro middle observation observation' hmiddle hcoherent hobservation
      apply Twins.Lead.bind fun world => List.Forall₂ (Observation.Alike variation errors world)
      · refine ih hcoherent hitems.2 (fun htimed => (hclock htimed).2) ?_
        exact fun item item' after hrelated hafter =>
          haction item item' after hrelated (trans_of _ hmiddle hafter)
      · intro after observations observations' hafter hcoherent hobservations
        exact .pure hcoherent (.cons (hobservation.mono hafter.within) hobservations)

/-! ## New evaluators -/

/-- Only the primitive function of that name asks for the time. -/
theorem eq_time_of_readsClock :
    ∀ primitive ∈ primitives, primitive.2.readsClock = true → primitive.1 = "time" := by
  decide

/-- The primitive functions correspond, except for the one that asks for the time if that is not
allowed. -/
theorem Table.Agree.insert_primitives {world : World} {procedures : List (String × Procedure)}
    (htime : ∀ procedure ∈ procedures, procedure.2.readsClock = true → procedure.1 = "time")
    {first first' : Nat}
    (hobjects : world.objects.InOrder first first' procedures.length) {left right : Table Value}
    (h : Table.Agree (Value.Matches variation world) variation.globalScope left right) :
    Table.Agree (Value.Matches variation world) variation.globalScope
      (left.insertAll (Environment.primitiveBindings first procedures))
      (right.insertAll (Environment.primitiveBindings first' procedures)) := by
  induction procedures generalizing first first' left right with
  | nil => exact h
  | cons primitive procedures ih =>
    rw [List.forall_mem_cons] at htime
    refine ih htime.2 hobjects.tail ?_
    by_cases hclock : primitive.2.readsClock = true → variation.timed
    · have hfunction : Function.Matches variation world
          (.primitive first primitive.1 primitive.2) (.primitive first' primitive.1 primitive.2) :=
        .primitive hobjects.head hclock
      exact h.insert_same (fun _ _ hscope => hscope.1) _ (.function hfunction)
    · rw [Classical.not_imp] at hclock
      apply h.insert_hidden
      rintro found _ ⟨rfl, hfound⟩
      have hne : found ≠ primitive.1 := by
        rw [htime.1 hclock.1]
        exact fun heq => hclock.2 (hfound heq)
      exact ⟨hne, hne⟩

/-- The twins with a new environment of the primitive functions on either side. -/
def Twins.allocateGlobal (variation : Variation) (twins : Twins) : Twins :=
  (twins.give 0 primitives.length).allocate variation.globalScope
    (.global twins.left.nextObject) (.global twins.right.nextObject)

/-- The environments of primitive functions match where the functions are paired in order. -/
theorem Environment.matches_global {world : World} {first first' : Nat}
    (hobjects : world.objects.InOrder first first' primitives.length) :
    (Environment.global first).Matches variation world variation.globalScope
      (Environment.global first') where
  bindings :=
    (Table.agree_empty fun _ _ hscope => hscope.1).insert_primitives eq_time_of_readsClock hobjects
  symbols := Table.agree_empty fun _ _ heq => heq

/-- A new environment of primitive functions on both sides follows the twins. -/
theorem Twins.follows_allocateGlobal (h : before.Coherent variation) :
    before.Follows (before.allocateGlobal variation) :=
  trans_of _ (before.follows_give 0 primitives.length)
    (Twins.follows_allocate (h.give 0 primitives.length).environments _ _ _)

/-- A new environment of primitive functions on both sides keeps twins coherent. -/
theorem Twins.Coherent.allocateGlobal (h : before.Coherent variation) :
    (before.allocateGlobal variation).Coherent variation :=
  (h.give 0 primitives.length).allocate
    (Environment.matches_global (before.objects.inOrder_add primitives.length))

/-- A new environment of primitive functions on both sides is one at the top. -/
theorem Twins.atTop_allocateGlobal (twins : Twins) :
    (twins.allocateGlobal variation).world.AtTop variation twins.left.environments.size
      twins.right.environments.size where
  pair := Twins.environments_allocate (twins.give 0 primitives.length) _ _ _
  scope := Twins.scope_allocate (twins.give 0 primitives.length) _ _ _

/-- New environments of the primitive functions stand for each other. -/
theorem allocateGlobal_lead (h : before.Coherent variation) :
    Twins.Lead variation (World.AtTop variation) Store.allocateGlobal Store.allocateGlobal before :=
  .intro (before.allocateGlobal variation) rfl rfl (Twins.follows_allocateGlobal h)
    h.allocateGlobal before.atTop_allocateGlobal

/-- Two stores in which nothing stands for anything in the other. -/
def Twins.strangers (left right : Store) : Twins :=
  ⟨⟨fun _ _ => False, fun _ _ => False, fun _ _ => False, fun _ => Eq⟩, left, right⟩

/-- Strangers are coherent, as nothing in one stands for anything in the other. -/
theorem Twins.coherent_strangers (left right : Store) :
    (Twins.strangers left right).Coherent variation where
  symbols := ⟨nofun, nofun⟩
  objects := ⟨nofun, nofun⟩
  environments := ⟨nofun, nofun⟩
  environment := nofun

/-- What is made in two copies of a store stands for itself. -/
theorem Twins.Follows.diagonal {store : Store} {after : Twins}
    (h : (Twins.strangers store store).Follows after) : after.world.Diagonal where
  symbols := (h.symbols.diagonal ⟨nofun, rfl⟩).eq
  objects := (h.objects.diagonal ⟨nofun, rfl⟩).eq
  environments := (h.environments.diagonal ⟨nofun, rfl⟩).eq

/-- Observations are the same if everything stands for itself. -/
theorem Observation.Alike.eq {world : World} (hworld : world.Diagonal) {timed : Prop}
    {left right : Observation ε} (h : left.Alike (.sameCode timed) Eq world right) :
    left = right := by
  rcases left with ⟨ending, printed⟩
  rcases right with ⟨ending', printed'⟩
  rcases h with ⟨hending, hprinted⟩
  have htext : printed = printed' := hprinted.eq (Variation.keepsFormals_sameCode timed)
  cases hending with
  | ok hvalue => rw [htext, hvalue.eq hworld]
  | failed herror => rw [htext, herror]
  | exhausted => rw [htext]

end MiniScheme
