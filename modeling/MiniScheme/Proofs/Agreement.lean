import MiniScheme.Proofs.Guarantee
import MiniScheme.Proofs.Twins

/-!
# Agreement of two actions

Two actions agree on corresponding stores if they end in the same way, with related values or
related errors, and leave stores that correspond again, in a world that has only grown.
Agreements are put together along the actions, like guarantees about one action.

Main results:

- Theorem `Action.Agree.bind`: actions agree if their first parts do and their second parts do
  after that.
- Theorems `Action.Agree.mapM` and `Action.Agree.foldlM`: rows of actions agree if the actions
  do one by one.
-/

namespace MiniScheme

variable {ε δ α β : Type}

/-- Two ways to end are of the same kind, with related values or related errors. -/
inductive EndAlike (values : α → β → Prop) (errors : ε → δ → Prop) :
    Except (Stop ε) α → Except (Stop δ) β → Prop
  | ok {value : α} {value' : β} (h : values value value') :
    EndAlike values errors (.ok value) (.ok value')
  | failed {error : ε} {error' : δ} (h : errors error error') :
    EndAlike values errors (.error (.failed error)) (.error (.failed error'))
  | exhausted : EndAlike values errors (.error .exhausted) (.error .exhausted)

/-- Ends that are alike are so in any wider sense. -/
theorem EndAlike.mono {values values' : α → β → Prop} {errors errors' : ε → δ → Prop}
    {left : Except (Stop ε) α} {right : Except (Stop δ) β} (h : EndAlike values errors left right)
    (hvalues : ∀ value value', values value value' → values' value value')
    (herrors : ∀ error error', errors error error' → errors' error error') :
    EndAlike values' errors' left right := by
  cases h with
  | ok h => exact .ok (hvalues _ _ h)
  | failed h => exact .failed (herrors _ _ h)
  | exhausted => exact .exhausted

namespace Action

/-- Two actions end alike and leave corresponding stores. -/
inductive Agree (variation : Variation) (values : World → α → β → Prop) (errors : ε → δ → Prop)
    (left : Action ε α) (right : Action δ β) (before : Twins) : Prop
  | intro (after : Twins) {ending : Except (Stop ε) α} {ending' : Except (Stop δ) β}
    (left : left.runOn before.left = (ending, after.left))
    (right : right.runOn before.right = (ending', after.right))
    (follows : before.Follows after) (sound : after.Sound variation)
    (ends : EndAlike (values after.world) errors ending ending')

namespace Agree

variable {variation : Variation} {values : World → α → β → Prop} {errors : ε → δ → Prop}
  {before : Twins}

/-- Giving values that belong together keeps two runs in agreement. -/
theorem pure (h : before.Sound variation) {value : α} {value' : β}
    (hvalue : values before.world value value') :
    Agree variation values errors (pure value) (pure value') before :=
  .intro before rfl rfl (refl_of _ before) h (.ok hvalue)

/-- Failing with errors that belong together keeps two runs in agreement. -/
theorem fail (h : before.Sound variation) {error : ε} {error' : δ} (herror : errors error error') :
    Agree variation values errors (fail error) (fail error') before :=
  .intro before rfl rfl (refl_of _ before) h (.failed herror)

/-- Two runs that both go on too long are in agreement. -/
theorem exhausted (h : before.Sound variation) :
    Agree variation values errors exhausted exhausted before :=
  .intro before rfl rfl (refl_of _ before) h .exhausted

/-- The same result stands for itself. -/
theorem ofExcept {values : World → α → α → Prop} {errors : ε → ε → Prop}
    (h : before.Sound variation) (hvalues : ∀ value, values before.world value value)
    (herrors : ∀ error, errors error error) (result : Except ε α) :
    Agree variation values errors (ofExcept result) (ofExcept result) before := by
  cases result with
  | ok value => exact pure h (hvalues value)
  | error error => exact fail h (herrors error)

/-- Work on the stores alone cannot fail. -/
theorem lift (after : Twins) {left : StateM Store α} {right : StateM Store β} {value : α}
    {value' : β} (hleft : left.run before.left = (value, after.left))
    (hright : right.run before.right = (value', after.right)) (hfollows : before.Follows after)
    (hsound : after.Sound variation) (hvalue : values after.world value value') :
    Agree variation values errors (liftM left) (liftM right) before := by
  refine .intro after ?_ ?_ hfollows hsound (.ok hvalue)
  · exact congrArg (fun result => (Except.ok result.1, result.2)) hleft
  · exact congrArg (fun result => (Except.ok result.1, result.2)) hright

/-- Actions agree if they go on like others that agree on later stores. -/
theorem of_runOn_eq {left left' : Action ε α} {right right' : Action δ β} {middle : Twins}
    (hleft : left.runOn before.left = left'.runOn middle.left)
    (hright : right.runOn before.right = right'.runOn middle.right)
    (hmiddle : before.Follows middle)
    (h : Agree variation values errors left' right' middle) :
    Agree variation values errors left right before := by
  cases h with
  | intro after hl hr hfollows hsound hends =>
    exact .intro after (hleft.trans hl) (hright.trans hr) (trans_of _ hmiddle hfollows) hsound hends

/-- Actions agree if their first parts do, and their second parts do after that. -/
theorem bind {γ ζ : Type} (between : World → α → β → Prop) {values : World → γ → ζ → Prop}
    {left : Action ε α} {right : Action δ β} {next : α → Action ε γ} {next' : β → Action δ ζ}
    (h : Agree variation between errors left right before)
    (hnext : ∀ after value value', before.Follows after → after.Sound variation →
      between after.world value value' →
      Agree variation values errors (next value) (next' value') after) :
    Agree variation values errors (left >>= next) (right >>= next') before := by
  cases h with
  | intro middle hl hr hfollows hsound hends =>
    have hleft := runOn_bind left next before.left
    have hright := runOn_bind right next' before.right
    rw [hl] at hleft
    rw [hr] at hright
    cases hends with
    | ok hvalue =>
      exact of_runOn_eq hleft hright hfollows (hnext middle _ _ hfollows hsound hvalue)
    | failed herror => exact .intro middle hleft hright hfollows hsound (.failed herror)
    | exhausted => exact .intro middle hleft hright hfollows hsound .exhausted

variable {γ ζ : Type} {items : List γ} {items' : List ζ} {related : γ → ζ → Prop}

/-- Rows of actions find related values if the actions do one by one. -/
theorem mapM {action : γ → Action ε α} {action' : ζ → Action δ β} (h : before.Sound variation)
    (hstable : ∀ {world after : World} {value value'}, world.Within after →
      values world value value' → values after value value')
    (hitems : List.Forall₂ related items items')
    (haction : ∀ item item' after, related item item' → before.Follows after →
      after.Sound variation → Agree variation values errors (action item) (action' item') after) :
    Agree variation (fun world => List.Forall₂ (values world)) errors (items.mapM action)
      (items'.mapM action') before := by
  induction hitems generalizing before with
  | nil => exact pure h .nil
  | cons hitem _ ih =>
    rw [List.mapM_cons, List.mapM_cons]
    apply bind values (haction _ _ before hitem (refl_of _ before) h)
    intro middle value value' hmiddle hsound hvalue
    apply bind fun world => List.Forall₂ (values world)
    · refine ih hsound fun item item' after hrelated hafter => ?_
      exact haction item item' after hrelated (trans_of _ hmiddle hafter)
    · intro after results results' hafter hsound hresults
      exact pure hsound (.cons (hstable hafter.within hvalue) hresults)

/-- The last values of two rows of actions are related if the actions agree one by one. -/
theorem foldlM {action : α → γ → Action ε α} {action' : β → ζ → Action δ β}
    (h : before.Sound variation) {first : α} {first' : β}
    (hfirst : values before.world first first') (hitems : List.Forall₂ related items items')
    (haction : ∀ item item' after value value', related item item' → before.Follows after →
      after.Sound variation → values after.world value value' →
      Agree variation values errors (action value item) (action' value' item') after) :
    Agree variation values errors (items.foldlM action first) (items'.foldlM action' first')
      before := by
  induction hitems generalizing before first first' with
  | nil => exact pure h hfirst
  | cons hitem _ ih =>
    rw [List.foldlM_cons, List.foldlM_cons]
    apply bind values (haction _ _ before _ _ hitem (refl_of _ before) h hfirst)
    intro middle value value' hmiddle hsound hvalue
    refine ih hsound hvalue fun item item' after value value' hrelated hafter => ?_
    exact haction item item' after value value' hrelated (trans_of _ hmiddle hafter)

end Agree

end Action

end MiniScheme
