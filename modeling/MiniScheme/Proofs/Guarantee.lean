import MiniScheme.Evaluation.Basic
import Mathlib.Order.Defs.Unbundled

/-!
# What an action guarantees

A guarantee about an action says how the store after it follows the store before it, which
values it may end with, and which errors.  Nothing is said about an action that ends for want of
fuel, except about its store.  Guarantees are put together along the action.

Main results:

- Theorem `Action.Ensures.bind`: the guarantees of two actions make one of both in turn.
- Theorems `Action.Ensures.mapM` and `Action.Ensures.foldlM`: so do those of a row of actions.
-/

namespace MiniScheme

namespace Action

variable {ε α β γ : Type}

/-! ## Runs -/

/-- The second of two actions goes on where the first one ended with a value. -/
theorem runOn_bind (first : Action ε α) (next : α → Action ε β) (store : Store) :
    (first >>= next).runOn store =
      match first.runOn store with
      | (.ok value, after) => (next value).runOn after
      | (.error stop, after) => (.error stop, after) := by
  unfold runOn
  rw [ExceptT.run_bind, StateT.run_bind]
  cases h : first.run.run store with
  | mk result after =>
    cases result <;> rfl

/-- Work on the store alone is done part by part. -/
theorem lift_bind (first : StateM Store α) (next : α → StateM Store β) :
    (liftM (first >>= next) : Action ε β) = liftM first >>= fun value => liftM (next value) :=
  rfl

/-! ## Guarantees -/

/-- The action leaves a store that follows the one that it starts on, and ends with a value that
is good in it or with an error that is admitted. -/
structure Ensures (follows : Store → Store → Prop) (good : α → Store → Prop) (admits : ε → Prop)
    (action : Action ε α) (store : Store) : Prop where
  follows : follows store (action.runOn store).2
  good : ∀ value, (action.runOn store).1 = .ok value → good value (action.runOn store).2
  admits : ∀ error, (action.runOn store).1 = .error (.failed error) → admits error

namespace Ensures

variable {follows : Store → Store → Prop} [IsPreorder Store follows]
  {good : α → Store → Prop} {admits : ε → Prop} {store : Store}

/-- Giving a good value keeps any guarantee. -/
theorem pure {value : α} (h : good value store) :
    Ensures follows good admits (pure value) store where
  follows := refl_of follows store
  good := by
    rintro _ ⟨⟩
    exact h
  admits := by rintro _ ⟨⟩

/-- Failing with an error that is admitted keeps any guarantee. -/
theorem fail {error : ε} (h : admits error) :
    Ensures follows good admits (fail error) store where
  follows := refl_of follows store
  good := by rintro _ ⟨⟩
  admits := by
    rintro _ ⟨⟩
    exact h

/-- Going on too long keeps any guarantee. -/
theorem exhausted : Ensures follows good admits exhausted store where
  follows := refl_of follows store
  good := by rintro _ ⟨⟩
  admits := by rintro _ ⟨⟩

/-- A result that is good, or an error that is admitted, keeps any guarantee. -/
theorem ofExcept {result : Except ε α} (hgood : ∀ value, result = .ok value → good value store)
    (hadmits : ∀ error, result = .error error → admits error) :
    Ensures follows good admits (ofExcept result) store := by
  cases result with
  | ok value => exact pure (hgood value rfl)
  | error error => exact fail (hadmits error rfl)

omit [IsPreorder Store follows] in
/-- Work on the store alone cannot fail. -/
theorem lift {action : StateM Store α} (hfollows : follows store (action.run store).2)
    (hgood : good (action.run store).1 (action.run store).2) :
    Ensures follows good admits (liftM action) store where
  follows := hfollows
  good := by
    rintro _ ⟨⟩
    exact hgood
  admits := by rintro _ ⟨⟩

omit [IsPreorder Store follows] in
/-- A guarantee implies a weaker one. -/
theorem mono {follows' : Store → Store → Prop} {good' : α → Store → Prop} {admits' : ε → Prop}
    {action : Action ε α} (h : Ensures follows good admits action store)
    (hfollows : ∀ after, follows store after → follows' store after)
    (hgood : ∀ value after, follows store after → good value after → good' value after)
    (hadmits : ∀ error, admits error → admits' error) :
    Ensures follows' good' admits' action store where
  follows := hfollows _ h.follows
  good value hvalue := hgood value _ h.follows (h.good value hvalue)
  admits error herror := hadmits error (h.admits error herror)

/-- An action that goes on like another one from a later store ends like that one. -/
theorem of_runOn_eq {action other : Action ε α} {later : Store}
    (hrun : action.runOn store = other.runOn later) (hlater : follows store later)
    (h : Ensures follows good admits other later) : Ensures follows good admits action store where
  follows := hrun ▸ trans_of follows hlater h.follows
  good := hrun ▸ h.good
  admits := hrun ▸ h.admits

/-- The second of two actions may rely on what the first one guarantees. -/
theorem bind (between : α → Store → Prop) {good : β → Store → Prop} {first : Action ε α}
    {next : α → Action ε β} (h : Ensures follows between admits first store)
    (hnext : ∀ value after, follows store after → between value after →
      Ensures follows good admits (next value) after) :
    Ensures follows good admits (first >>= next) store := by
  obtain ⟨hfollows, hgood, hadmits⟩ := h
  have hrun := runOn_bind first next store
  cases hfirst : first.runOn store with
  | mk result after =>
    rw [hfirst] at hrun hfollows hgood hadmits
    cases result with
    | ok value =>
      have hrest := hnext value after hfollows (hgood value rfl)
      constructor <;> rw [hrun]
      · exact trans_of follows hfollows hrest.follows
      · exact hrest.good
      · exact hrest.admits
    | error stop =>
      constructor <;> rw [hrun]
      · exact hfollows
      · rintro _ ⟨⟩
      · rintro error ⟨⟩
        exact hadmits error rfl

/-- Values that are found one after another are good in the end if a good value stays good. -/
theorem mapM {action : γ → Action ε α} (items : List γ)
    (hstable : ∀ value before after, follows before after → good value before → good value after)
    (h : ∀ item ∈ items, ∀ before, follows store before →
      Ensures follows good admits (action item) before) :
    Ensures follows (fun values after => ∀ value ∈ values, good value after) admits
      (items.mapM action) store := by
  induction items generalizing store with
  | nil => exact pure (by simp)
  | cons item items ih =>
    rw [List.mapM_cons]
    apply bind good (h item List.mem_cons_self store (refl_of follows store))
    intro value middle hmiddle hvalue
    refine bind _ (ih fun other hother before hbefore => ?_) fun values after hafter hvalues => ?_
    · exact h other (List.mem_cons_of_mem item hother) before (trans_of follows hmiddle hbefore)
    · exact pure (List.forall_mem_cons.2 ⟨hstable value middle after hafter hvalue, hvalues⟩)

/-- The last of a row of values is good if each of them is. -/
theorem foldlM {action : α → γ → Action ε α} (items : List γ) {first : α}
    (hfirst : good first store)
    (h : ∀ item ∈ items, ∀ value before, follows store before → good value before →
      Ensures follows good admits (action value item) before) :
    Ensures follows good admits (items.foldlM action first) store := by
  induction items generalizing first store with
  | nil => exact pure hfirst
  | cons item items ih =>
    rw [List.foldlM_cons]
    apply bind good (h item List.mem_cons_self first store (refl_of follows store) hfirst)
    intro value middle hmiddle hvalue
    refine ih hvalue fun other hother value before hbefore => ?_
    exact h other (List.mem_cons_of_mem item hother) value before
      (trans_of follows hmiddle hbefore)

end Ensures

end Action

end MiniScheme
