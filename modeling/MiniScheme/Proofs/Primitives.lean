import MiniScheme.Procedure.Call
import MiniScheme.Proofs.Guarantee

/-!
# What the primitive functions can do

A procedure makes its result of parts of its arguments, numbers and booleans: it makes no
functions and no symbols of its own.  It leaves every environment alone, and when it fails the
error is about its arguments.

Main results:

- Theorem `Procedure.call_makes`: these guarantees for every procedure.
- Theorem `Procedure.call_ensures`: what follows for the functions in the result.
-/

namespace MiniScheme

/-! ## The functions in a value -/

mutual

/-- Every function in a value has a property. -/
def Value.EveryFunction (property : Function → Prop) : Value → Prop
  | .function function => property function
  | .list cells => cells.EveryFunction property
  | .nil | .number _ | .boolean _ | .character _ | .string _ | .symbol _ => True

/-- Every function in a list has a property. -/
def Cells.EveryFunction (property : Function → Prop) : Cells → Prop
  | .empty => True
  | .cell _ head tail => head.EveryFunction property ∧ tail.EveryFunction property

end

mutual

/-- What holds of every function of a value holds in any wider sense. -/
theorem Value.EveryFunction.mono {p q : Function → Prop} (h : ∀ function, p function → q function) :
    ∀ (value : Value), value.EveryFunction p → value.EveryFunction q
  | .function function, hvalue => h function hvalue
  | .list cells, hvalue => Cells.EveryFunction.mono h cells hvalue
  | .nil, _ | .number _, _ | .boolean _, _ | .character _, _ | .string _, _ | .symbol _, _ =>
    trivial

/-- What holds of every function of a list holds in any wider sense. -/
theorem Cells.EveryFunction.mono {p q : Function → Prop} (h : ∀ function, p function → q function) :
    ∀ (cells : Cells), cells.EveryFunction p → cells.EveryFunction q
  | .empty, _ => trivial
  | .cell _ head tail, hcells =>
    ⟨Value.EveryFunction.mono h head hcells.1, Cells.EveryFunction.mono h tail hcells.2⟩

end

/-- What holds of every function of some values holds of every function of a list of them. -/
theorem Cells.everyFunction_ofList {property : Function → Prop} (identity : Nat)
    {values : List Value} (h : ∀ value ∈ values, value.EveryFunction property) :
    (ofList identity values).EveryFunction property := by
  induction values generalizing identity with
  | nil => trivial
  | cons value values ih =>
    rw [List.forall_mem_cons] at h
    exact ⟨h.1, ih (identity + 1) h.2⟩

/-- A literal is no function. -/
theorem Value.everyFunction_ofLiteral (property : Function → Prop) (token : Token) :
    (ofLiteral token).EveryFunction property := by
  unfold ofLiteral
  split
  next constant _ => cases constant <;> trivial
  next => trivial

/-! ## Values made from others -/

/-- A property of values that a list has if and only if its values have it, and that numbers and
booleans have. -/
structure Value.Hereditary (property : Value → Prop) : Prop where
  nil : property .nil
  number : ∀ n, property (.number n)
  boolean : ∀ b, property (.boolean b)
  empty : property (.list .empty)
  cell : ∀ identity head tail,
    property (.list (.cell identity head tail)) ↔ property head ∧ property (.list tail)

/-- A value that is made of parts of some arguments, numbers and booleans. -/
def Value.IsMadeFrom (arguments : List Value) (value : Value) : Prop :=
  ∀ property, Hereditary property → (∀ argument ∈ arguments, property argument) → property value

/-- What is inherited holds of a list if it holds of its values. -/
theorem Value.Hereditary.ofList {property : Value → Prop} (h : Hereditary property)
    (identity : Nat) {values : List Value} (hvalues : ∀ value ∈ values, property value) :
    property (.list (.ofList identity values)) := by
  induction values generalizing identity with
  | nil => exact h.empty
  | cons value values ih =>
    rw [List.forall_mem_cons] at hvalues
    exact (h.cell _ _ _).2 ⟨hvalues.1, ih (identity + 1) hvalues.2⟩

/-- What holds of every function is inherited by lists. -/
theorem Value.hereditary_everyFunction (property : Function → Prop) :
    Hereditary (EveryFunction property) where
  nil := trivial
  number _ := trivial
  boolean _ := trivial
  empty := trivial
  cell _ _ _ := Iff.rfl

/-! ## Guarantees -/

/-- Nothing has happened to any environment. -/
def Store.SameEnvironments (before after : Store) : Prop :=
  after.environments = before.environments

instance : IsPreorder Store Store.SameEnvironments where
  refl _ := rfl
  trans _ _ _ hfirst hsecond := Eq.trans hsecond hfirst

/-- Nothing has happened to any environment, and no symbol has been made. -/
structure Store.SameSymbols (before after : Store) : Prop where
  environments : before.SameEnvironments after
  nextSymbol : after.nextSymbol = before.nextSymbol

instance : IsPreorder Store Store.SameSymbols where
  refl _ := ⟨rfl, rfl⟩
  trans _ _ _ hfirst hsecond :=
    ⟨trans_of _ hfirst.1 hsecond.1, hsecond.2.trans hfirst.2⟩

/-- The errors that a procedure can end with. -/
def EvalError.IsAboutArguments : EvalError → Prop
  | undefinedIdentifier _ | notCallable _ => False
  | arityMismatch .. | typeMismatch .. | emptyList _ | divisionByZero | overflow _ => True

/-- A value all of whose functions come from some arguments. -/
def Value.ComesFrom (arguments : List Value) (value : Value) : Prop :=
  ∀ property : Function → Prop, (∀ argument ∈ arguments, argument.EveryFunction property) →
    value.EveryFunction property

/-- A value that is made from arguments has all its functions from them. -/
theorem Value.IsMadeFrom.comesFrom {arguments : List Value} {value : Value}
    (h : value.IsMadeFrom arguments) : value.ComesFrom arguments :=
  fun property => h _ (hereditary_everyFunction property)

/-- An action that makes a value from some arguments. -/
abbrev Action.MakesFrom (arguments : List Value) (action : Evaluation Value) (store : Store) :
    Prop :=
  action.Ensures Store.SameSymbols (fun value _ => value.IsMadeFrom arguments)
    EvalError.IsAboutArguments store

/-- An action that finds a value in some arguments. -/
abbrev Action.SelectsFrom (arguments : List Value) (action : Evaluation Value) (store : Store) :
    Prop :=
  action.Ensures Store.SameEnvironments (fun value _ => value.ComesFrom arguments)
    EvalError.IsAboutArguments store

/-! ## Arithmetic and the kinds of arguments -/

/-- An operator fails only because of its arguments. -/
theorem Operator.isAboutArguments_of_apply {operator : Operator} {numbers : List Int64}
    {error : EvalError} (h : operator.apply numbers = .error error) : error.IsAboutArguments := by
  unfold apply at h
  simp only [bind, Except.bind] at h
  split at h
  next =>
    split at h <;> cases h
    trivial
  next =>
    split at h <;> cases h
    trivial
  next first rest =>
    cases hsum : Number.sum? rest with
    | none =>
      rw [hsum] at h
      cases h
      trivial
    | some subtrahend =>
      simp only [hsum] at h
      split at h <;> cases h
      trivial
  next first rest =>
    cases hproduct : Number.product? rest with
    | none =>
      rw [hproduct] at h
      cases h
      trivial
    | some divisor =>
      simp only [hproduct] at h
      repeat' split at h
      all_goals cases h
      all_goals trivial
  next =>
    cases h
    trivial

/-- Arguments are refused only because of themselves. -/
theorem isAboutArguments_of_readArguments {α : Type} {expected : ValueKind}
    {read? : Value → Option α} {place : Nat} {values : List Value} {error : EvalError}
    (h : readArguments expected read? place values = .error error) : error.IsAboutArguments := by
  induction values generalizing place with
  | nil => cases h
  | cons value values ih =>
    rw [readArguments] at h
    split at h
    next content _ =>
      cases hrest : readArguments expected read? (place + 1) values with
      | ok contents =>
        rw [hrest] at h
        cases h
      | error rest =>
        rw [hrest] at h
        cases h
        exact ih hrest
    next =>
      cases h
      trivial

/-- A selection fails only because of its arguments. -/
theorem Selector.isAboutArguments_of_select {selector : Selector} {cells : Cells}
    {error : EvalError} (h : selector.select cells = .error error) : error.IsAboutArguments := by
  unfold select at h
  split at h <;> cases h
  trivial

/-- A selector takes a part of the list. -/
theorem Selector.isMadeFrom_select {selector : Selector} {cells : Cells} {value : Value}
    (h : selector.select cells = .ok value) : value.IsMadeFrom [.list cells] := by
  intro property hproperty hcells
  have hlist : property (.list cells) := hcells (.list cells) List.mem_cons_self
  unfold select at h
  split at h <;> cases h
  · exact ((hproperty.cell _ _ _).1 hlist).1
  · exact ((hproperty.cell _ _ _).1 hlist).2

/-! ## Calls -/

/-- A number is made from any arguments. -/
theorem Value.isMadeFrom_number (arguments : List Value) (n : Int64) :
    (number n).IsMadeFrom arguments :=
  fun _ hproperty _ => hproperty.number n

/-- A boolean is made from any arguments. -/
theorem Value.isMadeFrom_boolean (arguments : List Value) (b : Bool) :
    (boolean b).IsMadeFrom arguments :=
  fun _ hproperty _ => hproperty.boolean b

/-- A new list of values is made from what they are made from. -/
theorem Store.list_makes {arguments values : List Value} {store : Store}
    (h : ∀ value ∈ values, value.IsMadeFrom arguments) :
    (do return .list (← Store.list values) : Evaluation Value).MakesFrom arguments store := by
  apply Action.Ensures.bind fun cells _ => (Value.list cells).IsMadeFrom arguments
  · refine Action.Ensures.lift ⟨rfl, rfl⟩ fun property hproperty harguments => ?_
    exact hproperty.ofList _ fun value hvalue => h value hvalue property hproperty harguments
  · intro cells after _ hcells
    exact Action.Ensures.pure hcells

/-- An operation on numbers makes its value from the arguments. -/
theorem NumericOperation.call_makes (operation : NumericOperation) (numbers : List Int64)
    (arguments : List Value) (store : Store) :
    (operation.call numbers).MakesFrom arguments store := by
  unfold call
  split
  next operator _ =>
    apply Action.Ensures.bind fun _ _ => True
    · apply Action.Ensures.ofExcept
      · exact fun _ _ => trivial
      · exact fun _ herror => Operator.isAboutArguments_of_apply herror
    · intro number after _ _
      exact Action.Ensures.pure (Value.isMadeFrom_number arguments number)
  next => exact Action.Ensures.pure (Value.isMadeFrom_boolean arguments _)
  next => exact Action.Ensures.fail trivial
  next =>
    apply Store.list_makes
    intro value hvalue
    rcases List.mem_map.1 hvalue with ⟨number, _, rfl⟩
    exact Value.isMadeFrom_number arguments number

/-- An operation on booleans makes its value from the arguments. -/
theorem BooleanOperation.call_makes (operation : BooleanOperation) (booleans : List Bool)
    (arguments : List Value) (store : Store) :
    (operation.call booleans).MakesFrom arguments store := by
  unfold call
  split
  next => exact Action.Ensures.pure (Value.isMadeFrom_boolean arguments _)
  next => exact Action.Ensures.pure (Value.isMadeFrom_boolean arguments _)
  next => exact Action.Ensures.pure (Value.isMadeFrom_boolean arguments _)
  next => exact Action.Ensures.fail trivial
  next =>
    apply Store.list_makes
    intro value hvalue
    rcases List.mem_map.1 hvalue with ⟨boolean, _, rfl⟩
    exact Value.isMadeFrom_boolean arguments boolean

/-- A general operation makes its value from the arguments. -/
theorem GeneralOperation.call_makes (operation : GeneralOperation) (values : List Value)
    (store : Store) : (operation.call values).MakesFrom values store := by
  unfold call
  split
  next selector cells =>
    apply Action.Ensures.ofExcept
    · exact fun _ hvalue => Selector.isMadeFrom_select hvalue
    · exact fun _ herror => Selector.isAboutArguments_of_select herror
  next => exact Action.Ensures.fail trivial
  next => exact Action.Ensures.fail trivial
  next => exact Action.Ensures.pure (Value.isMadeFrom_boolean _ _)
  next => exact Action.Ensures.pure (Value.isMadeFrom_boolean _ _)
  next => exact Action.Ensures.fail trivial
  next => exact Action.Ensures.pure (Value.isMadeFrom_boolean _ _)
  next => exact Action.Ensures.fail trivial
  next =>
    apply Action.Ensures.bind fun _ _ => True
    · exact Action.Ensures.lift ⟨rfl, rfl⟩ trivial
    · intro _ after _ _
      exact Action.Ensures.pure fun _ hproperty _ => hproperty.nil
  next =>
    apply Action.Ensures.bind fun _ _ => True
    · exact Action.Ensures.lift ⟨rfl, rfl⟩ trivial
    · intro store after _ _
      exact Action.Ensures.pure (Value.isMadeFrom_number _ _)
  next =>
    apply Store.list_makes
    exact fun value hvalue property _ harguments => harguments value hvalue

/-- A procedure leaves every environment alone, makes its result from its arguments, and fails
only because of them. -/
theorem Procedure.call_makes (procedure : Procedure) (arguments : List Value) (store : Store) :
    (procedure.call arguments).MakesFrom arguments store := by
  induction procedure generalizing store with
  | counted arity inner ih =>
    rw [call]
    split
    · exact ih store
    · exact Action.Ensures.fail trivial
  | numeric operation =>
    apply Action.Ensures.bind fun _ _ => True
    · apply Action.Ensures.ofExcept
      · exact fun _ _ => trivial
      · exact fun _ herror => isAboutArguments_of_readArguments herror
    · intro numbers after _ _
      exact operation.call_makes numbers arguments after
  | boolean operation =>
    apply Action.Ensures.bind fun _ _ => True
    · apply Action.Ensures.ofExcept
      · exact fun _ _ => trivial
      · exact fun _ herror => isAboutArguments_of_readArguments herror
    · intro booleans after _ _
      exact operation.call_makes booleans arguments after
  | general operation => exact operation.call_makes arguments store

/-- A procedure leaves every environment alone, finds its result in its arguments, and fails
only because of them. -/
theorem Procedure.call_ensures (procedure : Procedure) (arguments : List Value) (store : Store) :
    (procedure.call arguments).SelectsFrom arguments store :=
  (procedure.call_makes arguments store).mono (fun _ hsame => hsame.environments)
    (fun _ _ _ hvalue => hvalue.comesFrom) fun _ herror => herror

namespace Environment

/-- The primitive functions are bound to their names, with consecutive identities, and nothing else
is. -/
theorem getElem?_of_mem_primitiveBindings {identity : Nat} {procedures : List (String × Procedure)}
    {name : String} {value : Value} (h : (name, value) ∈ primitiveBindings identity procedures) :
    ∃ index procedure, procedures[index]? = some (name, procedure) ∧
      value = .function (.primitive (identity + index) name procedure) := by
  induction procedures generalizing identity with
  | nil => cases h
  | cons first procedures ih =>
    rcases List.mem_cons.1 h with hfirst | hrest
    · cases hfirst
      exact ⟨0, first.2, rfl, rfl⟩
    · obtain ⟨index, procedure, hindex, rfl⟩ := ih hrest
      exact ⟨index + 1, procedure, hindex, by rw [Nat.add_right_comm]; rfl⟩

/-- All bindings to primitive functions are to primitive functions of that name. -/
theorem of_mem_primitiveBindings {identity : Nat} {procedures : List (String × Procedure)}
    {name : String} {value : Value} (h : (name, value) ∈ primitiveBindings identity procedures) :
    ∃ identity' procedure, value = .function (.primitive identity' name procedure) := by
  obtain ⟨index, procedure, -, hvalue⟩ := getElem?_of_mem_primitiveBindings h
  exact ⟨identity + index, procedure, hvalue⟩

/-- The names of the bindings are those of the primitive functions. -/
@[simp]
theorem map_fst_primitiveBindings (identity : Nat) (procedures : List (String × Procedure)) :
    (primitiveBindings identity procedures).map Prod.fst = procedures.map Prod.fst := by
  induction procedures generalizing identity with
  | nil => rfl
  | cons procedure procedures ih => simp [primitiveBindings, ih]

end Environment

end MiniScheme
