import MiniScheme.Evaluation.Evaluate
import MiniScheme.Proofs.Primitives
import Mathlib.Logic.Relation

/-!
# Which bindings change

Whatever happens to the environments of a store happens in steps of a few kinds.  Only one kind
of step changes the bindings of an environment that exists: a definition.  Evaluating an
expression and calling a function takes other steps only, however deep the calls in it are and
however it ends.

Main results:

- Theorem `Store.History.keepsBindings`: steps change no bindings besides those of the
  environments that definitions are made in.
- Theorem `evaluate_history`: evaluating an expression is a history without definitions.
- Theorem `bindings_frame`: only a successful definition changes bindings, in one environment
  and for one name, and the environment of a call keeps those that it starts with.
-/

namespace MiniScheme

namespace Store

/-! ## Histories -/

/-- The store in which the body of a closure is evaluated: the closure's environment has been
copied and the formals are bound in the copy. -/
def enterCall (store : Store) (captured : EnvironmentId) (formals : List String)
    (arguments : List Value) : Store :=
  ((allocate ((store.environment captured).enter formals arguments)).run store).2

/-- What can happen to the environments of a store in one step, where definitions are made in
some of the environments. -/
inductive Step (own : EnvironmentId → Prop) (before : Store) : Store → Prop
  /-- Something happens elsewhere in the store. -/
  | elsewhere {after : Store} (h : before.SameEnvironments after) : Step own before after
  /-- A symbol is interned. -/
  | symbol (id : EnvironmentId) (symbol : Symbol) :
    Step own before (before.update id (·.addSymbol symbol))
  /-- A closure is called, which makes an environment. -/
  | call (captured : EnvironmentId) {formals : List String} {arguments : List Value}
    (h : formals.length ≤ arguments.length) :
    Step own before (before.enterCall captured formals arguments)
  /-- An environment of the primitive functions is made. -/
  | evaluator (identity : Nat) :
    Step own before ((allocate (.global identity)).run before).2
  /-- A name is defined. -/
  | definition {id : EnvironmentId} (h : own id) (name : String) (value : Value) :
    Step own before (before.update id (·.define name value))

/-- What can happen to the environments of a store in the long run. -/
abbrev History (own : EnvironmentId → Prop) : Store → Store → Prop :=
  Relation.ReflTransGen (Step own)

instance (own : EnvironmentId → Prop) : IsPreorder Store (History own) where
  refl _ := .refl
  trans _ _ _ := .trans

/-! ## Bindings -/

/-- All environments are still there, with the same bindings except in some of them. -/
structure KeepsBindings (except : EnvironmentId → Prop) (before after : Store) : Prop where
  size_le : before.environments.size ≤ after.environments.size
  bindings_eq : ∀ id < before.environments.size, ¬except id →
    (after.environment id).bindings = (before.environment id).bindings

/-- All environments are still there, with the same bindings. -/
abbrev KeepsAllBindings : Store → Store → Prop :=
  KeepsBindings fun _ => False

instance (except : EnvironmentId → Prop) : IsPreorder Store (KeepsBindings except) where
  refl _ := ⟨Nat.le_refl _, fun _ _ _ => rfl⟩
  trans _ _ _ hfirst hsecond := by
    refine ⟨Nat.le_trans hfirst.size_le hsecond.size_le, fun id hid hexcept => ?_⟩
    have hmiddle := hsecond.bindings_eq id (Nat.lt_of_lt_of_le hid hfirst.size_le) hexcept
    rw [hmiddle, hfirst.bindings_eq id hid hexcept]

variable {own : EnvironmentId → Prop} {before after : Store}

/-- A change that spares the bindings of an environment spares all bindings. -/
theorem bindings_update (change : Environment → Environment)
    (h : ∀ environment, (change environment).bindings = environment.bindings) (store : Store)
    {id other : EnvironmentId} (hother : other < store.environments.size) :
    ((store.update id change).environment other).bindings =
      (store.environment other).bindings := by
  by_cases hid : other = id
  · subst hid
    rw [environment_update_self store other change hother, h]
  · rw [environment_update_of_ne store change hid]

/-- A new environment changes no other one. -/
theorem keepsBindings_allocate (except : EnvironmentId → Prop) (store : Store)
    (new : Environment) : KeepsBindings except store ((allocate new).run store).2 where
  size_le := by simp
  bindings_eq id hid _ := by rw [environment_allocate store new hid]

/-- A step changes bindings only where definitions are made. -/
theorem Step.keepsBindings (h : Step own before after) : KeepsBindings own before after := by
  cases h with
  | elsewhere h =>
    have henvironment : after.environment = before.environment := by
      funext id
      rw [environment, h, environment]
    exact ⟨Nat.le_of_eq (by rw [h]), fun id _ _ => by rw [henvironment]⟩
  | symbol id symbol =>
    refine ⟨Nat.le_of_eq (size_update before id _).symm, fun other hother _ => ?_⟩
    exact bindings_update (·.addSymbol symbol) (fun _ => rfl) before hother
  | call captured h => exact keepsBindings_allocate own before _
  | evaluator identity => exact keepsBindings_allocate own before _
  | definition h name value =>
    refine ⟨Nat.le_of_eq (size_update before _ _).symm, fun other _ hother => ?_⟩
    rw [environment_update_of_ne]
    rintro rfl
    exact hother h

/-- So do any number of steps. -/
theorem History.keepsBindings (h : History own before after) : KeepsBindings own before after := by
  induction h with
  | refl => exact refl_of _ before
  | tail _ hstep ih => exact trans_of _ ih hstep.keepsBindings

end Store

/-! ## Quoted data -/

/-- A relation that covers the two things that quoting does: making identities and interning
symbols. -/
structure Store.AllowsQuoting (follows : Store → Store → Prop) : Prop where
  elsewhere : ∀ {before after : Store}, before.SameEnvironments after → follows before after
  symbol : ∀ (store : Store) (id : EnvironmentId) (symbol : Symbol),
    follows store (store.update id (·.addSymbol symbol))

section

variable {follows : Store → Store → Prop} [IsPreorder Store follows]

/-- A symbol is interned where there is none for the name. -/
theorem intern_ensures (h : Store.AllowsQuoting follows) (id : EnvironmentId) (name : String)
    (store : Store) :
    (liftM (Store.intern id name) : Evaluation Symbol).Ensures follows (fun _ _ => True)
      (fun _ => False) store := by
  unfold Store.intern
  rw [Action.lift_bind]
  apply Action.Ensures.bind fun _ _ => True
  · exact .lift (refl_of follows store) trivial
  intro current after _ _
  split
  next symbol _ => exact .pure trivial
  next =>
    unfold Store.renewSymbol
    rw [Action.lift_bind]
    apply Action.Ensures.bind fun _ _ => True
    · exact .lift (h.elsewhere rfl) trivial
    · exact fun symbol after _ _ => .lift (h.symbol after id symbol) trivial

mutual

/-- Quoting makes symbols and lists and no functions. -/
theorem quoteDatum_ensures (h : Store.AllowsQuoting follows) (id : EnvironmentId)
    (store : Store) : ∀ datum : Datum,
    (liftM (quoteDatum id datum) : Evaluation Value).Ensures follows
      (fun value _ => value.EveryFunction fun _ => False) (fun _ => False) store
  | .atom token => by
    unfold quoteDatum
    split
    next =>
      rw [Action.lift_bind]
      apply Action.Ensures.bind _ (intern_ensures h id token.text store)
      exact fun symbol after _ _ => .pure trivial
    next => exact .pure (Value.everyFunction_ofLiteral _ token)
  | .list items => by
    unfold quoteDatum
    rw [Action.lift_bind]
    apply Action.Ensures.bind _ (quoteItems_ensures h id store items)
    intro values after _ hvalues
    exact .lift (h.elsewhere rfl) (Cells.everyFunction_ofList _ hvalues)

/-- Quoting a row of data makes values without functions. -/
theorem quoteItems_ensures (h : Store.AllowsQuoting follows) (id : EnvironmentId)
    (store : Store) : ∀ items : List Datum,
    (liftM (quoteItems id items) : Evaluation (List Value)).Ensures follows
      (fun values _ => ∀ value ∈ values, value.EveryFunction fun _ => False) (fun _ => False)
      store
  | [] => .pure (by simp)
  | item :: items => by
    unfold quoteItems
    rw [Action.lift_bind]
    apply Action.Ensures.bind _ (quoteDatum_ensures h id store item)
    intro value middle _ hvalue
    rw [Action.lift_bind]
    apply Action.Ensures.bind _ (quoteItems_ensures h id middle items)
    exact fun values after _ hvalues => .pure (List.forall_mem_cons.2 ⟨hvalue, hvalues⟩)

end

end

/-! ## Evaluation -/

variable {own : EnvironmentId → Prop}

/-- Quoting elsewhere is a step of a history. -/
theorem Store.allowsQuoting_history : AllowsQuoting (History own) where
  elsewhere h := .single (.elsewhere h)
  symbol _ id symbol := .single (.symbol id symbol)

/-- An action that is a history. -/
abbrev Action.HasHistory {α : Type} (own : EnvironmentId → Prop) (action : Evaluation α)
    (store : Store) : Prop :=
  action.Ensures (Store.History own) (fun _ _ => True) (fun _ => True) store

/-- A body is evaluated in a history if its expressions are. -/
theorem evaluateBody_history {evaluate : Expression → Evaluation Value}
    (h : ∀ expression store, (evaluate expression).HasHistory own store) (body : List Expression)
    (store : Store) : (evaluateBody evaluate body).HasHistory own store := by
  apply Action.Ensures.foldlM body trivial
  exact fun expression _ _ before _ _ => h expression before

/-- With enough arguments a closure's body is evaluated in the environment that is made for it. -/
theorem callWith_closure (evaluate : EnvironmentId → Expression → Evaluation Value)
    (identity : Nat) (body : List Expression) (captured : EnvironmentId) {formals : List String}
    {arguments : List Value} (h : formals.length ≤ arguments.length) (store : Store) :
    (callWith evaluate (.closure identity formals body captured) arguments).runOn store =
      (evaluateBody (evaluate store.environments.size) body).runOn
        (store.enterCall captured formals arguments) := by
  rw [callWith, if_neg (Nat.not_lt.2 h)]
  rfl

/-- A call has a history if the evaluation of code has one. -/
theorem callWith_history {evaluate : EnvironmentId → Expression → Evaluation Value}
    (h : ∀ id expression store, (evaluate id expression).HasHistory own store)
    (function : Function) (arguments : List Value) (store : Store) :
    (callWith evaluate function arguments).HasHistory own store := by
  cases function with
  | primitive identity name procedure =>
    apply (procedure.call_ensures arguments store).mono
    · exact fun _ hsame => .single (.elsewhere hsame)
    · exact fun _ _ _ _ => trivial
    · exact fun _ _ => trivial
  | closure identity formals body captured =>
    rcases Nat.lt_or_ge arguments.length formals.length with hcount | hcount
    · rw [callWith, if_pos hcount]
      exact .fail trivial
    · apply Action.Ensures.of_runOn_eq
        (callWith_closure evaluate identity body captured hcount store)
      · exact .single (.call captured hcount)
      · exact evaluateBody_history (h store.environments.size) body _

/-- Evaluating an expression is a history in which nothing is defined. -/
theorem evaluate_history (fuel : Nat) (id : EnvironmentId) (expression : Expression)
    (store : Store) : (evaluate fuel id expression).HasHistory own store := by
  induction fuel generalizing id expression store with
  | zero => exact .exhausted
  | succ fuel ih =>
    cases expression with
    | literal token =>
      rw [evaluate]
      split
      · apply Action.Ensures.bind fun _ _ => True
        · exact .lift (refl_of _ store) trivial
        · intro found after _ _
          cases found with
          | some value => exact .pure trivial
          | none => exact .fail trivial
      · exact .pure trivial
    | quoted datum =>
      apply (quoteDatum_ensures Store.allowsQuoting_history id store datum).mono
      · exact fun _ hafter => hafter
      · exact fun _ _ _ _ => trivial
      · exact fun _ _ => trivial
    | conditional predicate consequent alternative =>
      rw [evaluate]
      apply Action.Ensures.bind (fun _ _ => True) (ih id predicate store)
      intro value after _ _
      split
      · exact ih id consequent after
      · exact ih id alternative after
      · exact .fail trivial
    | lambda formals body =>
      rw [evaluate]
      apply Action.Ensures.bind fun _ _ => True
      · exact .lift (.single (.elsewhere rfl)) trivial
      · exact fun _ _ _ _ => .pure trivial
    | application head arguments =>
      rw [evaluate]
      apply Action.Ensures.bind (fun _ _ => True) (ih id head store)
      intro value after _ _
      split
      next function =>
        apply Action.Ensures.bind (fun values _ => ∀ value ∈ values, True)
        · apply Action.Ensures.mapM
          · exact fun _ _ _ _ _ => trivial
          · exact fun argument _ before _ => ih id argument before
        · exact fun values after _ _ => callWith_history ih function values after
      · exact .fail trivial

/-- The evaluation of an expression keeps all bindings. -/
theorem keepsAllBindings_evaluate (fuel : Nat) (id : EnvironmentId) (expression : Expression)
    (store : Store) :
    store.KeepsAllBindings ((evaluate fuel id expression).runOn store).2 :=
  (evaluate_history fuel id expression store).follows.keepsBindings

/-- A call keeps all bindings. -/
theorem keepsAllBindings_call (fuel : Nat) (function : Function) (arguments : List Value)
    (store : Store) :
    store.KeepsAllBindings ((call fuel function arguments).runOn store).2 :=
  (callWith_history (evaluate_history fuel) function arguments store).follows.keepsBindings

/-! ## Forms -/

/-- A definition binds the value of its expression where it is evaluated, if there is one. -/
theorem evaluateForm_definition (fuel : Nat) (id : EnvironmentId) (name : Token)
    (value : Expression) (store : Store) :
    (evaluateForm fuel id (.definition name value)).runOn store =
      match (evaluate fuel id value).runOn store with
      | (.ok bound, after) => (.ok .nil, after.update id (·.define name.text bound))
      | (.error stop, after) => (.error stop, after) := by
  rw [evaluateForm, Action.runOn_bind]
  cases (evaluate fuel id value).runOn store with
  | mk ending after =>
    cases ending <;> rfl

/-- A form that is an expression or that fails changes no bindings. -/
theorem keepsAllBindings_evaluateForm {fuel : Nat} {id : EnvironmentId} {form : Form}
    {store : Store} (h : (∃ expression, form = .expression expression) ∨
      ∃ stop, ((evaluateForm fuel id form).runOn store).1 = .error stop) :
    store.KeepsAllBindings ((evaluateForm fuel id form).runOn store).2 := by
  cases form with
  | expression expression => exact keepsAllBindings_evaluate fuel id expression store
  | definition name value =>
    rcases h with ⟨_, h⟩ | ⟨stop, h⟩
    · cases h
    have hvalue := keepsAllBindings_evaluate fuel id value store
    rw [evaluateForm_definition] at h ⊢
    cases hrun : (evaluate fuel id value).runOn store with
    | mk ending middle =>
      rw [hrun] at h hvalue
      cases ending with
      | ok bound => cases h
      | error stop => exact hvalue

/-- Evaluating a form is a history whose definitions are made in the environment of the form. -/
theorem evaluateForm_history {id : EnvironmentId} (hid : own id) (fuel : Nat) (form : Form)
    (store : Store) : (evaluateForm fuel id form).HasHistory own store := by
  cases form with
  | expression expression => exact evaluate_history fuel id expression store
  | definition name value =>
    apply Action.Ensures.bind (fun _ _ => True) (evaluate_history fuel id value store)
    intro value after _ _
    apply Action.Ensures.bind fun _ _ => True
    · exact .lift (.single (.definition hid name.text value)) trivial
    · exact fun _ _ _ _ => .pure trivial

/-- The environment has another binding for one name, and nothing else has changed about the
bindings of the environments. -/
structure Store.Rebinds (id : EnvironmentId) (name : String) (value : Value)
    (before after : Store) : Prop where
  keeps : Store.KeepsBindings (· = id) before after
  get?_eq : ∀ other, (after.environment id).get? other =
    if other = name then some value else (before.environment id).get? other

/-- A definition of a name that succeeds binds the value of its expression to that name. -/
theorem evaluateForm_rebinds {id : EnvironmentId} {store : Store}
    (hid : id < store.environments.size) {fuel : Nat} {name : Token} {value : Expression}
    {result : Value}
    (h : ((evaluateForm fuel id (.definition name value)).runOn store).1 = .ok result) :
    ∃ bound, ((evaluate fuel id value).runOn store).1 = .ok bound ∧
      store.Rebinds id name.text bound
        ((evaluateForm fuel id (.definition name value)).runOn store).2 := by
  have hvalue := keepsAllBindings_evaluate fuel id value store
  rw [evaluateForm_definition] at h ⊢
  cases hrun : (evaluate fuel id value).runOn store with
  | mk ending middle =>
    rw [hrun] at h hvalue
    cases ending with
    | error stop => cases h
    | ok bound =>
      have hmiddle : id < middle.environments.size := Nat.lt_of_lt_of_le hid hvalue.size_le
      refine ⟨bound, rfl, ⟨?_, ?_⟩, ?_⟩
      · simpa using hvalue.size_le
      · intro other hother hne
        rw [Store.environment_update_of_ne middle _ hne]
        exact hvalue.bindings_eq other hother not_false
      · intro other
        rw [Store.environment_update_self middle id _ hmiddle]
        unfold Environment.get? Environment.define
        rw [Table.get?_insert, hvalue.bindings_eq id hid not_false]

/-- Only a successful definition changes bindings, and only that of its name where it is
evaluated.  Evaluating an expression, calling a function and failing change none, in no
environment that there was before.  All that these do to the environments is a history; and once
the formals of a closure are bound for a call, the bindings of the environment of that call stay
the same in every history that makes no definitions in this environment. -/
theorem bindings_frame (fuel : Nat) (store : Store) :
    (∀ id form, ((∃ expression, form = .expression expression) ∨
        ∃ stop, ((evaluateForm fuel id form).runOn store).1 = .error stop) →
      store.KeepsAllBindings ((evaluateForm fuel id form).runOn store).2) ∧
    (∀ id name value result, id < store.environments.size →
      ((evaluateForm fuel id (.definition name value)).runOn store).1 = .ok result →
      ∃ bound, ((evaluate fuel id value).runOn store).1 = .ok bound ∧
        store.Rebinds id name.text bound
          ((evaluateForm fuel id (.definition name value)).runOn store).2) ∧
    (∀ function arguments,
      store.KeepsAllBindings ((call fuel function arguments).runOn store).2) ∧
    (∀ (own : EnvironmentId → Prop) id form, own id →
      store.History own ((evaluateForm fuel id form).runOn store).2) ∧
    (∀ (own : EnvironmentId → Prop) function arguments,
      store.History own ((call fuel function arguments).runOn store).2) ∧
    (∀ (own : EnvironmentId → Prop) identity formals body captured arguments,
      formals.length ≤ arguments.length →
      (store.enterCall captured formals arguments).History own
        ((call fuel (.closure identity formals body captured) arguments).runOn store).2 ∧
      ∀ after, ¬own store.environments.size →
        (store.enterCall captured formals arguments).History own after →
        (after.environment store.environments.size).bindings =
          ((store.environment captured).enter formals arguments).bindings) := by
  refine ⟨fun _ _ h => keepsAllBindings_evaluateForm h,
    fun _ _ _ _ hid h => evaluateForm_rebinds hid h,
    fun function arguments => keepsAllBindings_call fuel function arguments store, ?_, ?_, ?_⟩
  · intro own id form hid
    exact (evaluateForm_history hid fuel form store).follows
  · intro own function arguments
    exact (callWith_history (evaluate_history fuel) function arguments store).follows
  · intro own identity formals body captured arguments hcount
    constructor
    · rw [call, callWith_closure (evaluate fuel) identity body captured hcount]
      exact (evaluateBody_history (evaluate_history fuel _) body _).follows
    · intro after hown hafter
      have hmade : store.environments.size <
          (store.enterCall captured formals arguments).environments.size := by
        simp [Store.enterCall]
      rw [hafter.keepsBindings.bindings_eq _ hmade hown, Store.enterCall,
        Store.environment_allocate_self]

end MiniScheme
