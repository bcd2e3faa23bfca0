import MiniScheme.Proofs.FormalRenaming
import MiniScheme.Proofs.SoundTrees
import MiniScheme.Session

/-!
# Literals without a constant

A literal without a constant has a value only because the types of programs admit one.  To show
that evaluation never comes to such a literal, the branch for it is made a parameter: an action of
any kind may stand there, one that fails or prints for example.  Evaluation with nil in that
branch is evaluation as it is; and for forms that are read from sources, evaluation with anything
else there runs in the same way.  The invariant is about every closure in the store: its body is
well formed.

Main results:

- Theorem `evaluateWith_nil`: evaluation is the case of nil.
- Theorem `evaluate_coincides`: a well-formed expression runs in the same way with any fallback,
  and keeps all bodies of closures well formed.
- Theorem `sound_of_read`: what is read from sources is sound, fails to compile only for quoted
  data, has no `null` in its script, and never comes to a literal without a constant.
-/

namespace MiniScheme

/-! ## Evaluation with another fallback -/

section

variable (fallback : Token → Evaluation Value)

/-- The value of a literal, where an action is given for a token without a constant. -/
def literalWith (token : Token) : Evaluation Value :=
  match token.constant with
  | some constant => return .ofConstant constant
  | none => fallback token

mutual

/-- The value of quoted data, as `quoteDatum` finds it. -/
def quoteDatumWith (id : EnvironmentId) : Datum → Evaluation Value
  | .atom token => do
    if token.kind = .identifier then return .symbol (← Store.intern id token.text)
    else literalWith fallback token
  | .list items => do
    let values ← quoteItemsWith id items
    return .list (← Store.list values)

/-- The values of quoted data, as `quoteItems` finds them. -/
def quoteItemsWith (id : EnvironmentId) : List Datum → Evaluation (List Value)
  | [] => return []
  | item :: items => do
    let value ← quoteDatumWith id item
    let values ← quoteItemsWith id items
    return value :: values

end

/-- The value of an expression, as `evaluate` finds it. -/
def evaluateWith : Nat → EnvironmentId → Expression → Evaluation Value
  | 0, _, _ => Action.exhausted
  | fuel + 1, id, expression =>
    match expression with
    | .literal token => do
      if token.kind = .identifier then
        match ← Store.lookup id token.text with
        | some value => return value
        | none => Action.fail (.undefinedIdentifier token.text)
      else literalWith fallback token
    | .quoted datum => quoteDatumWith fallback id datum
    | .conditional predicate consequent alternative => do
      match ← evaluateWith fuel id predicate with
      | .boolean true => evaluateWith fuel id consequent
      | .boolean false => evaluateWith fuel id alternative
      | value => Action.fail (.typeMismatch .predicate .boolean value.kind)
    | .lambda formals body => do
      return .function (← Store.closure (formals.map Token.text) body id)
    | .application head arguments => do
      match ← evaluateWith fuel id head with
      | .function function =>
        let values ← arguments.mapM (evaluateWith fuel id)
        callWith (evaluateWith fuel) function values
      | value => Action.fail (.notCallable value.text)

/-- The value of a form, as `evaluateForm` finds it. -/
def evaluateFormWith (fuel : Nat) (id : EnvironmentId) : Form → Evaluation Value
  | .definition name value => do
    let value ← evaluateWith fallback fuel id value
    Store.define id name.text value
    return .nil
  | .expression expression => evaluateWith fallback fuel id expression

/-- The value of a program, as `evaluateProgram` finds it. -/
def evaluateProgramWith (fuel : Nat) (id : EnvironmentId) (program : Program) : Evaluation Value :=
  program.foldlM (fun _ form => evaluateFormWith fallback fuel id form) .nil

/-- Evaluate forms one by one, as `evaluateForms` does. -/
def evaluateFormsWith (fuel : Nat) (timed : List (Clock × Form)) :
    StateM Store (List (Observation EvalError)) := do
  let id ← Store.allocateGlobal
  observeAll (evaluateFormWith fallback fuel id) timed

end

variable {fallback : Token → Evaluation Value}

/-! ## The fallback as it is -/

mutual

/-- Quoting is the same with any fallback that gives each atom its value. -/
theorem quoteDatumWith_eq (id : EnvironmentId) : ∀ (datum : Datum),
    (∀ token ∈ datum.atoms, token.kind ≠ .identifier →
      literalWith fallback token = pure (.ofLiteral token)) →
    quoteDatumWith fallback id datum = liftM (quoteDatum id datum)
  | .atom token, h => by
    rw [quoteDatumWith, quoteDatum]
    split
    next => rfl
    next hkind => exact h token (List.mem_singleton_self token) hkind
  | .list items, h => by
    rw [quoteDatumWith, quoteDatum, quoteItemsWith_eq id items h]
    rfl

/-- With any fallback a row of data whose atoms are literals is quoted as it is. -/
theorem quoteItemsWith_eq (id : EnvironmentId) : ∀ (items : List Datum),
    (∀ token ∈ Datum.rowAtoms items, token.kind ≠ .identifier →
      literalWith fallback token = pure (.ofLiteral token)) →
    quoteItemsWith fallback id items = liftM (quoteItems id items)
  | [], _ => by
    rw [quoteItemsWith, quoteItems]
    rfl
  | item :: items, h => by
    obtain ⟨hitem, hitems⟩ := List.forall_mem_append.1 h
    rw [quoteItemsWith, quoteItems, quoteDatumWith_eq id item hitem,
      quoteItemsWith_eq id items hitems]
    rfl

end

/-- The fallback to nil is what literals do. -/
theorem literalWith_nil (token : Token) :
    literalWith (fun _ => pure .nil) token = pure (.ofLiteral token) := by
  unfold literalWith Value.ofLiteral
  cases token.constant <;> rfl

/-- Evaluation is the case of nil for literals without a constant. -/
theorem evaluateWith_nil (fuel : Nat) :
    evaluateWith (fun _ => pure .nil) fuel = evaluate fuel := by
  induction fuel with
  | zero =>
    funext id expression
    rfl
  | succ fuel ih =>
    funext id expression
    cases expression with
    | literal token =>
      rw [evaluateWith, literalWith_nil]
      rfl
    | quoted datum => exact quoteDatumWith_eq id datum fun token _ _ => literalWith_nil token
    | conditional predicate consequent alternative =>
      rw [evaluateWith, ih]
      rfl
    | lambda formals body => rw [evaluateWith, evaluate]
    | application head arguments =>
      rw [evaluateWith, ih]
      rfl

/-- The fallback to nil is what the evaluation of a form does. -/
theorem evaluateFormWith_nil (fuel : Nat) (id : EnvironmentId) :
    evaluateFormWith (fun _ => pure .nil) fuel id = evaluateForm fuel id := by
  funext form
  cases form with
  | definition name value => rw [evaluateFormWith, evaluateForm, evaluateWith_nil]
  | expression whole => rw [evaluateFormWith, evaluateForm, evaluateWith_nil]

/-! ## Actions that run in the same way -/

namespace Action

variable {ε α β γ : Type}

/-- Another action runs on a store as this one does, which guarantees something about the store
after it and about the value that it ends with. -/
structure Coincides (follows : Store → Store → Prop) (good : α → Store → Prop)
    (action other : Action ε α) (store : Store) : Prop where
  ensures : action.Ensures follows good (fun _ => True) store
  runOn_eq : other.runOn store = action.runOn store

namespace Coincides

variable {follows : Store → Store → Prop} {good : α → Store → Prop} {store : Store}
  {action : Action ε α}

/-- An action coincides with itself, if it keeps to what it follows. -/
theorem refl (h : action.Ensures follows good (fun _ => True) store) :
    action.Coincides follows good action store :=
  ⟨h, rfl⟩

variable [IsPreorder Store follows]

/-- Two actions in turn run as two others do if the second ones do wherever the first ones can
end. -/
theorem bind (between : α → Store → Prop) {good : β → Store → Prop} {first first' : Action ε α}
    {next next' : α → Action ε β} (h : first.Coincides follows between first' store)
    (hnext : ∀ value after, follows store after → between value after →
      (next value).Coincides follows good (next' value) after) :
    (first >>= next).Coincides follows good (first' >>= next') store where
  ensures := h.ensures.bind between fun value after hafter hvalue =>
    (hnext value after hafter hvalue).ensures
  runOn_eq := by
    have hfollows := h.ensures.follows
    have hbetween := h.ensures.good
    rw [runOn_bind, runOn_bind, h.runOn_eq]
    cases hrun : first.runOn store with
    | mk ending after =>
      rw [hrun] at hfollows hbetween
      cases ending with
      | ok value => exact (hnext value after hfollows (hbetween value rfl)).runOn_eq
      | error stop => rfl

/-- So do rows of actions that make a row of values. -/
theorem mapM {action action' : γ → Action ε α} (items : List γ)
    (hstable : ∀ value before after, follows before after → good value before → good value after)
    (h : ∀ item ∈ items, ∀ before, follows store before →
      (action item).Coincides follows good (action' item) before) :
    (items.mapM action).Coincides follows (fun values after => ∀ value ∈ values, good value after)
      (items.mapM action') store := by
  induction items generalizing store with
  | nil => exact refl (.pure (by simp))
  | cons item items ih =>
    rw [List.mapM_cons, List.mapM_cons]
    apply bind good (h item List.mem_cons_self store (refl_of follows store))
    intro value middle hmiddle hvalue
    refine bind _ (ih fun other hother before hbefore => ?_) fun values after hafter hvalues => ?_
    · exact h other (List.mem_cons_of_mem item hother) before (trans_of follows hmiddle hbefore)
    · have hkept := hstable value middle after hafter hvalue
      exact refl (.pure (List.forall_mem_cons.2 ⟨hkept, hvalues⟩))

/-- So do rows of actions of which the last one gives the value. -/
theorem foldlM {action action' : α → γ → Action ε α} (items : List γ) {first : α}
    (hfirst : good first store)
    (h : ∀ item ∈ items, ∀ value before, follows store before → good value before →
      (action value item).Coincides follows good (action' value item) before) :
    (items.foldlM action first).Coincides follows good (items.foldlM action' first) store := by
  induction items generalizing first store with
  | nil => exact refl (.pure hfirst)
  | cons item items ih =>
    rw [List.foldlM_cons, List.foldlM_cons]
    apply bind good (h item List.mem_cons_self first store (refl_of follows store) hfirst)
    intro value middle hmiddle hvalue
    refine ih hvalue fun other hother value before hbefore => ?_
    exact h other (List.mem_cons_of_mem item hother) value before
      (trans_of follows hmiddle hbefore)

end Coincides

end Action

/-! ## Stores whose closures have well-formed bodies -/

/-- Whether the body of a closure is well formed. -/
def Function.HasSoundBody : Function → Prop
  | .primitive .. => True
  | .closure _ _ body _ => Expression.areWellFormed body = true

/-- Whether so are the bodies of all closures in a value. -/
abbrev Value.HasSoundBodies (value : Value) : Prop :=
  value.EveryFunction Function.HasSoundBody

/-- Whether so are the bodies of all closures that are bound in an environment. -/
def Environment.HasSoundBodies (environment : Environment) : Prop :=
  ∀ name value, environment.get? name = some value → value.HasSoundBodies

namespace Store

/-- Whether so are the bodies of all closures that are bound anywhere. -/
def HasSoundBodies (store : Store) : Prop :=
  ∀ id, (store.environment id).HasSoundBodies

/-- Bodies stay well formed. -/
def KeepsSoundBodies (before after : Store) : Prop :=
  before.HasSoundBodies → after.HasSoundBodies

instance : IsPreorder Store KeepsSoundBodies where
  refl _ := id
  trans _ _ _ hfirst hsecond := hsecond ∘ hfirst

variable {store : Store}

/-- A change to one environment that keeps the bodies there well formed keeps all of them so. -/
theorem hasSoundBodies_update (h : store.HasSoundBodies) (id : EnvironmentId)
    {change : Environment → Environment}
    (hchange : (store.environment id).HasSoundBodies →
      (change (store.environment id)).HasSoundBodies) :
    (store.update id change).HasSoundBodies := by
  intro other
  by_cases hother : other = id
  · subst hother
    by_cases hid : other < store.environments.size
    · rw [environment_update_self store other change hid]
      exact hchange (h other)
    · have hnone : (store.update other change).environment other = store.environment other := by
        have hget := Array.getElem?_eq_none (Nat.le_of_not_lt hid)
        simp [environment, update, Array.getElem?_modify, hget]
      rw [hnone]
      exact h other
  · rw [environment_update_of_ne store change hother]
    exact h other

/-- So does a new environment in which the bodies are well formed. -/
theorem hasSoundBodies_allocate (h : store.HasSoundBodies) {new : Environment}
    (hnew : new.HasSoundBodies) : ((allocate new).run store).2.HasSoundBodies := by
  intro id
  rcases Nat.lt_trichotomy id store.environments.size with hid | rfl | hid
  · rw [environment_allocate store new hid]
    exact h id
  · rw [environment_allocate_self]
    exact hnew
  · have hnone : ((allocate new).run store).2.environment id = .empty := by
      have hsize := size_allocate store new
      rw [environment, Array.getElem?_eq_none (by omega)]
      rfl
    rw [hnone]
    intro name value hvalue
    cases hvalue

/-- Quoting keeps the bodies of functions sound. -/
theorem allowsQuoting_keepsSoundBodies : AllowsQuoting KeepsSoundBodies where
  elsewhere h hbefore id := by
    rw [environment, h]
    exact hbefore id
  symbol store id symbol hbefore := hasSoundBodies_update hbefore id fun h => h

/-- A call finds the closures in its environment in that of the closure or in its arguments. -/
theorem hasSoundBodies_enterCall (h : store.HasSoundBodies) (captured : EnvironmentId)
    (formals : List String) {arguments : List Value}
    (harguments : ∀ argument ∈ arguments, argument.HasSoundBodies) :
    (store.enterCall captured formals arguments).HasSoundBodies := by
  refine hasSoundBodies_allocate h fun name value hvalue => ?_
  rcases Table.get?_insertAll_eq_some hvalue with hargument | hbound
  · exact harguments value (List.of_mem_zip hargument).2
  · exact h captured name value hbound

/-- A definition with a sound body keeps the bodies of functions sound. -/
theorem hasSoundBodies_define (h : store.HasSoundBodies) (id : EnvironmentId) (name : String)
    {value : Value} (hvalue : value.HasSoundBodies) :
    (store.update id (·.define name value)).HasSoundBodies := by
  refine hasSoundBodies_update h id fun hbefore other bound hbound => ?_
  rw [Environment.get?, Environment.define, Table.get?_insert] at hbound
  split at hbound
  next =>
    cases hbound
    exact hvalue
  next => exact hbefore other bound hbound

/-- There are no closures in an initial store with the primitive functions. -/
theorem hasSoundBodies_allocateGlobal (clock : Clock) :
    (allocateGlobal.run (initial clock)).2.HasSoundBodies := by
  have hempty : (initial clock).HasSoundBodies := fun _ => nofun
  refine hasSoundBodies_allocate (allowsQuoting_keepsSoundBodies.elsewhere rfl hempty) ?_
  intro name value hvalue
  rcases Table.get?_insertAll_eq_some hvalue with hprimitive | hnone
  · obtain ⟨_, _, rfl⟩ := Environment.of_mem_primitiveBindings hprimitive
    trivial
  · cases hnone

end Store

/-! ## Well-formed code with another fallback -/

/-- Another evaluation runs in the same way, and all bodies of closures stay well formed. -/
abbrev Action.RunsSoundly (action other : Evaluation Value) (store : Store) : Prop :=
  action.Coincides Store.KeepsSoundBodies (fun value _ => value.HasSoundBodies) other store

/-- A literal that is well formed needs no fallback. -/
theorem literalWith_eq {token : Token} (h : token.isWellFormed = true)
    (hkind : token.kind ≠ .identifier) : literalWith fallback token = pure (.ofLiteral token) := by
  rcases Token.isWellFormed_cases h with ⟨hidentifier, -⟩ | ⟨constant, -, hconstant, -⟩
  · exact absurd hidentifier hkind
  · rw [literalWith, Value.ofLiteral, hconstant]

/-- A row is well formed exactly if all of its expressions are. -/
theorem Expression.areWellFormed_iff {row : List Expression} :
    areWellFormed row = true ↔ ∀ expression ∈ row, expression.isWellFormed = true := by
  induction row with
  | nil => simp [areWellFormed]
  | cons expression row ih => simp [areWellFormed, ih]

/-- Calls coincide if the evaluations of code do. -/
theorem callWith_coincides {evaluate evaluate' : EnvironmentId → Expression → Evaluation Value}
    (h : ∀ {id expression store}, Store.HasSoundBodies store → expression.isWellFormed = true →
      (evaluate id expression).RunsSoundly (evaluate' id expression) store)
    {function : Function} {arguments : List Value} {store : Store} (hstore : store.HasSoundBodies)
    (hfunction : function.HasSoundBody)
    (harguments : ∀ argument ∈ arguments, argument.HasSoundBodies) :
    (callWith evaluate function arguments).RunsSoundly (callWith evaluate' function arguments)
      store := by
  cases function with
  | primitive identity name procedure =>
    refine .refl ((procedure.call_ensures arguments store).mono ?_ ?_ fun _ _ => trivial)
    · exact fun _ hsame => Store.allowsQuoting_keepsSoundBodies.elsewhere hsame
    · exact fun value _ _ hvalue => hvalue _ harguments
  | closure identity formals body captured =>
    rcases Nat.lt_or_ge arguments.length formals.length with hcount | hcount
    · rw [callWith, if_pos hcount, callWith, if_pos hcount]
      exact .refl (.fail trivial)
    · have henter := Store.hasSoundBodies_enterCall hstore captured formals harguments
      have hbody : (evaluateBody (evaluate store.environments.size) body).RunsSoundly
          (evaluateBody (evaluate' store.environments.size) body)
          (store.enterCall captured formals arguments) := by
        apply Action.Coincides.foldlM body trivial
        intro expression hexpression _ before hbefore _
        exact h (hbefore henter) (Expression.areWellFormed_iff.1 hfunction expression hexpression)
      have hrun := callWith_closure evaluate identity body captured hcount store
      constructor
      · exact .of_runOn_eq hrun (fun _ => henter) hbody.ensures
      · rw [hrun, callWith_closure evaluate' identity body captured hcount store]
        exact hbody.runOn_eq

/-- A well-formed expression runs in the same way with any fallback. -/
theorem evaluate_coincides (fallback : Token → Evaluation Value) (fuel : Nat)
    {id : EnvironmentId} {expression : Expression} {store : Store} (hstore : store.HasSoundBodies)
    (h : expression.isWellFormed = true) :
    (evaluate fuel id expression).RunsSoundly (evaluateWith fallback fuel id expression) store := by
  induction fuel generalizing id expression store with
  | zero => exact .refl .exhausted
  | succ fuel ih =>
    cases expression with
    | literal token =>
      rw [evaluate, evaluateWith]
      split
      next =>
        apply Action.Coincides.bind fun found after => after = store ∧
          found = (store.environment id).get? token.text
        · exact .refl (.lift (refl_of _ store) ⟨rfl, rfl⟩)
        rintro found _ _ ⟨rfl, hfound⟩
        cases found with
        | some value => exact .refl (.pure (hstore id token.text value hfound.symm))
        | none => exact .refl (.fail trivial)
      next hkind =>
        rw [literalWith_eq h hkind]
        exact .refl (.pure (Value.everyFunction_ofLiteral _ token))
    | quoted datum =>
      rw [evaluate, evaluateWith, quoteDatumWith_eq id datum fun token htoken hkind =>
        literalWith_eq (datum.isWellFormed_of_mem_atoms h token htoken) hkind]
      have hquoted := quoteDatum_ensures Store.allowsQuoting_keepsSoundBodies id store datum
      refine .refl (hquoted.mono (fun _ hafter => hafter) ?_ fun _ _ => trivial)
      exact fun value _ _ hvalue => hvalue.mono (fun _ hnone => hnone.elim) value
    | conditional predicate consequent alternative =>
      simp only [Expression.isWellFormed, Bool.and_eq_true] at h
      rw [evaluate, evaluateWith]
      apply Action.Coincides.bind _ (ih hstore h.1.1)
      intro value after hafter _
      cases value with
      | boolean b =>
        cases b with
        | true => exact ih (hafter hstore) h.1.2
        | false => exact ih (hafter hstore) h.2
      | _ => exact .refl (.fail trivial)
    | lambda formals body =>
      simp only [Expression.isWellFormed, Bool.and_eq_true] at h
      rw [evaluate, evaluateWith]
      apply Action.Coincides.bind fun function _ => function.HasSoundBody
      · exact .refl (.lift (Store.allowsQuoting_keepsSoundBodies.elsewhere rfl) h.2)
      · exact fun function after _ hfunction => .refl (.pure hfunction)
    | application head arguments =>
      simp only [Expression.isWellFormed, Bool.and_eq_true, Expression.areWellFormed_iff] at h
      rw [evaluate, evaluateWith]
      apply Action.Coincides.bind _ (ih hstore h.1)
      intro value middle hmiddle hvalue
      cases value with
      | function function =>
        apply Action.Coincides.bind fun values _ => ∀ value ∈ values, value.HasSoundBodies
        · apply Action.Coincides.mapM arguments (fun _ _ _ _ hgood => hgood)
          intro argument hargument before hbefore
          exact ih (hbefore (hmiddle hstore)) (h.2 argument hargument)
        · intro values after hafter hvalues
          exact callWith_coincides ih (hafter (hmiddle hstore)) hvalue hvalues
      | _ => exact .refl (.fail trivial)

/-- So does a well-formed form. -/
theorem evaluateForm_coincides (fallback : Token → Evaluation Value) (fuel : Nat)
    (id : EnvironmentId) {form : Form} {store : Store} (hstore : store.HasSoundBodies)
    (h : form.isWellFormed = true) :
    (evaluateForm fuel id form).RunsSoundly (evaluateFormWith fallback fuel id form) store := by
  cases form with
  | expression whole => exact evaluate_coincides fallback fuel hstore h
  | definition name value =>
    simp only [Form.isWellFormed, Bool.and_eq_true] at h
    rw [evaluateForm, evaluateFormWith]
    apply Action.Coincides.bind _ (evaluate_coincides fallback fuel hstore h.2)
    intro bound after _ hbound
    apply Action.Coincides.bind fun _ _ => True
    · exact .refl (.lift (fun hafter => Store.hasSoundBodies_define hafter id name.text hbound)
        trivial)
    · exact fun _ _ _ _ => .refl (.pure trivial)

/-- So do the forms of a well-formed program in turn, up to the first error. -/
theorem evaluateProgram_coincides (fallback : Token → Evaluation Value) (fuel : Nat)
    (id : EnvironmentId) {program : Program} {store : Store} (hstore : store.HasSoundBodies)
    (h : program.isWellFormed = true) :
    (evaluateProgram fuel id program).RunsSoundly (evaluateProgramWith fallback fuel id program)
      store := by
  apply Action.Coincides.foldlM program trivial
  intro form hform _ before hbefore _
  exact evaluateForm_coincides fallback fuel id (hbefore hstore)
    (List.all_eq_true.1 h form hform)

/-- Items are observed one after the other, each in the store that the one before it left. -/
theorem run_observeAll_cons {α ε : Type} {action : α → Action ε Value} {clock : Clock} {item : α}
    {store after : Store} {observation : Observation ε}
    (h : ((action item).observe clock).run store = (observation, after)) (rest : List (Clock × α)) :
    (observeAll action ((clock, item) :: rest)).run store =
      (observation :: ((observeAll action rest).run after).1,
        ((observeAll action rest).run after).2) := by
  rw [observeAll, StateT.run_bind, h]
  rfl

/-- So do well-formed forms one by one, going on after errors. -/
theorem observeAll_evaluateFormWith (fallback : Token → Evaluation Value) (fuel : Nat)
    (id : EnvironmentId) {timed : List (Clock × Form)} {store : Store}
    (hstore : store.HasSoundBodies)
    (h : ∀ entry ∈ timed, entry.2.isWellFormed = true) :
    (observeAll (evaluateFormWith fallback fuel id) timed).run store =
      (observeAll (evaluateForm fuel id) timed).run store := by
  induction timed generalizing store with
  | nil => rfl
  | cons entry timed ih =>
    obtain ⟨clock, form⟩ := entry
    obtain ⟨hform, htimed⟩ := List.forall_mem_cons.1 h
    have hbegin : (store.begin clock).HasSoundBodies :=
      Store.allowsQuoting_keepsSoundBodies.elsewhere rfl hstore
    have hform := evaluateForm_coincides fallback fuel id hbegin hform
    have hafter := hform.ensures.follows hbegin
    have hother := hform.runOn_eq
    cases hrun : (evaluateForm fuel id form).runOn (store.begin clock) with
    | mk ending after =>
      rw [hrun] at hafter hother
      rw [run_observeAll_cons (Action.run_observe hother),
        run_observeAll_cons (Action.run_observe hrun), ih hafter htimed]

/-! ## Programs that are read -/

open Script

/-- Forms that are read from sources are well formed, whatever else is in the sources. -/
theorem isWellFormed_of_read {program : Program}
    (h : ∀ form ∈ program, ∃ source, form ∈ (readSource source).1) :
    program.isWellFormed = true := by
  rw [Program.isWellFormed, List.all_eq_true]
  intro form hform
  obtain ⟨source, hsource⟩ := h form hform
  exact List.all_eq_true.1 (readSource_isWellFormed source) form hsource

/-- A program of forms that are read from sources, also beside malformed ones, is sound in all its
parts.  A compiler gives no script for it exactly if it holds quoted data, which is the reason
then; and behind the opening, a script of it is free of the word for nothing.  Its evaluation never
comes to a literal without a constant: it runs in the same way with any action in the place of nil
there, as a program up to the first error and form by form. -/
theorem sound_of_read {program : Program}
    (h : ∀ form ∈ program, ∃ source, form ∈ (readSource source).1) :
    (∀ form ∈ program, form.Sound) ∧
    (∀ (compiler : Compiler) reason, (compiler.compile program).1 = .error reason ↔
      reason = .quotedDatum ∧ ∃ datum, .quoted datum ∈ program.parts) ∧
    (∀ (compiler : Compiler) text, (compiler.compile program).1 = .ok text →
      ∃ script, text = lines compiler.opening ++ script ∧ Piece.null ∉ cut script.toList) ∧
    (∀ fuel id, evaluateFormWith (fun _ => pure .nil) fuel id = evaluateForm fuel id) ∧
    ∀ (fallback : Token → Evaluation Value) fuel clock,
      let session := Session.new fuel clock
      (evaluateProgramWith fallback fuel session.environment program).runOn session.store =
          (evaluateProgram fuel session.environment program).runOn session.store ∧
        ∀ timed : List (Clock × Form), (∀ entry ∈ timed, entry.2 ∈ program) →
          (evaluateFormsWith fallback fuel timed).run (Store.initial clock) =
            (evaluateForms fuel timed).run (Store.initial clock) := by
  have hwell := isWellFormed_of_read h
  have hforms := List.all_eq_true.1 hwell
  refine ⟨fun form hform => Form.sound_of_isWellFormed (hforms form hform), ?_, ?_,
    evaluateFormWith_nil, fun fallback fuel clock => ⟨?_, fun timed htimed => ?_⟩⟩
  · intro compiler reason
    rw [Compiler.compile_eq_error_iff]
    exact Statement.ofProgram_eq_error_iff hwell compiler.openingNames
  · exact fun compiler text htext => Compiler.null_not_mem_script hwell htext
  · have hstore := Store.hasSoundBodies_allocateGlobal clock
    exact (evaluateProgram_coincides fallback fuel _ hstore hwell).runOn_eq
  · have hstore := Store.hasSoundBodies_allocateGlobal clock
    exact observeAll_evaluateFormWith fallback fuel _ hstore fun entry hentry =>
      hforms entry.2 (htimed entry hentry)

/-- Forms between two malformed ones, of which one quotes a symbol. -/
theorem sound_of_read_recovered :
    let source := "(define x) (define f (lambda (y) 'z (if #t #\\c y))) (f \"null\") )"
    let program := (readSource source).1
    (readSource source).2.length = 2 ∧ program.length = 2 ∧ (∀ form ∈ program, form.Sound) ∧
      ∀ compiler : Compiler, (compiler.compile program).1 = .error .quotedDatum := by
  intro source program
  obtain ⟨hsound, hcompile, -⟩ :=
    sound_of_read (fun form hform => ⟨source, hform⟩ : ∀ form ∈ program, _)
  have hfails : ((Compiler.new false).compile program).1 = .error .quotedDatum := by
    decide +kernel
  obtain ⟨-, hquoted⟩ := (hcompile (Compiler.new false) _).1 hfails
  exact ⟨by decide +kernel, by decide +kernel, hsound,
    fun compiler => (hcompile compiler _).2 ⟨rfl, hquoted⟩⟩

end MiniScheme
