import MiniScheme.Form.Reader
import MiniScheme.Proofs.Frame

/-!
# Well-scoped programs

In a well-scoped program every name is a formal around it, a primitive function, or defined by
an earlier form; only a function that is defined directly may use its own name.  A closure sees
the names of the environment that it was made in as this environment is when the closure is
called, and environments made by calls do not see later definitions.  So the invariant is about
every closure in the store: the names that its body needs, besides its formals, are bound where
it was made.  The only closure that is made before a name it needs is bound is the one that a
definition binds to this name at once.

Main results:

- Theorem `evaluate_scoped`: an expression whose names are bound finds them all, and makes and
  calls only closures that have what they need.
- Theorem `evaluateProgram_ne_undefinedIdentifier`: in a well-scoped program no name is
  undefined.
-/

namespace MiniScheme

/-! ## Scopes -/

mutual

/-- Whether each name in an expression, outside quoted data, is a formal around it or one of
some names. -/
def Expression.isScoped : List String → Expression → Bool
  | names, .literal token => token.kind ≠ .identifier || names.contains token.text
  | _, .quoted _ => true
  | names, .conditional predicate consequent alternative =>
    predicate.isScoped names && consequent.isScoped names && alternative.isScoped names
  | names, .lambda formals body => Expression.areScoped (formals.map Token.text ++ names) body
  | names, .application head arguments =>
    head.isScoped names && Expression.areScoped names arguments

/-- Whether so is each name in a row of expressions. -/
def Expression.areScoped : List String → List Expression → Bool
  | _, [] => true
  | names, expression :: row => expression.isScoped names && Expression.areScoped names row

end

/-- Whether so is each name in a form.  A function that is defined directly may use its name. -/
def Form.isScoped (names : List String) : Form → Bool
  | definition name (.lambda formals body) =>
    (Expression.lambda formals body).isScoped (name.text :: names)
  | definition _ value => value.isScoped names
  | expression whole => whole.isScoped names

/-- The names that a form defines. -/
def Form.defined : Form → List String
  | definition name _ => [name.text]
  | expression _ => []

/-- Whether each name in a program is one of some names, or a formal around it, or defined by
an earlier form or by its own, as that form may use it. -/
def Program.isScoped : List String → Program → Bool
  | _, [] => true
  | names, form :: forms => form.isScoped names && Program.isScoped (form.defined ++ names) forms

/-- Every name in the program is a formal around it, a primitive function or defined before. -/
def Program.WellScoped (program : Program) : Prop :=
  isScoped (primitives.map Prod.fst) program = true

/-- A row is scoped when each expression of it is. -/
theorem Expression.areScoped_iff {names : List String} {row : List Expression} :
    areScoped names row = true ↔ ∀ expression ∈ row, expression.isScoped names = true := by
  induction row with
  | nil => simp [areScoped]
  | cons expression row ih => simp [areScoped, ih]

/-! ## Stores -/

/-- A name has a value in an environment. -/
def Store.Binds (store : Store) (id : EnvironmentId) (name : String) : Prop :=
  ((store.environment id).get? name).isSome = true

/-- A closure has what it needs: the names in its body are formals or bound in the environment
that it was made in, which is one of those from some number on. -/
def Function.HasNames (first : EnvironmentId) (store : Store) : Function → Prop
  | .primitive .. => True
  | .closure _ formals body captured =>
    first ≤ captured ∧ captured < store.environments.size ∧
      ∃ names, Expression.areScoped (formals ++ names) body = true ∧
        ∀ name ∈ names, store.Binds captured name

/-- Every closure in a value has what it needs. -/
abbrev Value.HasNames (first : EnvironmentId) (store : Store) (value : Value) : Prop :=
  value.EveryFunction (Function.HasNames first store)

/-- Every closure that is bound somewhere has what it needs. -/
def Store.Sound (first : EnvironmentId) (store : Store) : Prop :=
  ∀ id name value, first ≤ id → id < store.environments.size →
    (store.environment id).get? name = some value → value.HasNames first store

/-- All environments are still there, and all names that were bound. -/
structure Store.KeepsNames (before after : Store) : Prop where
  size_le : before.environments.size ≤ after.environments.size
  binds : ∀ id < before.environments.size, ∀ name, before.Binds id name → after.Binds id name

variable {first : EnvironmentId} {before after store : Store}

instance : IsPreorder Store Store.KeepsNames where
  refl _ := ⟨Nat.le_refl _, fun _ _ _ hname => hname⟩
  trans _ _ _ hfirst hsecond := by
    refine ⟨Nat.le_trans hfirst.size_le hsecond.size_le, fun id hid name hname => ?_⟩
    have hmiddle := hfirst.binds id hid name hname
    exact hsecond.binds id (Nat.lt_of_lt_of_le hid hfirst.size_le) name hmiddle

/-- Names stay bound where bindings stay the same. -/
theorem Store.KeepsBindings.keepsNames (h : before.KeepsAllBindings after) :
    before.KeepsNames after where
  size_le := h.size_le
  binds id hid name hname := by
    unfold Binds Environment.get? at hname ⊢
    rwa [h.bindings_eq id hid not_false]

/-- What a function needs stays bound. -/
theorem Function.HasNames.of_keepsNames (h : before.KeepsNames after) {function : Function}
    (hfunction : function.HasNames first before) : function.HasNames first after := by
  cases function with
  | primitive identity name procedure => trivial
  | closure identity formals body captured =>
    rcases hfunction with ⟨hfirst, hcaptured, names, hbody, hnames⟩
    refine ⟨hfirst, Nat.lt_of_lt_of_le hcaptured h.size_le, names, hbody, ?_⟩
    exact fun name hname => h.binds captured hcaptured name (hnames name hname)

/-- What a value needs stays bound. -/
theorem Value.HasNames.of_keepsNames (h : before.KeepsNames after) {value : Value}
    (hvalue : value.HasNames first before) : value.HasNames first after :=
  hvalue.mono (fun _ hfunction => hfunction.of_keepsNames h) value

/-- Bindings have stayed the same, and nothing has been bound that misses what it needs. -/
structure Store.KeepsSound (first : EnvironmentId) (before after : Store) : Prop where
  keeps : before.KeepsAllBindings after
  sound : before.Sound first → after.Sound first

instance : IsPreorder Store (Store.KeepsSound first) where
  refl store := ⟨refl_of _ store, id⟩
  trans _ _ _ hfirst hsecond :=
    ⟨trans_of _ hfirst.keeps hsecond.keeps, hsecond.sound ∘ hfirst.sound⟩

/-- Some names are bound in an environment of a store without closures that miss what they
need. -/
structure Store.InScope (first id : EnvironmentId) (names : List String) (store : Store) :
    Prop where
  sound : store.Sound first
  first_le : first ≤ id
  lt_size : id < store.environments.size
  binds : ∀ name ∈ names, store.Binds id name

/-- Names stay in scope where bindings stay the same. -/
theorem Store.InScope.of_keepsSound {id : EnvironmentId} {names : List String}
    (h : before.InScope first id names) (hkeeps : before.KeepsSound first after) :
    after.InScope first id names where
  sound := hkeeps.sound h.sound
  first_le := h.first_le
  lt_size := Nat.lt_of_lt_of_le h.lt_size hkeeps.keeps.size_le
  binds name hname := hkeeps.keeps.keepsNames.binds id h.lt_size name (h.binds name hname)

/-- Where no environment is made and no binding changes, sound stores stay sound. -/
theorem Store.KeepsBindings.keepsSound (h : before.KeepsAllBindings after)
    (hsize : after.environments.size = before.environments.size) :
    before.KeepsSound first after where
  keeps := h
  sound hbefore id name value hfirst hid hvalue := by
    rw [hsize] at hid
    unfold Environment.get? at hvalue
    rw [h.bindings_eq id hid not_false] at hvalue
    exact (hbefore id name value hfirst hid hvalue).of_keepsNames h.keepsNames

/-- Quoting binds nothing and leaves every closure sound. -/
theorem Store.allowsQuoting_keepsSound : AllowsQuoting (KeepsSound first) where
  elsewhere h :=
    (Step.elsewhere h : Step (fun _ => False) _ _).keepsBindings.keepsSound (by rw [h])
  symbol store id symbol :=
    (Step.symbol id symbol : Step (fun _ => False) _ _).keepsBindings.keepsSound
      (size_update store id _)

/-- A call finds the closures in its environment in the closure's environment or in its
arguments. -/
theorem Store.keepsSound_enterCall {captured : EnvironmentId} {formals : List String}
    {arguments : List Value} (hfirst : first ≤ captured)
    (hcaptured : captured < store.environments.size)
    (harguments : ∀ argument ∈ arguments, argument.HasNames first store)
    (hcount : formals.length ≤ arguments.length) :
    store.KeepsSound first (store.enterCall captured formals arguments) := by
  have hkeeps : store.KeepsAllBindings (store.enterCall captured formals arguments) :=
    (Step.call captured hcount).keepsBindings
  refine ⟨hkeeps, fun hstore id name value hid hlt hvalue => ?_⟩
  suffices h : value.HasNames first store from h.of_keepsNames hkeeps.keepsNames
  have hsize : id < store.environments.size + 1 := by
    simpa [enterCall] using hlt
  rcases Nat.lt_succ_iff_lt_or_eq.1 hsize with hold | rfl
  · unfold Environment.get? at hvalue
    rw [hkeeps.bindings_eq id hold not_false] at hvalue
    exact hstore id name value hid hold hvalue
  · rw [enterCall, environment_allocate_self] at hvalue
    rcases Table.get?_insertAll_eq_some hvalue with hargument | hbound
    · exact harguments value (List.of_mem_zip hargument).2
    · exact hstore captured name value hfirst hcaptured hbound

/-- A call binds the formals besides what is bound already. -/
theorem Store.binds_enterCall {captured : EnvironmentId} {formals : List String}
    {arguments : List Value} (hcount : formals.length ≤ arguments.length) {name : String}
    (h : name ∈ formals ∨ store.Binds captured name) :
    (store.enterCall captured formals arguments).Binds store.environments.size name := by
  unfold Binds
  rw [enterCall, environment_allocate_self]
  apply Table.isSome_get?_insertAll
  rwa [List.map_fst_zip hcount]

/-! ## Evaluation -/

/-- The error is not about an undefined name. -/
def EvalError.IsNotScope : EvalError → Prop
  | undefinedIdentifier _ => False
  | _ => True

/-- An error about arguments is not about an undefined name. -/
theorem EvalError.IsAboutArguments.isNotScope {error : EvalError} (h : error.IsAboutArguments) :
    error.IsNotScope := by
  cases error <;> trivial

/-- An action that keeps every closure in the store sound, and the one that it ends with. -/
abbrev Action.StaysSound (first : EnvironmentId) (action : Evaluation Value) (store : Store) :
    Prop :=
  action.Ensures (Store.KeepsSound first) (fun value after => value.HasNames first after)
    EvalError.IsNotScope store

/-- A call of a sound function stays sound where evaluation does. -/
theorem callWith_scoped {evaluate : EnvironmentId → Expression → Evaluation Value}
    (h : ∀ {id names expression store}, Store.InScope first id names store →
      expression.isScoped names = true → (evaluate id expression).StaysSound first store)
    {function : Function} {arguments : List Value} {store : Store} (hstore : store.Sound first)
    (hfunction : function.HasNames first store)
    (harguments : ∀ argument ∈ arguments, argument.HasNames first store) :
    (callWith evaluate function arguments).StaysSound first store := by
  cases function with
  | primitive identity name procedure =>
    apply (procedure.call_ensures arguments store).mono
    · exact fun _ hsame => Store.allowsQuoting_keepsSound.elsewhere hsame
    · intro value after hsame hvalue
      have hkeeps : store.KeepsSound first after := Store.allowsQuoting_keepsSound.elsewhere hsame
      apply hvalue
      intro argument hargument
      exact Value.HasNames.of_keepsNames hkeeps.keeps.keepsNames (harguments argument hargument)
    · exact fun _ herror => herror.isNotScope
  | closure identity formals body captured =>
    rcases hfunction with ⟨hfirst, hcaptured, names, hbody, hnames⟩
    rcases Nat.lt_or_ge arguments.length formals.length with hcount | hcount
    · rw [callWith, if_pos hcount]
      exact .fail trivial
    · have hkeeps : store.KeepsSound first (store.enterCall captured formals arguments) :=
        Store.keepsSound_enterCall hfirst hcaptured harguments hcount
      have hscope : (store.enterCall captured formals arguments).InScope first
          store.environments.size (formals ++ names) := by
        refine ⟨hkeeps.sound hstore, ?_, by simp [Store.enterCall], ?_⟩
        · exact Nat.le_of_lt (Nat.lt_of_le_of_lt hfirst hcaptured)
        · intro name hname
          exact Store.binds_enterCall hcount ((List.mem_append.1 hname).imp_right (hnames name))
      apply Action.Ensures.of_runOn_eq
        (callWith_closure evaluate identity body captured hcount store) hkeeps
      apply Action.Ensures.foldlM body trivial
      intro expression hexpression _ before hbefore _
      have hscoped := Expression.areScoped_iff.1 hbody expression hexpression
      exact h (hscope.of_keepsSound hbefore) hscoped

/-- An expression whose names are bound finds them, and makes and calls only closures that have
what they need. -/
theorem evaluate_scoped (fuel : Nat) {id : EnvironmentId} {names : List String}
    {expression : Expression} {store : Store} (hstore : store.InScope first id names)
    (hscoped : expression.isScoped names = true) :
    (evaluate fuel id expression).StaysSound first store := by
  induction fuel generalizing id names expression store with
  | zero => exact .exhausted
  | succ fuel ih =>
    cases expression with
    | literal token =>
      rw [evaluate]
      split
      next hkind =>
        have hname : token.text ∈ names := by
          simpa [Expression.isScoped, hkind] using hscoped
        apply Action.Ensures.bind
          fun found after => after = store ∧ found = (store.environment id).get? token.text
        · exact .lift (refl_of _ store) ⟨rfl, rfl⟩
        rintro found _ _ ⟨rfl, hfound⟩
        cases found with
        | some value =>
          exact .pure (hstore.sound id token.text value hstore.first_le hstore.lt_size hfound.symm)
        | none =>
          have hbinds := hstore.binds token.text hname
          rw [Store.Binds, ← hfound] at hbinds
          cases hbinds
      next => exact .pure (Value.everyFunction_ofLiteral _ token)
    | quoted datum =>
      apply (quoteDatum_ensures Store.allowsQuoting_keepsSound id store datum).mono
      · exact fun _ hafter => hafter
      · exact fun value _ _ hvalue => hvalue.mono (fun _ hnone => hnone.elim) value
      · exact fun _ hnone => hnone.elim
    | conditional predicate consequent alternative =>
      simp only [Expression.isScoped, Bool.and_eq_true] at hscoped
      rw [evaluate]
      apply Action.Ensures.bind _ (ih hstore hscoped.1.1)
      intro value after hafter _
      split
      · exact ih (hstore.of_keepsSound hafter) hscoped.1.2
      · exact ih (hstore.of_keepsSound hafter) hscoped.2
      · exact .fail trivial
    | lambda formals body =>
      rw [Expression.isScoped] at hscoped
      rw [evaluate]
      apply Action.Ensures.bind fun function after => function.HasNames first after
      · apply Action.Ensures.lift
        · exact Store.allowsQuoting_keepsSound.elsewhere rfl
        · exact ⟨hstore.first_le, hstore.lt_size, names, hscoped, hstore.binds⟩
      · exact fun function after _ hfunction => .pure hfunction
    | application head arguments =>
      simp only [Expression.isScoped, Bool.and_eq_true, Expression.areScoped_iff] at hscoped
      rw [evaluate]
      apply Action.Ensures.bind _ (ih hstore hscoped.1)
      intro value middle hmiddle hvalue
      have hscope : middle.InScope first id names := hstore.of_keepsSound hmiddle
      split
      next function =>
        apply Action.Ensures.bind
          fun values after => ∀ value ∈ values, value.HasNames first after
        · apply Action.Ensures.mapM arguments
          · intro value before after hkeeps hgood
            exact Value.HasNames.of_keepsNames hkeeps.keeps.keepsNames hgood
          · intro argument hargument before hbefore
            exact ih (hscope.of_keepsSound hbefore) (hscoped.2 argument hargument)
        · intro values after hafter hvalues
          have hfunction : function.HasNames first after :=
            Function.HasNames.of_keepsNames hafter.keeps.keepsNames hvalue
          exact callWith_scoped ih (hafter.sound hscope.sound) hfunction hvalues
      · exact .fail trivial

/-! ## Forms -/

/-- A definition binds its name and unbinds none. -/
theorem Store.binds_define {id : EnvironmentId} (hid : id < store.environments.size)
    (name : String) (value : Value) {other : EnvironmentId} {found : String}
    (h : other = id ∧ found = name ∨ store.Binds other found) :
    (store.update id (·.define name value)).Binds other found := by
  unfold Binds Environment.get? at h ⊢
  by_cases hother : other = id
  · subst hother
    rw [environment_update_self store other _ hid, Environment.define, Table.get?_insert]
    by_cases hfound : found = name
    · simp [hfound]
    · simpa [hfound] using h
  · rw [environment_update_of_ne store _ hother]
    simpa [hother] using h

/-- A definition unbinds no name. -/
theorem Store.keepsNames_define {id : EnvironmentId} (hid : id < store.environments.size)
    (name : String) (value : Value) : store.KeepsNames (store.update id (·.define name value)) where
  size_le := Nat.le_of_eq (size_update store id _).symm
  binds _ _ _ hbinds := binds_define hid name value (.inr hbinds)

/-- To bind a value that has what it needs, once it is bound, adds its name to those in
scope. -/
theorem Store.InScope.define {id : EnvironmentId} {names : List String}
    (h : store.InScope first id names) (name : String) {value : Value}
    (hvalue : value.HasNames first (store.update id (·.define name value))) :
    (store.update id (·.define name value)).InScope first id (name :: names) where
  sound other found bound hfirst hother hbound := by
    rw [size_update] at hother
    have hkeeps := keepsNames_define h.lt_size name value
    by_cases hid : other = id
    · subst hid
      rw [environment_update_self store other _ hother, Environment.get?, Environment.define,
        Table.get?_insert] at hbound
      split at hbound
      next =>
        cases hbound
        exact hvalue
      next => exact (h.sound other found bound hfirst hother hbound).of_keepsNames hkeeps
    · rw [environment_update_of_ne store _ hid] at hbound
      exact (h.sound other found bound hfirst hother hbound).of_keepsNames hkeeps
  first_le := h.first_le
  lt_size := by
    rw [size_update]
    exact h.lt_size
  binds found hfound := by
    rcases List.mem_cons.1 hfound with rfl | hold
    · exact binds_define h.lt_size found value (.inl ⟨rfl, rfl⟩)
    · exact binds_define h.lt_size name value (.inr (h.binds found hold))

/-- An action after which some names are in scope, as all are that were. -/
abbrev Action.Extends (first id : EnvironmentId) (names : List String)
    (action : Evaluation Value) (store : Store) : Prop :=
  action.Ensures Store.KeepsNames (fun _ after => after.InScope first id names)
    EvalError.IsNotScope store

/-- A lambda expression only makes a closure. -/
theorem evaluate_lambda (fuel : Nat) (id : EnvironmentId) (formals : List Token)
    (body : List Expression) (store : Store) :
    (evaluate fuel id (.lambda formals body)).Ensures Store.SameEnvironments
      (fun value _ => ∃ identity,
        value = .function (.closure identity (formals.map Token.text) body id))
      (fun _ => False) store := by
  cases fuel with
  | zero => exact .exhausted
  | succ fuel =>
    rw [evaluate]
    apply Action.Ensures.bind fun function _ => ∃ identity,
      function = .closure identity (formals.map Token.text) body id
    · exact .lift rfl ⟨store.nextObject, rfl⟩
    · rintro _ after _ ⟨identity, rfl⟩
      exact .pure ⟨identity, rfl⟩

/-- A definition adds its name to those in scope if its value has what it needs once it is
bound. -/
theorem evaluateForm_define_scoped {fuel : Nat} {id : EnvironmentId} {names : List String}
    {name : Token} {value : Expression} {store : Store} (hstore : store.InScope first id names)
    (h : (evaluate fuel id value).Ensures (Store.KeepsSound first)
      (fun bound after => bound.HasNames first (after.update id (·.define name.text bound)))
      EvalError.IsNotScope store) :
    (evaluateForm fuel id (.definition name value)).Extends first id (name.text :: names)
      store := by
  apply Action.Ensures.bind fun bound after => after.InScope first id names ∧
    bound.HasNames first (after.update id (·.define name.text bound))
  · apply h.mono
    · exact fun _ hafter => hafter.keeps.keepsNames
    · exact fun _ _ hafter hbound => ⟨hstore.of_keepsSound hafter, hbound⟩
    · exact fun _ herror => herror
  rintro bound after _ ⟨hafter, hbound⟩
  apply Action.Ensures.bind fun _ after => after.InScope first id (name.text :: names)
  · apply Action.Ensures.lift
    · exact Store.keepsNames_define hafter.lt_size name.text bound
    · exact hafter.define name.text hbound
  · exact fun _ _ _ hscope => .pure hscope

/-- A form that is well scoped finds every name and adds those that it defines. -/
theorem evaluateForm_scoped (fuel : Nat) {id : EnvironmentId} {names : List String} {form : Form}
    {store : Store} (hstore : store.InScope first id names) (hform : form.isScoped names = true) :
    (evaluateForm fuel id form).Extends first id (form.defined ++ names) store := by
  cases form with
  | expression whole =>
    apply (evaluate_scoped fuel hstore hform).mono
    · exact fun _ hafter => hafter.keeps.keepsNames
    · exact fun _ after hafter _ => hstore.of_keepsSound hafter
    · exact fun _ herror => herror
  | definition name value =>
    apply evaluateForm_define_scoped hstore
    unfold Form.isScoped at hform
    split at hform
    next _ _ formals body hdefinition =>
      cases hdefinition
      -- the closure needs its own name, which is bound only after it has been made
      apply (evaluate_lambda fuel id formals body store).mono
      · exact fun _ hafter => Store.allowsQuoting_keepsSound.elsewhere hafter
      · rintro _ after hafter ⟨identity, rfl⟩
        have hscope := hstore.of_keepsSound (Store.allowsQuoting_keepsSound.elsewhere hafter)
        refine ⟨hscope.first_le, ?_, name.text :: names, hform, fun found hfound => ?_⟩
        · rw [Store.size_update]
          exact hscope.lt_size
        · apply Store.binds_define hscope.lt_size
          exact (List.mem_cons.1 hfound).imp (fun h => ⟨rfl, h⟩) (hscope.binds found)
      · exact fun _ hnone => hnone.elim
    next _ _ _ hdefinition =>
      cases hdefinition
      apply (evaluate_scoped fuel hstore hform).mono
      · exact fun _ hafter => hafter
      · intro bound after hafter hbound
        have hlt := (hstore.of_keepsSound hafter).lt_size
        exact hbound.of_keepsNames (Store.keepsNames_define hlt name.text bound)
      · exact fun _ herror => herror
    next hdefinition => cases hdefinition

/-- So do the forms of a program in turn. -/
theorem evaluateProgram_scoped (fuel : Nat) {id : EnvironmentId} {names : List String}
    {program : Program} {store : Store} (hstore : store.InScope first id names)
    (hprogram : Program.isScoped names program = true) :
    (evaluateProgram fuel id program).Ensures Store.KeepsNames (fun _ _ => True)
      EvalError.IsNotScope store := by
  unfold evaluateProgram
  generalize Value.nil = last
  induction program generalizing names store last with
  | nil => exact .pure trivial
  | cons form forms ih =>
    rw [Program.isScoped, Bool.and_eq_true] at hprogram
    rw [List.foldlM_cons]
    apply Action.Ensures.bind _ (evaluateForm_scoped fuel hstore hprogram.1)
    exact fun value after _ hafter => ih hafter hprogram.2 value

/-- No closure is among the primitive functions. -/
theorem Environment.hasNames_of_mem_primitiveBindings {identity : Nat}
    {procedures : List (String × Procedure)} {name : String} {value : Value}
    (h : (name, value) ∈ primitiveBindings identity procedures) : value.HasNames first store := by
  obtain ⟨_, _, rfl⟩ := of_mem_primitiveBindings h
  trivial

/-- A new environment of the primitive functions binds their names. -/
theorem Store.inScope_allocateGlobal (store : Store) :
    (allocateGlobal.run store).2.InScope store.environments.size store.environments.size
      (primitives.map Prod.fst) := by
  have hmade : (allocateGlobal.run store).2.environment store.environments.size =
      .global store.nextObject :=
    environment_allocate_self _ _
  have hsize : (allocateGlobal.run store).2.environments.size = store.environments.size + 1 :=
    size_allocate _ _
  refine ⟨?_, Nat.le_refl _, by rw [hsize]; exact Nat.lt_succ_self _, ?_⟩
  · intro id name value hfirst hid hvalue
    rw [hsize] at hid
    rw [Nat.le_antisymm (Nat.le_of_lt_succ hid) hfirst, hmade] at hvalue
    rcases Table.get?_insertAll_eq_some hvalue with hprimitive | hempty
    · exact Environment.hasNames_of_mem_primitiveBindings hprimitive
    · cases hempty
  · intro name hname
    rw [Binds, hmade]
    apply Table.isSome_get?_insertAll
    rw [Environment.map_fst_primitiveBindings]
    exact .inl hname

/-- A well-scoped program that is evaluated in a new environment of the primitive functions
never ends because a name is undefined, whatever else there is in the store. -/
theorem evaluateProgram_ne_undefinedIdentifier {program : Program} (h : program.WellScoped)
    (fuel : Nat) (store : Store) (name : String) :
    ((evaluateProgram fuel (Store.allocateGlobal.run store).1 program).runOn
      (Store.allocateGlobal.run store).2).1 ≠ .error (.failed (.undefinedIdentifier name)) := by
  intro hresult
  have hprogram := evaluateProgram_scoped fuel store.inScope_allocateGlobal h
  exact hprogram.admits _ hresult

/-- A function that calls itself, a closure that is called after a definition of the name that
it has captured, and a symbol that is no name. -/
theorem evaluateProgram_ne_undefinedIdentifier_closures :
    let source := "(define f (lambda (l) (if (null? l) 0 (f (cdr l)))))" ++
      "(define k (lambda (n) (lambda () (f n)))) (define g (k '(a))) (define n 1) (g)"
    Program.WellScoped (readSource source).1 ∧
      ∀ fuel name, ((evaluateProgram fuel 0 (readSource source).1).runOn
        (Store.allocateGlobal.run (Store.initial 0)).2).1 ≠
          .error (.failed (.undefinedIdentifier name)) := by
  intro source
  have h : Program.WellScoped (readSource source).1 := by
    unfold Program.WellScoped
    decide +kernel
  refine ⟨h, fun fuel name => ?_⟩
  exact evaluateProgram_ne_undefinedIdentifier h fuel (Store.initial 0) name

/-- A closure that is made by a call does not see what is defined after the call. -/
example : ¬Program.WellScoped (readSource
    "(define make (lambda (a) (lambda (b) y))) (define f (make 1)) (define y 5) (f 2)").1 := by
  unfold Program.WellScoped
  decide +kernel

end MiniScheme
