import MiniScheme.Proofs.Census
import MiniScheme.Proofs.SymbolTables

/-!
# Values that can be obtained

Values are made by evaluation, and by constructors that mint a symbol or make a cell, a list or a
function; they are stored in environments, taken from there, and taken apart.  Whatever is done, and
whatever of it fails, there is a census that has everything that has been handed out.

Main results:

- Theorem `evaluate_counts`: evaluation counts what it makes.
- Theorem `Scene.Obtained.counted`: whatever has been obtained is in a census.
-/

namespace MiniScheme

section

variable {ε : Type} {known : Set Value} {store : Store}

/-! ## Quoting -/

/-- The constant of a literal is known. -/
theorem Store.Census.mem_ofLiteral (h : store.Census known) (token : Token) :
    .ofLiteral token ∈ known :=
  h.plain (Value.identity?_ofLiteral token)

/-- A new list of known values is counted. -/
theorem Store.list_counts (h : store.Census known) {values : List Value}
    (hvalues : ∀ value ∈ values, value ∈ known) :
    (liftM (Value.list <$> Store.list values) : Action ε Value).CountsValue known store :=
  .lift Set.subset_union_left (h.list hvalues) (store.list_mem_newLists (h.plain rfl) values 0)

/-- Interning a name makes a symbol, or finds one that is known. -/
theorem Store.intern_census (h : store.Census known) (id : EnvironmentId) (name : String) :
    ∃ later, known ⊆ later ∧ ((intern id name).run store).2.Census later ∧
      .symbol ((intern id name).run store).1 ∈ later := by
  cases hentry : (store.environment id).symbol? name with
  | some symbol =>
    rw [intern_of_some hentry]
    exact ⟨known, subset_rfl, h, (h.environments id).symbols hentry⟩
  | none =>
    rw [intern_of_none hentry]
    exact ⟨_, Set.subset_union_left, h.mint id name, .inr rfl⟩

mutual

/-- Quoting makes symbols and lists. -/
theorem quoteDatum_census (id : EnvironmentId) : ∀ (datum : Datum) {known : Set Value}
    {store : Store}, store.Census known → ∃ later, known ⊆ later ∧
      ((quoteDatum id datum).run store).2.Census later ∧
        ((quoteDatum id datum).run store).1 ∈ later
  | .atom token, known, store, h => by
    by_cases hkind : token.kind = .identifier
    · rw [quoteDatum_identifier hkind]
      exact Store.intern_census h id token.text
    · rw [quoteDatum_literal hkind]
      exact ⟨known, subset_rfl, h, h.mem_ofLiteral token⟩
  | .list items, known, store, h => by
    obtain ⟨middle, hmiddle, hcensus, hvalues⟩ := quoteItems_census id items h
    rw [quoteDatum_list]
    exact ⟨_, hmiddle.trans Set.subset_union_left, hcensus.list hvalues,
      Store.list_mem_newLists _ (hcensus.plain rfl) _ 0⟩

/-- Quoting a row of data is counted: its values are known in a later census. -/
theorem quoteItems_census (id : EnvironmentId) : ∀ (items : List Datum) {known : Set Value}
    {store : Store}, store.Census known → ∃ later, known ⊆ later ∧
      ((quoteItems id items).run store).2.Census later ∧
        ∀ value ∈ ((quoteItems id items).run store).1, value ∈ later
  | [], known, store, h => by
    rw [quoteItems]
    exact ⟨known, subset_rfl, h, nofun⟩
  | item :: items, known, store, h => by
    obtain ⟨middle, hmiddle, hcensus, hvalue⟩ := quoteDatum_census id item h
    obtain ⟨later, hlater, hcensus', hvalues⟩ := quoteItems_census id items hcensus
    rw [quoteItems_cons]
    exact ⟨later, hmiddle.trans hlater, hcensus', List.forall_mem_cons.2 ⟨hlater hvalue, hvalues⟩⟩

end

/-! ## Procedures -/

/-- What is selected is a part of the list. -/
theorem Selector.select_counts (h : store.Census known) (selector : Selector) {cells : Cells}
    (hcells : .list cells ∈ known) :
    (Action.ofExcept (selector.select cells)).CountsValue known store := by
  refine .ofExcept h fun value hvalue => ?_
  unfold select at hvalue
  split at hvalue <;> cases hvalue
  · exact (h.parts hcells).1
  · exact (h.parts hcells).2

/-- An operation on numbers is counted. -/
theorem NumericOperation.call_counts (h : store.Census known) (operation : NumericOperation)
    (numbers : List Int64) : (operation.call numbers).CountsValue known store := by
  unfold call
  split
  next operator _ =>
    apply Action.Counts.bind fun _ _ => True
    · exact .ofExcept h fun _ _ => trivial
    · exact fun _ _ _ _ hafter _ => .pure hafter (hafter.plain rfl)
  next => exact .pure h (h.plain rfl)
  next => exact .fail h
  next =>
    refine Store.list_counts h fun value hvalue => ?_
    obtain ⟨n, -, rfl⟩ := List.mem_map.1 hvalue
    exact h.plain rfl

/-- An operation on booleans is counted. -/
theorem BooleanOperation.call_counts (h : store.Census known) (operation : BooleanOperation)
    (booleans : List Bool) : (operation.call booleans).CountsValue known store := by
  unfold call
  split
  next => exact .pure h (h.plain rfl)
  next => exact .pure h (h.plain rfl)
  next => exact .pure h (h.plain rfl)
  next => exact .fail h
  next =>
    refine Store.list_counts h fun value hvalue => ?_
    obtain ⟨b, -, rfl⟩ := List.mem_map.1 hvalue
    exact h.plain rfl

/-- A general operation on known values is counted. -/
theorem GeneralOperation.call_counts (h : store.Census known) (operation : GeneralOperation)
    {values : List Value} (hvalues : ∀ value ∈ values, value ∈ known) :
    (operation.call values).CountsValue known store := by
  unfold call
  split
  next selector cells => exact selector.select_counts h (hvalues _ List.mem_cons_self)
  next => exact .fail h
  next => exact .fail h
  next => exact .pure h (h.plain rfl)
  next => exact .pure h (h.plain rfl)
  next => exact .fail h
  next => exact .pure h (h.plain rfl)
  next => exact .fail h
  next =>
    apply Action.Counts.bind fun _ _ => True
    · exact .lift subset_rfl (h.of_same ⟨rfl, rfl⟩ (Nat.le_refl _)) trivial
    · exact fun _ _ _ _ hafter _ => .pure hafter (hafter.plain rfl)
  next =>
    apply Action.Counts.bind fun _ _ => True
    · exact .lift subset_rfl (h.of_same ⟨rfl, rfl⟩ (Nat.le_refl _)) trivial
    · exact fun _ _ _ _ hafter _ => .pure hafter (hafter.plain rfl)
  next => exact Store.list_counts h hvalues

/-- A procedure gives a part of its arguments, a new list of them or of their contents, or a value
without an identity. -/
theorem Procedure.call_counts (h : store.Census known) (procedure : Procedure)
    {arguments : List Value} (harguments : ∀ argument ∈ arguments, argument ∈ known) :
    (procedure.call arguments).CountsValue known store := by
  induction procedure with
  | counted arity inner ih =>
    rw [call]
    split
    · exact ih
    · exact .fail h
  | numeric operation =>
    apply Action.Counts.bind fun _ _ => True
    · exact .ofExcept h fun _ _ => trivial
    · exact fun numbers _ _ _ hafter _ => operation.call_counts hafter numbers
  | boolean operation =>
    apply Action.Counts.bind fun _ _ => True
    · exact .ofExcept h fun _ _ => trivial
    · exact fun booleans _ _ _ hafter _ => operation.call_counts hafter booleans
  | general operation => exact operation.call_counts h harguments

/-! ## Evaluation -/

/-- A body is counted if the evaluation of its expressions is. -/
theorem evaluateBody_counts {evaluate : Expression → Evaluation Value}
    (hevaluate : ∀ expression (known : Set Value) (store : Store), store.Census known →
      (evaluate expression).CountsValue known store)
    (h : store.Census known) (body : List Expression) :
    (evaluateBody evaluate body).CountsValue known store :=
  .foldlM body h (h.plain rfl) fun expression _ _ later after _ hafter _ =>
    hevaluate expression later after hafter

/-- A call on known arguments is counted if the evaluation of expressions is. -/
theorem callWith_counts {evaluate : EnvironmentId → Expression → Evaluation Value}
    (hevaluate : ∀ id expression (known : Set Value) (store : Store), store.Census known →
      (evaluate id expression).CountsValue known store)
    (h : store.Census known) (function : Function) {arguments : List Value}
    (harguments : ∀ argument ∈ arguments, argument ∈ known) :
    (callWith evaluate function arguments).CountsValue known store := by
  cases function with
  | primitive identity name procedure => exact procedure.call_counts h harguments
  | closure identity formals body captured =>
    rcases Nat.lt_or_ge arguments.length formals.length with hcount | hcount
    · rw [callWith, if_pos hcount]
      exact .fail h
    · have hbody := evaluateBody_counts (hevaluate store.environments.size)
        (h.enterCall captured formals harguments) body
      unfold Action.CountsValue Action.Counts at hbody ⊢
      rwa [callWith_closure evaluate identity body captured hcount store]

/-- Evaluating an expression counts what it makes, in whatever environment. -/
theorem evaluate_counts (fuel : Nat) (id : EnvironmentId) (expression : Expression)
    (known : Set Value) (store : Store) (h : store.Census known) :
    (evaluate fuel id expression).CountsValue known store := by
  induction fuel generalizing id expression known store with
  | zero => exact .exhausted h
  | succ fuel ih =>
    cases expression with
    | literal token =>
      rw [evaluate]
      split
      · apply Action.Counts.bind fun found later => ∀ value, found = some value → value ∈ later
        · exact .lift subset_rfl h fun value hvalue => (h.environments id).bindings hvalue
        · intro found later after _ hafter hfound
          cases found with
          | some value => exact .pure hafter (hfound value rfl)
          | none => exact .fail hafter
      · exact .pure h (h.mem_ofLiteral token)
    | quoted datum =>
      obtain ⟨later, hlater, hcensus, hvalue⟩ := quoteDatum_census id datum h
      exact .lift hlater hcensus hvalue
    | conditional predicate consequent alternative =>
      rw [evaluate]
      apply Action.Counts.bind (· ∈ ·) (ih id predicate known store h)
      intro value later after _ hafter _
      split
      · exact ih id consequent later after hafter
      · exact ih id alternative later after hafter
      · exact .fail hafter
    | lambda formals body =>
      have hmade : (store.useObjects 1).Census (known ∪
          {.function (.closure store.nextObject (formals.map Token.text) body id)}) :=
        h.function rfl
      rw [evaluate]
      apply Action.Counts.bind fun function later => .function function ∈ later
      · exact .lift Set.subset_union_left hmade (.inr rfl)
      · exact fun _ _ _ _ hafter hfunction => .pure hafter hfunction
    | application head arguments =>
      rw [evaluate]
      apply Action.Counts.bind (· ∈ ·) (ih id head known store h)
      intro value later after _ hafter _
      split
      next function _ =>
        apply Action.Counts.bind fun values later => ∀ value ∈ values, value ∈ later
        · exact .mapM arguments hafter fun argument _ later after _ => ih id argument later after
        · intro values later after _ hafter hvalues
          exact callWith_counts ih hafter function hvalues
      · exact .fail hafter

/-- A call on known arguments is counted. -/
theorem call_counts (fuel : Nat) (h : store.Census known) (function : Function)
    {arguments : List Value} (harguments : ∀ argument ∈ arguments, argument ∈ known) :
    (call fuel function arguments).CountsValue known store :=
  callWith_counts (evaluate_counts fuel) h function harguments

/-- The evaluation of a form is counted. -/
theorem evaluateForm_counts (fuel : Nat) (h : store.Census known) (id : EnvironmentId)
    (form : Form) : (evaluateForm fuel id form).CountsValue known store := by
  cases form with
  | expression expression => exact evaluate_counts fuel id expression known store h
  | definition name value =>
    apply Action.Counts.bind (· ∈ ·) (evaluate_counts fuel id value known store h)
    intro bound later after _ hafter hbound
    apply Action.Counts.bind fun _ _ => True
    · exact .lift subset_rfl (hafter.update id fun _ h => h.define name.text hbound) trivial
    · exact fun _ _ _ _ hlast _ => .pure hlast (hlast.plain rfl)

/-- The evaluation of a program is counted. -/
theorem evaluateProgram_counts (fuel : Nat) (h : store.Census known) (id : EnvironmentId)
    (program : Program) : (evaluateProgram fuel id program).CountsValue known store :=
  .foldlM program h (h.plain rfl) fun form _ _ _ _ _ hafter _ =>
    evaluateForm_counts fuel hafter id form

/-- A run is counted. -/
theorem run_counts (fuel : Nat) (h : store.Census known) (id : EnvironmentId) (source : String) :
    (run fuel id source).CountsValue known store := by
  obtain ⟨later, hlater, hcensus, hvalue⟩ :=
    evaluateProgram_counts fuel h id (readSource source).1
  exact ⟨later, hlater, hcensus, fun value hresult => hvalue value (eq_of_runResult hresult)⟩

end

/-! ## What can be asked for -/

namespace Scene

variable {scene after : Scene} {known : Set Value}

/-- What can be asked for in a scene.  Values are only made of those that have been handed out, and
only these are stored. -/
inductive Offers (scene : Scene) : {ε : Type} → Action ε Value → Prop
  /-- An atom without an identity, or the empty list. -/
  | plain {value : Value} (h : value.identity? = none) :
    Offers scene (pure value : Evaluation Value)
  | symbol (name : String) :
    Offers scene (liftM (Value.symbol <$> Store.freshSymbol name) : Evaluation Value)
  | cons {head : Value} {tail : Cells} (hhead : head ∈ scene.held)
    (htail : .list tail ∈ scene.held) :
    Offers scene (liftM (Value.list <$> Store.cons head tail) : Evaluation Value)
  | list {values : List Value} (h : ∀ value ∈ values, value ∈ scene.held) :
    Offers scene (liftM (Value.list <$> Store.list values) : Evaluation Value)
  | primitive (name : String) (procedure : Procedure) :
    Offers scene (liftM ((fun identity => Value.function (.primitive identity name procedure)) <$>
      Store.freshObjects 1) : Evaluation Value)
  | lambda (formals : List String) (body : List Expression) (id : EnvironmentId) :
    Offers scene (liftM (Value.function <$> Store.closure formals body id) : Evaluation Value)
  | part (selector : Selector) {cells : Cells} (h : .list cells ∈ scene.held) :
    Offers scene (Action.ofExcept (selector.select cells))
  | environment : Offers scene (do let _ ← Store.allocate .empty; return .nil : Evaluation Value)
  | evaluator : Offers scene (do let _ ← Store.allocateGlobal; return .nil : Evaluation Value)
  | child (id : EnvironmentId) :
    Offers scene (do let _ ← Store.allocateChild id; return .nil : Evaluation Value)
  | lookup (id : EnvironmentId) (name : String) :
    Offers scene (liftM ((·.getD .nil) <$> Store.lookup id name) : Evaluation Value)
  | define (id : EnvironmentId) (name : String) {value : Value} (h : value ∈ scene.held) :
    Offers scene (do Store.define id name value; return .nil : Evaluation Value)
  | intern (id : EnvironmentId) (name : String) :
    Offers scene (liftM (Value.symbol <$> Store.intern id name) : Evaluation Value)
  | renewSymbol (id : EnvironmentId) (name : String) :
    Offers scene (liftM (Value.symbol <$> Store.renewSymbol id name) : Evaluation Value)
  | expression (fuel : Nat) (id : EnvironmentId) (expression : Expression) :
    Offers scene (evaluate fuel id expression)
  | form (fuel : Nat) (id : EnvironmentId) (form : Form) :
    Offers scene (evaluateForm fuel id form)
  | program (fuel : Nat) (id : EnvironmentId) (program : Program) :
    Offers scene (evaluateProgram fuel id program)
  | run (fuel : Nat) (id : EnvironmentId) (source : String) : Offers scene (run fuel id source)
  | call (fuel : Nat) {function : Function} {arguments : List Value}
    (hfunction : .function function ∈ scene.held)
    (harguments : ∀ argument ∈ arguments, argument ∈ scene.held) :
    Offers scene (call fuel function arguments)
  | output : Offers scene (liftM (Value.string <$> Store.takeOutput) : Evaluation Value)
  | time (clock : Clock) :
    Offers scene (do modify ({ · with clock }); return .nil : Evaluation Value)

/-- Something is asked for, and its value is handed out. -/
inductive Obtains (scene : Scene) : Scene → Prop
  | perform {ε : Type} {action : Action ε Value} (h : scene.Offers action) :
    Obtains scene (scene.perform action)

/-- The scenes that anything that is asked for can lead to. -/
def Obtained (scene : Scene) : Prop :=
  ∃ clock, Relation.ReflTransGen Obtains (start clock) scene

/-- Work on the store that is done for its own sake. -/
theorem work_counts {ε α : Type} {action : StateM Store α} {store : Store} {later : Set Value}
    (hlater : known ⊆ later) (h : (action.run store).2.Census later) :
    (do let _ ← (liftM action : Action ε α); return .nil : Action ε Value).CountsValue known
      store := by
  apply Action.Counts.bind fun _ _ => True
  · exact .lift hlater h trivial
  · exact fun _ _ _ _ hafter _ => .pure hafter (hafter.plain rfl)

/-- Everything that can be asked for counts what it makes. -/
theorem Offers.counts {ε : Type} {action : Action ε Value} (h : scene.Offers action)
    (hcensus : scene.store.Census known) (hheld : ∀ value ∈ scene.held, value ∈ known) :
    action.CountsValue known scene.store := by
  cases h with
  | plain h => exact .pure hcensus (hcensus.plain h)
  | symbol name => exact .lift Set.subset_union_left (hcensus.freshSymbol name) (.inr rfl)
  | cons hhead htail =>
    exact .lift Set.subset_union_left (hcensus.cons (hheld _ hhead) (hheld _ htail)) (.inr rfl)
  | list h => exact Store.list_counts hcensus fun value hvalue => hheld value (h value hvalue)
  | primitive name procedure =>
    have hmade : (scene.store.useObjects 1).Census (known ∪
        {.function (.primitive scene.store.nextObject name procedure)}) := hcensus.function rfl
    exact .lift Set.subset_union_left hmade (.inr rfl)
  | lambda formals body id =>
    have hmade : (scene.store.useObjects 1).Census (known ∪
        {.function (.closure scene.store.nextObject formals body id)}) := hcensus.function rfl
    exact .lift Set.subset_union_left hmade (.inr rfl)
  | part selector h => exact selector.select_counts hcensus (hheld _ h)
  | environment => exact work_counts subset_rfl (hcensus.allocate (Environment.within_empty known))
  | evaluator => exact work_counts Set.subset_union_left hcensus.allocateGlobal
  | child id => exact work_counts subset_rfl (hcensus.allocate (hcensus.environments id))
  | lookup id name =>
    refine .lift subset_rfl hcensus ?_
    change ((scene.store.environment id).get? name).getD .nil ∈ known
    cases hvalue : (scene.store.environment id).get? name with
    | some value => exact (hcensus.environments id).bindings hvalue
    | none => exact hcensus.plain rfl
  | define id name h =>
    exact work_counts subset_rfl
      (hcensus.update id fun _ hwithin => hwithin.define name (hheld _ h))
  | intern id name =>
    obtain ⟨later, hlater, hafter, hsymbol⟩ := Store.intern_census hcensus id name
    exact .lift hlater hafter hsymbol
  | renewSymbol id name =>
    exact .lift Set.subset_union_left (hcensus.mint id name) (.inr rfl)
  | expression fuel id expression => exact evaluate_counts fuel id expression known _ hcensus
  | form fuel id form => exact evaluateForm_counts fuel hcensus id form
  | program fuel id program => exact evaluateProgram_counts fuel hcensus id program
  | run fuel id source => exact run_counts fuel hcensus id source
  | call fuel hfunction harguments =>
    exact call_counts fuel hcensus _ fun argument hargument =>
      hheld argument (harguments argument hargument)
  | output => exact .lift subset_rfl (hcensus.of_same ⟨rfl, rfl⟩ (Nat.le_refl _)) (hcensus.plain rfl)
  | time clock =>
    have hsame : { scene.store with clock }.Census known :=
      hcensus.of_same ⟨rfl, rfl⟩ (Nat.le_refl _)
    exact work_counts subset_rfl hsame

/-- There is a census that has everything that has been handed out. -/
def Counted (scene : Scene) : Prop :=
  ∃ known, scene.store.Census known ∧ ∀ value ∈ scene.held, value ∈ known

/-- A scene in which nothing happened is counted. -/
theorem counted_start (clock : Clock) : (start clock).Counted :=
  ⟨_, Store.census_initial clock, nofun⟩

/-- A scene stays counted whatever is obtained. -/
theorem Obtains.counted (h : scene.Obtains after) (hcounted : scene.Counted) : after.Counted := by
  obtain ⟨known, hcensus, hheld⟩ := hcounted
  cases h with
  | @perform ε action hoffers =>
    obtain ⟨later, hlater, hafter, hresult⟩ := hoffers.counts hcensus hheld
    refine ⟨later, hafter, fun value hvalue => ?_⟩
    rcases mem_held_perform hvalue with hnew | hold
    · exact hresult value hnew
    · exact hlater (hheld value hold)

/-- Whatever has been obtained is in a census. -/
theorem Obtained.counted (h : scene.Obtained) : scene.Counted := by
  obtain ⟨clock, hmoves⟩ := h
  induction hmoves with
  | refl => exact counted_start clock
  | tail _ hmove ih => exact hmove.counted ih

end Scene

end MiniScheme
