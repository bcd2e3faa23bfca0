import MiniScheme.Proofs.Guarantee
import MiniScheme.Proofs.Relocation
import MiniScheme.Value.Equality
import MiniScheme.Value.Text

/-!
# Code at other places

Closures carry the code that they were made from, and code carries positions.  The code in a value
or in a store can be moved to other places, which changes no text and no comparison.

Main results:

- Theorems `Value.text_relocate` and `Value.equal_relocate`: moved values have the same texts, and
  are equal if they were.
- Theorem `Store.relocate_update`: changes to a moved store.
- Theorem `Action.Relocates.bind`: what two actions do in turn on a moved store.
-/

namespace MiniScheme

/-! ## Moving twice -/

mutual

/-- A datum that is moved twice is moved by both moves together. -/
theorem Datum.relocate_relocate (move further : Position → Position) :
    ∀ datum : Datum, (datum.relocate move).relocate further = datum.relocate (further ∘ move)
  | .atom _ => by
    rw [relocate, relocate, relocate]
    rfl
  | .list items => by
    rw [relocate, relocate, relocate, map_relocate_relocate move further items]

/-- Data that are moved twice are moved by both moves together. -/
theorem Datum.map_relocate_relocate (move further : Position → Position) :
    ∀ items : List Datum,
      (items.map (relocate move)).map (relocate further) = items.map (relocate (further ∘ move))
  | [] => rfl
  | item :: items => by
    rw [List.map_cons, List.map_cons, List.map_cons, relocate_relocate move further item,
      map_relocate_relocate move further items]

end

mutual

/-- An expression that is moved twice is moved by both moves together. -/
theorem Expression.relocate_relocate (move further : Position → Position) :
    ∀ expression : Expression,
      (expression.relocate move).relocate further = expression.relocate (further ∘ move)
  | .literal _ => by
    rw [relocate, relocate, relocate]
    rfl
  | .quoted datum => by rw [relocate, relocate, relocate, datum.relocate_relocate]
  | .conditional predicate consequent alternative => by
    rw [relocate, relocate, relocate, relocate_relocate move further predicate,
      relocate_relocate move further consequent, relocate_relocate move further alternative]
  | .lambda formals body => by
    have hformals : (formals.map (Token.relocate move)).map (Token.relocate further) =
        formals.map (Token.relocate (further ∘ move)) :=
      List.map_map
    rw [relocate, relocate, relocate, hformals, map_relocate_relocate move further body]
  | .application head arguments => by
    rw [relocate, relocate, relocate, relocate_relocate move further head,
      map_relocate_relocate move further arguments]

/-- Expressions that are moved twice are moved by both moves together. -/
theorem Expression.map_relocate_relocate (move further : Position → Position) :
    ∀ row : List Expression,
      (row.map (relocate move)).map (relocate further) = row.map (relocate (further ∘ move))
  | [] => rfl
  | expression :: row => by
    rw [List.map_cons, List.map_cons, List.map_cons, relocate_relocate move further expression,
      map_relocate_relocate move further row]

end

/-- A form that is moved twice is moved by both moves together. -/
theorem Form.relocate_relocate (move further : Position → Position) (form : Form) :
    (form.relocate move).relocate further = form.relocate (further ∘ move) := by
  cases form with
  | definition name value =>
    rw [relocate, relocate, relocate, value.relocate_relocate]
    rfl
  | expression whole => rw [relocate, relocate, relocate, whole.relocate_relocate]

/-! ## Values at other places -/

namespace Table

variable {α β : Type}

/-- The table with what an entry is replaced by in its place. -/
def map (replace : α → β) (table : Table α) : Table β :=
  ⟨table.entries.map fun (name, entry) => (name, replace entry)⟩

/-- What is found in a table with other entries is the other entry. -/
@[simp]
theorem get?_map (replace : α → β) (table : Table α) (name : String) :
    (table.map replace).get? name = (table.get? name).map replace := by
  obtain ⟨entries⟩ := table
  simp only [map, get?]
  induction entries with
  | nil => rfl
  | cons first rest ih =>
    rw [List.map_cons, List.lookup_cons, List.lookup_cons]
    split
    next => rfl
    next => exact ih

/-- Entries may be replaced before or after they are inserted. -/
theorem map_insertAll (replace : α → β) (table : Table α) (entries : List (String × α)) :
    (table.insertAll entries).map replace =
      (table.map replace).insertAll (entries.map fun (name, entry) => (name, replace entry)) := by
  induction entries generalizing table with
  | nil => rfl
  | cons first rest ih => exact ih (table.insert first.1 first.2)

end Table

section

variable (move : Position → Position)

/-- The function with its code at another place. -/
def Function.relocate : Function → Function
  | primitive identity name procedure => primitive identity name procedure
  | closure identity formals body environment =>
    closure identity formals (body.map (Expression.relocate move)) environment

mutual

/-- The value with the code in it at another place. -/
def Value.relocate : Value → Value
  | .function function => .function (function.relocate move)
  | .list cells => .list cells.relocate
  | .nil => .nil
  | .number n => .number n
  | .boolean b => .boolean b
  | .character c => .character c
  | .string s => .string s
  | .symbol symbol => .symbol symbol

/-- The list with the code in it at another place. -/
def Cells.relocate : Cells → Cells
  | .empty => .empty
  | .cell identity head tail => .cell identity head.relocate tail.relocate

end

/-- The environment with the code in it at another place. -/
def Environment.relocate (environment : Environment) : Environment :=
  { environment with bindings := environment.bindings.map (Value.relocate move) }

/-- The store with the code in it at another place. -/
def Store.relocate (store : Store) : Store :=
  { store with environments := store.environments.map (Environment.relocate move) }

namespace Value

/-- A value stays of its kind when code is moved. -/
@[simp]
theorem kind_relocate (value : Value) : (value.relocate move).kind = value.kind := by
  cases value <;> simp [relocate, kind]

/-- A value stays the number that it is when code is moved. -/
@[simp]
theorem number?_relocate (value : Value) : (value.relocate move).number? = value.number? := by
  cases value <;> simp [relocate, number?]

/-- A value stays the boolean that it is when code is moved. -/
@[simp]
theorem boolean?_relocate (value : Value) : (value.relocate move).boolean? = value.boolean? := by
  cases value <;> simp [relocate, boolean?]

/-- There is no code in the constant of a literal. -/
@[simp]
theorem relocate_ofLiteral (token : Token) :
    (ofLiteral token).relocate move = ofLiteral token := by
  unfold ofLiteral
  split
  next constant _ => cases constant <;> simp [ofConstant, relocate]
  next => simp [relocate]

end Value

/-- A function has the same text when its code is moved. -/
@[simp]
theorem Function.text_relocate (function : Function) :
    (function.relocate move).text = function.text := by
  cases function <;> rfl

mutual

/-- A value has the same text when code is moved. -/
@[simp]
theorem Value.text_relocate : ∀ value : Value, (value.relocate move).text = value.text
  | .function function => by simp [Value.relocate, Value.text]
  | .list cells => by rw [Value.relocate, Value.text, Value.text, cells.texts_relocate]
  | .nil | .number _ | .boolean _ | .character _ | .string _ | .symbol _ => by
    simp [Value.relocate, Value.text]

/-- A list has the same texts when code is moved. -/
theorem Cells.texts_relocate : ∀ cells : Cells, (cells.relocate move).texts = cells.texts
  | .empty => by rw [Cells.relocate]
  | .cell _ head tail => by
    rw [Cells.relocate, Cells.texts, Cells.texts, head.text_relocate, tail.texts_relocate]

end

/-- Two functions are the same one as before when code is moved. -/
@[simp]
theorem Function.same_relocate (left right : Function) :
    (left.relocate move).same (right.relocate move) = left.same right := by
  cases left <;> cases right <;> rfl

mutual

/-- Two values are as equal as before when code is moved. -/
@[simp]
theorem Value.equal_relocate : ∀ left right : Value,
    (left.relocate move).equal (right.relocate move) = left.equal right
  | .list left, right => by
    cases right with
    | list right => rw [Value.relocate, Value.relocate, Value.equal, Value.equal, left.equal_relocate]
    | _ => simp [Value.relocate, Value.equal]
  | .function left, right => by cases right <;> simp [Value.relocate, Value.equal]
  | .nil, right | .number _, right | .boolean _, right | .character _, right | .string _, right
  | .symbol _, right => by cases right <;> simp [Value.relocate, Value.equal]

/-- Two lists are as equal as before when code is moved. -/
theorem Cells.equal_relocate : ∀ left right : Cells,
    (left.relocate move).equal (right.relocate move) = left.equal right
  | .empty, right => by cases right <;> simp [Cells.relocate, Cells.equal]
  | .cell _ left leftTail, right => by
    cases right with
    | empty => simp [Cells.relocate, Cells.equal]
    | cell _ right rightTail =>
      rw [Cells.relocate, Cells.relocate, Cells.equal, Cells.equal,
        left.equal_relocate, leftTail.equal_relocate]

end

/-- Two lists are the same one as before when code is moved. -/
theorem Cells.same_relocate (left right : Cells) :
    (left.relocate move).same (right.relocate move) = left.same right := by
  cases left <;> cases right <;> simp [relocate, same]

/-- Two values are identical as before when code is moved. -/
theorem Value.isEq_relocate (left right : Value) :
    (left.relocate move).isEq (right.relocate move) = left.isEq right := by
  have hequal := equal_relocate move left right
  cases left with
  | list left =>
    cases right with
    | list right => simpa only [relocate, isEq] using left.same_relocate move right
    | _ => simpa only [relocate, isEq] using hequal
  | _ => simpa only [relocate, isEq] using hequal

/-- Code may be moved before or after a list is made. -/
theorem Cells.relocate_ofList (identity : Nat) (values : List Value) :
    (ofList identity values).relocate move = ofList identity (values.map (Value.relocate move)) := by
  induction values generalizing identity with
  | nil => simp [ofList, relocate]
  | cons value values ih => simp [ofList, relocate, ih]

/-- A list is as empty as before when code is moved. -/
theorem Cells.isEmpty_relocate (cells : Cells) : (cells.relocate move).isEmpty = cells.isEmpty := by
  cases cells <;> simp [relocate, isEmpty]

/-! ## Stores at other places -/

namespace Store

/-- A store has as many environments when code is moved. -/
@[simp]
theorem size_relocate (store : Store) :
    (store.relocate move).environments.size = store.environments.size := by
  simp [relocate]

/-- Code is moved in each environment. -/
theorem environment_relocate (store : Store) (id : EnvironmentId) :
    (store.relocate move).environment id = (store.environment id).relocate move := by
  simp only [environment, relocate, Array.getElem?_map]
  cases store.environments[id]? <;> rfl

/-- A change that does to a moved environment what it does to the environment. -/
theorem relocate_update (store : Store) (id : EnvironmentId)
    {change change' : Environment → Environment}
    (h : ∀ environment, (change environment).relocate move = change' (environment.relocate move)) :
    (store.update id change).relocate move = (store.relocate move).update id change' := by
  have henvironments : (store.environments.modify id change).map (Environment.relocate move) =
      (store.environments.map (Environment.relocate move)).modify id change' := by
    apply Array.ext_getElem?
    intro other
    rw [Array.getElem?_map, Array.getElem?_modify, Array.getElem?_modify, Array.getElem?_map]
    split
    next =>
      cases store.environments[other]? with
      | none => rfl
      | some environment => exact congrArg some (h environment)
    next => rfl
  simp only [update, relocate, henvironments]

/-- Code may be moved before or after an environment is made. -/
theorem relocate_allocate (store : Store) (new : Environment) :
    ((allocate new).run store).2.relocate move =
      ((allocate (new.relocate move)).run (store.relocate move)).2 := by
  simp only [allocate, modifyGet, MonadStateOf.modifyGet, StateT.modifyGet, StateT.run, pure,
    relocate, Array.map_push]

end Store

/-- Code may be moved before or after a definition. -/
theorem Environment.relocate_define (environment : Environment) (name : String) (value : Value) :
    (environment.define name value).relocate move =
      (environment.relocate move).define name (value.relocate move) :=
  rfl

/-- Code may be moved before or after a symbol is added. -/
theorem Environment.relocate_addSymbol (environment : Environment) (symbol : Symbol) :
    (environment.addSymbol symbol).relocate move = (environment.relocate move).addSymbol symbol :=
  rfl

/-- Code may be moved before or after a call is entered. -/
theorem Environment.relocate_enter (environment : Environment) (formals : List String)
    (arguments : List Value) :
    (environment.enter formals arguments).relocate move =
      (environment.relocate move).enter formals (arguments.map (Value.relocate move)) := by
  simp only [enter, relocate, Table.map_insertAll, List.zip_map_right]
  rfl

/-! ## Actions -/

/-- On a store with moved code the second action does what the first one does on the store, and ends
with what stands for its value. -/
def Action.Relocates {ε α β : Type} (stand : α → β) (action : Action ε α) (action' : Action ε β) :
    Prop :=
  ∀ store : Store, action'.runOn (store.relocate move) =
    ((action.runOn store).1.map stand, (action.runOn store).2.relocate move)

namespace Action.Relocates

variable {ε α β γ δ : Type} {move : Position → Position} {stand : α → β} {stand' : γ → δ}

/-- A value and its counterpart are given alike. -/
theorem pure {value : α} {value' : β} (h : stand value = value') :
    Relocates move stand (pure value : Action ε α) (pure value') :=
  h ▸ fun _ => rfl

/-- Failures with one error are alike. -/
theorem fail {error error' : ε} (h : error = error') :
    Relocates move stand (fail error) (fail error') :=
  h ▸ fun _ => rfl

/-- Actions that go on too long are alike. -/
theorem exhausted : Relocates move stand (exhausted : Action ε α) exhausted :=
  fun _ => rfl

/-- A result and its counterpart end alike. -/
theorem ofExcept {result : Except ε α} {result' : Except ε β} (h : result.map stand = result') :
    Relocates move stand (ofExcept result) (ofExcept result') := by
  subst h
  cases result <;> exact fun _ => rfl

/-- What does not depend on the store and holds no code stands for itself. -/
theorem ofExcept_self (result : Except ε α) :
    Relocates move id (Action.ofExcept result) (Action.ofExcept result) :=
  ofExcept (by cases result <;> rfl)

/-- Work on the store is lifted to actions that are alike. -/
theorem lift {action : StateM Store α} {action' : StateM Store β}
    (h : ∀ store : Store, action'.run (store.relocate move) =
      (stand (action.run store).1, (action.run store).2.relocate move)) :
    Relocates move stand (liftM action : Action ε α) (liftM action') := by
  intro store
  change (Except.ok (action'.run (store.relocate move)).1,
    (action'.run (store.relocate move)).2) = _
  rw [h]
  rfl

/-- Two actions in turn stand for two actions in turn. -/
theorem bind {first : Action ε α} {first' : Action ε β} {next : α → Action ε γ}
    {next' : β → Action ε δ} (h : Relocates move stand first first')
    (hnext : ∀ value, Relocates move stand' (next value) (next' (stand value))) :
    Relocates move stand' (first >>= next) (first' >>= next') := by
  intro store
  rw [runOn_bind, runOn_bind, h store]
  cases hfirst : first.runOn store with
  | mk ending after =>
    cases ending with
    | ok value => exact hnext value after
    | error stop => rfl

/-- Items and their counterparts are worked on alike, one by one. -/
theorem mapM {action : γ → Action ε α} {action' : δ → Action ε β} (items : List γ)
    (h : ∀ item ∈ items, Relocates move stand (action item) (action' (stand' item))) :
    Relocates move (List.map stand) (items.mapM action) ((items.map stand').mapM action') := by
  induction items with
  | nil => exact pure rfl
  | cons item items ih =>
    rw [List.forall_mem_cons] at h
    rw [List.map_cons, List.mapM_cons, List.mapM_cons]
    exact bind h.1 fun value => bind (ih h.2) fun values => pure rfl

/-- Items and their counterparts are folded alike, one by one. -/
theorem foldlM {action : α → γ → Action ε α} {action' : β → δ → Action ε β} (items : List γ)
    (h : ∀ item ∈ items, ∀ value,
      Relocates move stand (action value item) (action' (stand value) (stand' item))) {first : α}
    {first' : β} (hfirst : stand first = first') :
    Relocates move stand (items.foldlM action first)
      ((items.map stand').foldlM action' first') := by
  subst hfirst
  induction items generalizing first with
  | nil => exact pure rfl
  | cons item items ih =>
    rw [List.forall_mem_cons] at h
    rw [List.map_cons, List.foldlM_cons, List.foldlM_cons]
    exact bind (h.1 first) fun value => ih h.2

end Action.Relocates

end

end MiniScheme
