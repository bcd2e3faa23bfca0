import MiniScheme.Proofs.Places
import MiniScheme.Proofs.QuotedData

/-!
# Evaluation does not look at positions

No value, no error and no printed line depends on where code stands.  So evaluating code that has
been moved, in a store in which all code has been moved, does the same as before, with the code in
the result and in the store moved.

Main results:

- Theorem `Procedure.call_relocates`: a procedure does not look into functions.
- Theorem `evaluate_relocates`: evaluating moved code in a moved store.
- Theorem `evaluateProgram_relocates`: the same for programs.
-/

namespace MiniScheme

section

variable (move : Position → Position)

/-! ## Procedures -/

/-- An action that stands for another one, and ends with its value with the code in it moved. -/
abbrev Action.RelocatesValue (action action' : Evaluation Value) : Prop :=
  action.Relocates move (Value.relocate move) action'

/-- Arguments are read alike when code in them is moved. -/
theorem readArguments_relocate {α : Type} {expected : ValueKind} {read? : Value → Option α}
    (h : ∀ value : Value, read? (value.relocate move) = read? value) (place : Nat)
    (values : List Value) :
    readArguments expected read? place (values.map (Value.relocate move)) =
      readArguments expected read? place values := by
  induction values generalizing place with
  | nil => rfl
  | cons value values ih =>
    rw [List.map_cons, readArguments, readArguments, h, ih, Value.kind_relocate]

/-- A list of values is made alike when code in them is moved. -/
theorem Store.list_relocates (values : List Value) :
    Action.RelocatesValue move (do return .list (← Store.list values))
      (do return .list (← Store.list (values.map (Value.relocate move)))) := by
  have hlist : Action.Relocates move (Cells.relocate move)
      (liftM (Store.list values) : Evaluation Cells)
      (liftM (Store.list (values.map (Value.relocate move)))) := by
    apply Action.Relocates.lift
    intro store
    have hrun : ∀ (values : List Value) (store : Store), (Store.list values).run store =
        (.ofList store.nextObject values,
          { store with nextObject := store.nextObject + values.length }) :=
      fun _ _ => rfl
    rw [hrun, hrun, Cells.relocate_ofList, List.length_map]
    rfl
  exact hlist.bind fun cells => .pure (by rw [Value.relocate])

/-- An operation on numbers has no part in moving code. -/
theorem NumericOperation.call_relocates (operation : NumericOperation) (numbers : List Int64) :
    Action.RelocatesValue move (operation.call numbers) (operation.call numbers) := by
  unfold call
  split
  next => exact (Action.Relocates.ofExcept_self _).bind fun _ => .pure (by simp [Value.relocate])
  next => exact .pure (by rw [Value.relocate])
  next => exact .fail rfl
  next =>
    have hnumbers := Store.list_relocates move (numbers.map .number)
    rwa [List.map_map, List.map_congr_left fun n _ => show
      (Value.relocate move ∘ .number) n = .number n by simp [Value.relocate]] at hnumbers

/-- An operation on booleans has no part in moving code. -/
theorem BooleanOperation.call_relocates (operation : BooleanOperation) (booleans : List Bool) :
    Action.RelocatesValue move (operation.call booleans) (operation.call booleans) := by
  unfold call
  split
  next => exact .pure (by rw [Value.relocate])
  next => exact .pure (by rw [Value.relocate])
  next => exact .pure (by rw [Value.relocate])
  next => exact .fail rfl
  next =>
    have hbooleans := Store.list_relocates move (booleans.map .boolean)
    rwa [List.map_map, List.map_congr_left fun b _ => show
      (Value.relocate move ∘ .boolean) b = .boolean b by simp [Value.relocate]] at hbooleans

/-- A part of a list is the part of the moved list, moved. -/
theorem Selector.select_relocate (selector : Selector) (cells : Cells) :
    selector.select (cells.relocate move) = (selector.select cells).map (Value.relocate move) := by
  cases selector <;> cases cells <;> simp [Cells.relocate, select, Except.map, Value.relocate]

/-- Printing has no part in moving code. -/
theorem Store.print_relocates (line : String) :
    Action.RelocatesValue move (do Store.print line; return .nil)
      (do Store.print line; return .nil) :=
  fun _ => by rfl

/-- A general operation does to moved values what it does to values, moved. -/
theorem GeneralOperation.call_relocates (operation : GeneralOperation) (values : List Value) :
    Action.RelocatesValue move (operation.call values)
      (operation.call (values.map (Value.relocate move))) := by
  have hlength : values.length = (values.map (Value.relocate move)).length := by simp
  cases operation with
  | select selector =>
    match values, hlength with
    | [], _ => exact .fail rfl
    | [.list cells], _ =>
      rw [List.map_singleton, Value.relocate, call, call]
      exact .ofExcept (selector.select_relocate move cells).symm
    | [.nil], _ | [.number _], _ | [.boolean _], _ | [.character _], _ | [.string _], _
    | [.symbol _], _ | [.function _], _ =>
      rw [List.map_singleton, Value.relocate]
      exact .fail rfl
    | first :: _ :: _, hlength =>
      cases first <;> exact .fail (congrArg (EvalError.arityMismatch (.exactly 1)) hlength)
  | isNull =>
    match values, hlength with
    | [], _ => exact .fail rfl
    | [.list cells], _ =>
      rw [List.map_singleton, Value.relocate, call, call, cells.isEmpty_relocate]
      exact .pure (by rw [Value.relocate])
    | [.nil], _ | [.number _], _ | [.boolean _], _ | [.character _], _ | [.string _], _
    | [.symbol _], _ | [.function _], _ =>
      rw [List.map_singleton, Value.relocate]
      exact .pure (by rw [Value.relocate])
    | first :: _ :: _, hlength =>
      cases first <;> exact .fail (congrArg (EvalError.arityMismatch (.exactly 1)) hlength)
  | isEq =>
    match values, hlength with
    | [], _ | [_], _ => exact .fail rfl
    | [left, right], _ =>
      rw [List.map_cons, List.map_singleton, call, call, Value.isEq_relocate]
      exact .pure (by rw [Value.relocate])
    | _ :: _ :: _ :: _, hlength =>
      exact .fail (congrArg (EvalError.arityMismatch (.exactly 2)) hlength)
  | print =>
    have htexts : (values.map (Value.relocate move)).map Value.text = values.map Value.text := by
      simp
    rw [call, call, htexts]
    exact Store.print_relocates move _
  | time => exact fun _ => rfl
  | list => exact Store.list_relocates move values

/-- A procedure does not look into functions. -/
theorem Procedure.call_relocates (procedure : Procedure) (arguments : List Value) :
    Action.RelocatesValue move (procedure.call arguments)
      (procedure.call (arguments.map (Value.relocate move))) := by
  induction procedure with
  | counted arity inner ih =>
    rw [call, call, List.length_map]
    split
    · exact ih
    · exact .fail rfl
  | numeric operation =>
    rw [call, call, readArguments_relocate move (Value.number?_relocate move)]
    exact (Action.Relocates.ofExcept_self _).bind (operation.call_relocates move)
  | boolean operation =>
    rw [call, call, readArguments_relocate move (Value.boolean?_relocate move)]
    exact (Action.Relocates.ofExcept_self _).bind (operation.call_relocates move)
  | general operation => exact operation.call_relocates move arguments

/-! ## Evaluation -/

/-- A name is looked up alike when code is moved. -/
theorem Store.lookup_relocates (id : EnvironmentId) (name : String) :
    Action.Relocates move (Option.map (Value.relocate move))
      (liftM (Store.lookup id name) : Evaluation (Option Value)) (liftM (Store.lookup id name)) := by
  apply Action.Relocates.lift
  intro store
  have hbound : ((store.relocate move).environment id).get? name =
      ((store.environment id).get? name).map (Value.relocate move) := by
    rw [environment_relocate]
    exact Table.get?_map _ _ _
  exact Prod.ext hbound rfl

/-- A name is defined alike when code is moved. -/
theorem Store.define_relocates (id : EnvironmentId) (name : String) (value : Value) :
    Action.Relocates move (fun done : Unit => done)
      (liftM (Store.define id name value) : Evaluation Unit)
      (liftM (Store.define id name (value.relocate move))) := by
  apply Action.Relocates.lift
  intro store
  refine Prod.ext rfl ?_
  exact (relocate_update move store id fun environment =>
    environment.relocate_define move name value).symm

/-- A function of moved code is the function, moved. -/
theorem Store.closure_relocates (formals : List String) (body : List Expression)
    (id : EnvironmentId) :
    Action.Relocates move (Function.relocate move)
      (liftM (Store.closure formals body id) : Evaluation Function)
      (liftM (Store.closure formals (body.map (Expression.relocate move)) id)) :=
  .lift fun _ => rfl

/-- A call in a moved store enters the environment that it enters, moved. -/
theorem Store.enterCall_relocate (store : Store) (captured : EnvironmentId) (formals : List String)
    (arguments : List Value) :
    (store.relocate move).enterCall captured formals (arguments.map (Value.relocate move)) =
      (store.enterCall captured formals arguments).relocate move := by
  rw [enterCall, enterCall, environment_relocate, ← Environment.relocate_enter, relocate_allocate]

/-- A name is interned alike when code is moved. -/
theorem Store.intern_relocates (id : EnvironmentId) (name : String) (store : Store) :
    (Store.intern id name).run (store.relocate move) =
      (((Store.intern id name).run store).1, ((Store.intern id name).run store).2.relocate move) := by
  have hentry : ((store.relocate move).environment id).symbol? name =
      (store.environment id).symbol? name := by
    rw [environment_relocate]
    rfl
  cases hfound : (store.environment id).symbol? name with
  | some symbol => rw [intern_of_some hfound, intern_of_some (hentry.trans hfound)]
  | none =>
    rw [intern_of_none hfound, intern_of_none (hentry.trans hfound)]
    refine Prod.ext rfl ?_
    exact (relocate_update move { store with nextSymbol := store.nextSymbol + 1 } id
      fun environment => environment.relocate_addSymbol move _).symm

mutual

/-- Quoting makes no functions, so that its values hold no code. -/
theorem quoteDatum_relocates (id : EnvironmentId) (store : Store) : ∀ datum : Datum,
    (quoteDatum id (datum.relocate move)).run (store.relocate move) =
      (((quoteDatum id datum).run store).1.relocate move,
        ((quoteDatum id datum).run store).2.relocate move)
  | .atom token => by
    rw [Datum.relocate]
    by_cases hkind : token.kind = .identifier
    · have hkind' : (token.relocate move).kind = .identifier := hkind
      rw [quoteDatum_identifier hkind, quoteDatum_identifier hkind', Value.relocate]
      exact congrArg (fun result : Symbol × Store => (Value.symbol result.1, result.2))
        (Store.intern_relocates move id token.text store)
    · have hkind' : (token.relocate move).kind ≠ .identifier := hkind
      rw [quoteDatum_literal hkind, quoteDatum_literal hkind', Value.relocate_ofLiteral]
      rfl
  | .list items => by
    have hitems := quoteItems_relocates id store items
    rw [Datum.relocate, quoteDatum_list, quoteDatum_list, hitems]
    simp only [Value.relocate, Cells.relocate_ofList, List.length_map]
    rfl

/-- A row of data is quoted alike when it is moved. -/
theorem quoteItems_relocates (id : EnvironmentId) (store : Store) : ∀ items : List Datum,
    (quoteItems id (items.map (Datum.relocate move))).run (store.relocate move) =
      (((quoteItems id items).run store).1.map (Value.relocate move),
        ((quoteItems id items).run store).2.relocate move)
  | [] => rfl
  | item :: items => by
    have hrest := quoteItems_relocates id ((quoteDatum id item).run store).2 items
    simp only [List.map_cons, quoteItems_cons, quoteDatum_relocates id store item, hrest]

end

variable {move}

/-- A body is evaluated alike when it is moved, if its expressions are. -/
theorem evaluateBody_relocates {evaluate evaluate' : Expression → Evaluation Value}
    (h : ∀ expression, Action.RelocatesValue move (evaluate expression)
      (evaluate' (expression.relocate move))) (body : List Expression) :
    Action.RelocatesValue move (evaluateBody evaluate body)
      (evaluateBody evaluate' (body.map (Expression.relocate move))) := by
  exact .foldlM body (fun expression _ _ => h expression) (by rw [Value.relocate])

/-- A function is called alike when it is moved, if expressions are evaluated alike. -/
theorem callWith_relocates {evaluate evaluate' : EnvironmentId → Expression → Evaluation Value}
    (h : ∀ id expression, Action.RelocatesValue move (evaluate id expression)
      (evaluate' id (expression.relocate move))) (function : Function) (arguments : List Value) :
    Action.RelocatesValue move (callWith evaluate function arguments)
      (callWith evaluate' (function.relocate move) (arguments.map (Value.relocate move))) := by
  cases function with
  | primitive identity name procedure => exact procedure.call_relocates move arguments
  | closure identity formals body captured =>
    rw [Function.relocate]
    rcases Nat.lt_or_ge arguments.length formals.length with hcount | hcount
    · rw [callWith, callWith, if_pos hcount, if_pos (by rwa [List.length_map]), List.length_map]
      exact .fail rfl
    · intro store
      rw [callWith_closure evaluate' identity _ captured (by rwa [List.length_map]),
        callWith_closure evaluate identity body captured hcount, Store.enterCall_relocate,
        Store.size_relocate]
      exact evaluateBody_relocates (h store.environments.size) body _

/-- Evaluating moved code in a moved store does what evaluating the code in the store does, with the
code in the result and in the store moved. -/
theorem evaluate_relocates (fuel : Nat) (id : EnvironmentId) (expression : Expression) :
    Action.RelocatesValue move (evaluate fuel id expression)
      (evaluate fuel id (expression.relocate move)) := by
  induction fuel generalizing id expression with
  | zero => exact .exhausted
  | succ fuel ih =>
    cases expression with
    | literal token =>
      rw [Expression.relocate, evaluate, evaluate, Token.kind_relocate]
      split
      next =>
        refine (Store.lookup_relocates move id token.text).bind fun found => ?_
        cases found with
        | some value => exact .pure rfl
        | none => exact .fail rfl
      next => exact .pure (Value.relocate_ofLiteral move token)
    | quoted datum =>
      rw [Expression.relocate]
      exact .lift fun store => quoteDatum_relocates move id store datum
    | conditional predicate consequent alternative =>
      rw [Expression.relocate, evaluate, evaluate]
      refine (ih id predicate).bind fun value => ?_
      cases value with
      | boolean b =>
        rw [Value.relocate]
        cases b with
        | true => exact ih id consequent
        | false => exact ih id alternative
      | _ =>
        rw [Value.relocate]
        exact .fail rfl
    | lambda formals body =>
      rw [Expression.relocate, evaluate, evaluate, List.map_map]
      exact (Store.closure_relocates move (formals.map Token.text) body id).bind fun function =>
        .pure (by rw [Value.relocate])
    | application head arguments =>
      rw [Expression.relocate, evaluate, evaluate]
      refine (ih id head).bind fun value => ?_
      cases value with
      | function function =>
        rw [Value.relocate]
        have harguments : Action.Relocates move (List.map (Value.relocate move))
            (arguments.mapM (evaluate fuel id))
            ((arguments.map (Expression.relocate move)).mapM (evaluate fuel id)) :=
          .mapM arguments fun argument _ => ih id argument
        exact harguments.bind fun values => callWith_relocates ih function values
      | list cells =>
        rw [Value.relocate]
        refine .fail ?_
        have htext := Value.text_relocate move (.list cells)
        rw [Value.relocate] at htext
        rw [htext]
      | _ =>
        rw [Value.relocate]
        exact .fail rfl

/-- A form is evaluated alike when it is moved. -/
theorem evaluateForm_relocates (fuel : Nat) (id : EnvironmentId) (form : Form) :
    Action.RelocatesValue move (evaluateForm fuel id form)
      (evaluateForm fuel id (form.relocate move)) := by
  cases form with
  | expression expression => exact evaluate_relocates fuel id expression
  | definition name value =>
    rw [Form.relocate, evaluateForm, evaluateForm]
    refine (evaluate_relocates fuel id value).bind fun bound => ?_
    exact (Store.define_relocates move id name.text bound).bind fun _ =>
      .pure (by rw [Value.relocate])

/-- Evaluating a moved program in a moved store. -/
theorem evaluateProgram_relocates (fuel : Nat) (id : EnvironmentId) (program : Program) :
    Action.RelocatesValue move (evaluateProgram fuel id program)
      (evaluateProgram fuel id (program.map (Form.relocate move))) :=
  .foldlM program (fun form _ _ => evaluateForm_relocates fuel id form) (by rw [Value.relocate])

end

end MiniScheme
