import MiniScheme.Proofs.QuotedData
import MiniScheme.Session

/-!
# Symbol tables in the long run

Evaluation makes symbols at any depth, in environments of calls as well, also in forms that fail
later, and symbols travel between environments inside values.  Whatever happens, the tables of
symbols only get more entries, and all symbols that are about can be told apart by their
identities as well as by these and their names.

Main results:

- Theorem `evaluate_grows`: evaluation adds entries to tables of symbols, and keeps them coherent.
- Theorem `Scene.Move.grows`: so does everything that can be asked for from outside.
- Theorem `Scene.Reachable.symbols_coherent`: what holds of all symbols whenever, and which symbol
  a name stands for.
-/

namespace MiniScheme

/-! ## Evaluation -/

/-- An action that grows the tables of symbols and ends with a value whose symbols are entries. -/
abbrev Action.GrowsTables {ε : Type} (action : Action ε Value) (store : Store) : Prop :=
  action.Ensures Store.Grows (fun value after => after.Holds value) (fun _ => True) store

section

variable {store : Store}

/-- The empty list holds no symbols. -/
theorem Store.holds_nil (store : Store) : store.Holds .nil :=
  (Value.hereditary_symbols store.Knows).nil

/-- A body grows the tables where its expressions do. -/
theorem evaluateBody_grows {evaluate : Expression → Evaluation Value} {id : EnvironmentId}
    (h : ∀ expression (before : Store), before.Coherent → id < before.environments.size →
      (evaluate expression).GrowsTables before)
    (hcoherent : store.Coherent) (hid : id < store.environments.size) (body : List Expression) :
    (evaluateBody evaluate body).GrowsTables store := by
  apply Action.Ensures.foldlM body store.holds_nil
  intro expression _ _ before hbefore _
  exact h expression before (hbefore.coherent hcoherent) (hbefore.keeps.lt_size hid)

/-- A call grows the tables where evaluation does. -/
theorem callWith_grows {evaluate : EnvironmentId → Expression → Evaluation Value}
    (h : ∀ id expression (before : Store), before.Coherent → id < before.environments.size →
      (evaluate id expression).GrowsTables before)
    (hcoherent : store.Coherent) (function : Function) {arguments : List Value}
    (harguments : ∀ argument ∈ arguments, store.Holds argument) :
    (callWith evaluate function arguments).GrowsTables store := by
  cases function with
  | primitive identity name procedure =>
    apply (procedure.call_makes arguments store).mono
    · exact fun _ hsame => hsame.grows
    · intro value after hsame hvalue
      exact hsame.grows.keeps.holds (.of_isMadeFrom harguments hvalue)
    · exact fun _ _ => trivial
  | closure identity formals body captured =>
    rcases Nat.lt_or_ge arguments.length formals.length with hcount | hcount
    · rw [callWith, if_pos hcount]
      exact .fail trivial
    · have henter := Store.grows_enterCall captured formals harguments
      apply Action.Ensures.of_runOn_eq
        (callWith_closure evaluate identity body captured hcount store) henter
      apply evaluateBody_grows (h store.environments.size) (henter.coherent hcoherent)
      rw [Store.enterCall, Store.size_allocate]
      exact Nat.lt_succ_self _

/-- Evaluating an expression in an environment that there is grows the tables of symbols. -/
theorem evaluate_grows (fuel : Nat) (id : EnvironmentId) (expression : Expression) (store : Store)
    (hcoherent : store.Coherent) (hid : id < store.environments.size) :
    (evaluate fuel id expression).GrowsTables store := by
  induction fuel generalizing id expression store with
  | zero => exact .exhausted
  | succ fuel ih =>
    cases expression with
    | literal token =>
      rw [evaluate]
      split
      · apply Action.Ensures.bind fun found after => ∀ value, found = some value → after.Holds value
        · exact .lift (refl_of _ store) fun value hvalue => hcoherent.holds hvalue
        · intro found after _ hfound
          cases found with
          | some value => exact .pure (hfound value rfl)
          | none => exact .fail trivial
      · exact .pure (by simp [Store.Holds])
    | quoted datum =>
      obtain ⟨hgrows, hvalue⟩ := quoteDatum_quotes datum hid
      exact .lift hgrows hvalue.holds
    | conditional predicate consequent alternative =>
      rw [evaluate]
      apply Action.Ensures.bind _ (ih id predicate store hcoherent hid)
      intro value after hafter _
      split
      · exact ih id consequent after (hafter.coherent hcoherent) (hafter.keeps.lt_size hid)
      · exact ih id alternative after (hafter.coherent hcoherent) (hafter.keeps.lt_size hid)
      · exact .fail trivial
    | lambda formals body =>
      rw [evaluate]
      apply Action.Ensures.bind fun _ _ => True
      · exact .lift (Store.SameSymbols.grows ⟨rfl, rfl⟩) trivial
      · exact fun _ _ _ _ => .pure (by simp [Store.Holds, Value.symbols])
    | application head arguments =>
      rw [evaluate]
      apply Action.Ensures.bind _ (ih id head store hcoherent hid)
      intro value middle hmiddle _
      split
      next function _ =>
        apply Action.Ensures.bind fun values after => ∀ value ∈ values, after.Holds value
        · apply Action.Ensures.mapM
          · exact fun _ _ _ hlater hvalue => hlater.keeps.holds hvalue
          · intro argument _ before hbefore
            have hgrown := trans_of _ hmiddle hbefore
            exact ih id argument before (hgrown.coherent hcoherent) (hgrown.keeps.lt_size hid)
        · intro values after hafter hvalues
          exact callWith_grows ih ((trans_of _ hmiddle hafter).coherent hcoherent) function hvalues
      · exact .fail trivial

/-- Calling a function with values whose symbols are entries grows the tables of symbols. -/
theorem call_grows (fuel : Nat) (hcoherent : store.Coherent) (function : Function)
    {arguments : List Value} (harguments : ∀ argument ∈ arguments, store.Holds argument) :
    (call fuel function arguments).GrowsTables store :=
  callWith_grows (evaluate_grows fuel) hcoherent function harguments

/-- Evaluating a form grows the tables. -/
theorem evaluateForm_grows (fuel : Nat) (hcoherent : store.Coherent) {id : EnvironmentId}
    (hid : id < store.environments.size) (form : Form) :
    (evaluateForm fuel id form).GrowsTables store := by
  cases form with
  | expression expression => exact evaluate_grows fuel id expression store hcoherent hid
  | definition name value =>
    apply Action.Ensures.bind _ (evaluate_grows fuel id value store hcoherent hid)
    intro bound after _ hbound
    apply Action.Ensures.bind fun _ _ => True
    · exact .lift (after.grows_define id name.text hbound) trivial
    · exact fun _ last _ _ => .pure last.holds_nil

/-- Evaluating a program grows the tables. -/
theorem evaluateProgram_grows (fuel : Nat) (hcoherent : store.Coherent) {id : EnvironmentId}
    (hid : id < store.environments.size) (program : Program) :
    (evaluateProgram fuel id program).GrowsTables store := by
  apply Action.Ensures.foldlM program store.holds_nil
  intro form _ _ before hbefore _
  exact evaluateForm_grows fuel (hbefore.coherent hcoherent) (hbefore.keeps.lt_size hid) form

/-- A run that ends with a value ends with that of the program. -/
theorem eq_of_runResult {errors : List SyntaxError} {result : Except (Stop EvalError) Value}
    {value : Value} (h : runResult errors result = .ok value) : result = .ok value := by
  unfold runResult at h
  split at h <;> cases h
  rfl

/-- Running a source grows the tables. -/
theorem run_grows (fuel : Nat) (hcoherent : store.Coherent) {id : EnvironmentId}
    (hid : id < store.environments.size) (source : String) :
    (run fuel id source).GrowsTables store := by
  have hprogram := evaluateProgram_grows fuel hcoherent hid (readSource source).1
  exact ⟨hprogram.follows, fun value hvalue => hprogram.good value (eq_of_runResult hvalue),
    fun _ _ => trivial⟩

end

/-! ## What happens from outside -/

/-- The store, and the values that have been handed out. -/
structure Scene where
  store : Store
  held : List Value

namespace Scene

variable {scene after : Scene}

/-- Nothing has happened yet. -/
def start (clock : Clock) : Scene :=
  ⟨.initial clock, []⟩

/-- A symbol occurs in a table, in a binding or in a value that has been handed out, there at any
depth of lists. -/
inductive Occurs (scene : Scene) (symbol : Symbol) : Prop
  | entry {id : EnvironmentId} {name : String}
    (h : (scene.store.environment id).symbol? name = some symbol)
  | binding {id : EnvironmentId} {name : String} {value : Value}
    (h : (scene.store.environment id).get? name = some value) (hsymbol : symbol ∈ value.symbols)
  | held {value : Value} (h : value ∈ scene.held) (hsymbol : symbol ∈ value.symbols)

/-- The scene after an action, which hands out its value if it ends with one. -/
def perform {ε : Type} (scene : Scene) (action : Action ε Value) : Scene :=
  ⟨(action.runOn scene.store).2, ((action.runOn scene.store).1.toOption).toList ++ scene.held⟩

/-- What can happen to a scene: another evaluator is made, time passes, output is taken, or a
source, a form, a program or a call is evaluated.  Arguments are any values that can be made from
symbols that are about. -/
inductive Move (scene : Scene) : Scene → Prop
  | evaluator : Move scene ⟨(Store.allocateGlobal.run scene.store).2, scene.held⟩
  | time (clock : Clock) : Move scene ⟨{ scene.store with clock }, scene.held⟩
  | output : Move scene ⟨(Store.takeOutput.run scene.store).2, scene.held⟩
  | run (fuel : Nat) {id : EnvironmentId} (hid : id < scene.store.environments.size)
    (source : String) : Move scene (scene.perform (run fuel id source))
  | form (fuel : Nat) {id : EnvironmentId} (hid : id < scene.store.environments.size)
    (form : Form) : Move scene (scene.perform (evaluateForm fuel id form))
  | program (fuel : Nat) {id : EnvironmentId} (hid : id < scene.store.environments.size)
    (program : Program) : Move scene (scene.perform (evaluateProgram fuel id program))
  | call (fuel : Nat) (function : Function) {arguments : List Value}
    (h : ∀ argument ∈ arguments, ∀ symbol ∈ argument.symbols, scene.Occurs symbol) :
    Move scene (scene.perform (call fuel function arguments))

/-- The scenes that any number of moves can lead to from a scene. -/
abbrev LeadsTo : Scene → Scene → Prop :=
  Relation.ReflTransGen Move

/-- The scenes that any number of moves can lead to. -/
def Reachable (scene : Scene) : Prop :=
  ∃ clock, (start clock).LeadsTo scene

/-- The tables are coherent, and the symbols in what has been handed out are entries. -/
structure Coherent (scene : Scene) : Prop where
  store : scene.store.Coherent
  held : ∀ value ∈ scene.held, scene.store.Holds value

/-- Nothing has been interned at the start. -/
theorem coherent_start (clock : Clock) : (start clock).Coherent where
  store := by
    have hknows : ∀ symbol, ¬(Store.initial clock).Knows symbol := by
      rintro symbol ⟨id, name, ⟨⟩⟩
    constructor
    · rintro id name symbol ⟨⟩
    · exact fun h => absurd h (hknows _)
    · exact fun h => absurd h (hknows _)
    · rintro id name value ⟨⟩
  held := by simp [start]

/-- Every symbol that occurs is an entry. -/
theorem Coherent.knows (h : scene.Coherent) {symbol : Symbol} (hsymbol : scene.Occurs symbol) :
    scene.store.Knows symbol := by
  cases hsymbol with
  | entry hentry => exact ⟨_, _, hentry⟩
  | binding hvalue hsymbol => exact h.store.holds hvalue symbol hsymbol
  | held hvalue hsymbol => exact h.held _ hvalue symbol hsymbol

/-- A value has been handed out by the action or before it. -/
theorem mem_held_perform {ε : Type} {action : Action ε Value} {value : Value}
    (h : value ∈ (scene.perform action).held) :
    (action.runOn scene.store).1 = .ok value ∨ value ∈ scene.held := by
  refine (List.mem_append.1 h).imp_left fun hresult => ?_
  cases hending : (action.runOn scene.store).1 with
  | error => simp [hending, Except.toOption] at hresult
  | ok result =>
    rw [show value = result by simpa [hending, Except.toOption] using hresult]

/-- An action that grows the tables leads to a coherent scene. -/
theorem Coherent.perform {ε : Type} {action : Action ε Value} (h : scene.Coherent)
    (haction : action.GrowsTables scene.store) :
    scene.store.Grows (scene.perform action).store ∧ (scene.perform action).Coherent := by
  refine ⟨haction.follows, haction.follows.coherent h.store, fun value hvalue => ?_⟩
  rcases mem_held_perform hvalue with hresult | hold
  · exact haction.good value hresult
  · exact haction.follows.keeps.holds (h.held value hold)

/-- What is held is still known in a store with grown tables. -/
theorem Coherent.of_grows {store : Store} (h : scene.Coherent) (hgrows : scene.store.Grows store) :
    (⟨store, scene.held⟩ : Scene).Coherent :=
  ⟨hgrows.coherent h.store, fun value hvalue => hgrows.keeps.holds (h.held value hvalue)⟩

/-- A new global environment has no symbols. -/
theorem grows_allocateGlobal (store : Store) :
    store.Grows (Store.allocateGlobal.run store).2 := by
  let numbered : Store := { store with nextObject := store.nextObject + primitives.length }
  have hnumbered : store.Grows numbered := Store.SameSymbols.grows ⟨rfl, rfl⟩
  have hglobal : numbered.Grows (Store.allocateGlobal.run store).2 := by
    apply Store.grows_allocate numbered 0
    · rintro name symbol ⟨⟩
    · intro _ name value hvalue
      rcases Table.get?_insertAll_eq_some hvalue with hprimitive | hempty
      · obtain ⟨identity, procedure, rfl⟩ := Environment.of_mem_primitiveBindings hprimitive
        simp [Store.Holds, Value.symbols]
      · cases hempty
  exact trans_of _ hnumbered hglobal

/-- A move grows the tables of symbols, and the scene after it is coherent again. -/
theorem Move.grows (h : scene.Move after) (hcoherent : scene.Coherent) :
    scene.store.Grows after.store ∧ after.Coherent := by
  cases h with
  | evaluator =>
    have hgrows := grows_allocateGlobal scene.store
    exact ⟨hgrows, hcoherent.of_grows hgrows⟩
  | time clock =>
    have hgrows : scene.store.Grows { scene.store with clock } :=
      Store.SameSymbols.grows ⟨rfl, rfl⟩
    exact ⟨hgrows, hcoherent.of_grows hgrows⟩
  | output =>
    have hgrows : scene.store.Grows (Store.takeOutput.run scene.store).2 :=
      Store.SameSymbols.grows ⟨rfl, rfl⟩
    exact ⟨hgrows, hcoherent.of_grows hgrows⟩
  | run fuel hid source => exact hcoherent.perform (run_grows fuel hcoherent.store hid source)
  | form fuel hid form =>
    exact hcoherent.perform (evaluateForm_grows fuel hcoherent.store hid form)
  | program fuel hid program =>
    exact hcoherent.perform (evaluateProgram_grows fuel hcoherent.store hid program)
  | call fuel function harguments =>
    apply hcoherent.perform (call_grows fuel hcoherent.store function _)
    intro argument hargument symbol hsymbol
    exact hcoherent.knows (harguments argument hargument symbol hsymbol)

/-- So do any number of moves. -/
theorem LeadsTo.grows (h : scene.LeadsTo after) (hcoherent : scene.Coherent) :
    scene.store.Grows after.store ∧ after.Coherent := by
  induction h with
  | refl => exact ⟨refl_of _ scene.store, hcoherent⟩
  | tail _ hmove ih =>
    obtain ⟨hgrows, hafter⟩ := hmove.grows ih.2
    exact ⟨trans_of _ ih.1 hgrows, hafter⟩

/-- Every scene that can be reached is coherent. -/
theorem Reachable.coherent (h : scene.Reachable) : scene.Coherent := by
  obtain ⟨clock, hmoves⟩ := h
  exact (hmoves.grows (coherent_start clock)).2

end Scene

/-! ## Quoted names -/

/-- Evaluating a quoted datum gives its value, and never fails. -/
theorem evaluate_quoted (fuel : Nat) (id : EnvironmentId) (datum : Datum) (store : Store) :
    (evaluate (fuel + 1) id (.quoted datum)).runOn store =
      (.ok ((quoteDatum id datum).run store).1, ((quoteDatum id datum).run store).2) :=
  rfl

/-- Evaluating a quoted name gives the entry for it, and changes nothing if there is one. -/
theorem evaluate_quoted_of_entry {store : Store} {id : EnvironmentId} {token : Token}
    {symbol : Symbol} (h : token.kind = .identifier)
    (hentry : (store.environment id).symbol? token.text = some symbol) (fuel : Nat) :
    (evaluate (fuel + 1) id (.quoted (.atom token))).runOn store = (.ok (.symbol symbol), store) := by
  rw [evaluate_quoted, quoteDatum_identifier h, Store.intern_of_some hentry]

/-- Evaluating a quoted name in an environment that there is gives what is the entry for it
then. -/
theorem exists_evaluate_quoted {store : Store} {id : EnvironmentId}
    (hid : id < store.environments.size) {token : Token} (h : token.kind = .identifier)
    (fuel : Nat) :
    ∃ symbol after, (evaluate (fuel + 1) id (.quoted (.atom token))).runOn store =
      (.ok (.symbol symbol), after) ∧ store.KeepsSymbols after ∧
        (after.environment id).symbol? token.text = some symbol := by
  obtain ⟨hgrows, hentry⟩ := Store.intern_grows hid token.text
  refine ⟨_, _, ?_, hgrows.keeps, hentry⟩
  rw [evaluate_quoted, quoteDatum_identifier h]

/-- Whatever has been evaluated by any number of evaluators, and whatever of it has failed: symbols
with one identity have one name wherever they occur, the entry for a name is a symbol of that name,
no identity that is still to come occurs, and no later move removes or replaces an entry.  In any
store, also in the middle of an evaluation, two evaluations of a quoted name in one environment give
symbols that are `eq?` as long as the entries are kept in between; and in the environment that a
call of a closure makes, a name that is an entry of the closure's environment gives that entry. -/
theorem Scene.Reachable.symbols_coherent {scene : Scene} (h : scene.Reachable) :
    (∀ symbol symbol', scene.Occurs symbol → scene.Occurs symbol' →
      symbol.identity = symbol'.identity → symbol.name = symbol'.name) ∧
    (∀ id name symbol, (scene.store.environment id).symbol? name = some symbol →
      symbol.name = name) ∧
    (∀ symbol, scene.Occurs symbol → symbol.identity < scene.store.nextSymbol) ∧
    (∀ later, scene.LeadsTo later → scene.store.KeepsSymbols later.store) ∧
    (∀ (store : Store) id token fuel, id < store.environments.size → token.kind = .identifier →
      ∃ symbol after, (evaluate (fuel + 1) id (.quoted (.atom token))).runOn store =
          (.ok (.symbol symbol), after) ∧ store.KeepsSymbols after ∧
        ∀ later token' fuel', after.KeepsSymbols later → token'.kind = .identifier →
          token'.text = token.text → ∃ symbol',
            (evaluate (fuel' + 1) id (.quoted (.atom token'))).runOn later =
                (.ok (.symbol symbol'), later) ∧
              (Value.symbol symbol).isEq (.symbol symbol') = true ∧ symbol = symbol') ∧
    (∀ (store : Store) identity formals body captured arguments fuel,
      formals.length ≤ arguments.length →
      (call fuel (.closure identity formals body captured) arguments).runOn store =
          (evaluateBody (evaluate fuel store.environments.size) body).runOn
            (store.enterCall captured formals arguments) ∧
        ∀ name symbol later token fuel', (store.environment captured).symbol? name = some symbol →
          (store.enterCall captured formals arguments).KeepsSymbols later →
          token.kind = .identifier → token.text = name →
            (evaluate (fuel' + 1) store.environments.size (.quoted (.atom token))).runOn later =
              (.ok (.symbol symbol), later)) := by
  have hcoherent := h.coherent
  refine ⟨?_, ?_, ?_, ?_, ?_, ?_⟩
  · intro symbol symbol' hsymbol hsymbol'
    exact hcoherent.store.name_inj (hcoherent.knows hsymbol) (hcoherent.knows hsymbol')
  · exact fun _ _ _ hentry => hcoherent.store.named hentry
  · exact fun _ hsymbol => hcoherent.store.identity_lt (hcoherent.knows hsymbol)
  · exact fun _ hlater => (hlater.grows hcoherent).1.keeps
  · intro store id token fuel hid hkind
    obtain ⟨symbol, after, hfirst, hkeeps, hentry⟩ := exists_evaluate_quoted hid hkind fuel
    refine ⟨symbol, after, hfirst, hkeeps, fun later token' fuel' hlater hkind' htext => ?_⟩
    have hentry' : (later.environment id).symbol? token'.text = some symbol :=
      htext ▸ hlater.symbol?_eq hentry
    exact ⟨symbol, evaluate_quoted_of_entry hkind' hentry' fuel', by simp [Value.isEq, Value.equal],
      rfl⟩
  · intro store identity formals body captured arguments fuel hcount
    refine ⟨callWith_closure (evaluate fuel) identity body captured hcount store, ?_⟩
    rintro name symbol later token fuel' hentry hlater hkind rfl
    apply evaluate_quoted_of_entry hkind
    apply hlater.symbol?_eq
    rw [Store.symbol?_enterCall, hentry]

/-- A call interns `b` in an environment of its own and fails; later `b` is another symbol outside of
it, and `a` is the same one everywhere. -/
theorem symbols_coherent_failed :
    let made : Scene := ⟨(Store.allocateGlobal.run (.initial 0)).2, []⟩
    let failed := made.perform
      (run 9 0 "(define f (lambda (x) (eq? x 'a) (car 'b))) (define y 'a) (f 'a)")
    let last := failed.perform (run 9 0 "'(a (b) a)")
    last.Reachable ∧
      last.held.map Value.symbols = [[⟨"a", 0⟩, ⟨"b", 2⟩, ⟨"a", 0⟩]] ∧
      (last.store.environment 0).get? "y" ≠ none ∧
      (last.store.environment 1).symbol? "b" = some ⟨"b", 1⟩ ∧
      (∀ symbol symbol', last.Occurs symbol → last.Occurs symbol' →
        symbol.identity = symbol'.identity → symbol.name = symbol'.name) ∧
      ∀ symbol, last.Occurs symbol → symbol.identity < last.store.nextSymbol := by
  intro made failed last
  have hmade : (Scene.start 0).Move made := .evaluator
  have hfailed : made.Move failed := .run 9 (by decide +kernel) _
  have hlast : failed.Move last := .run 9 (by decide +kernel) _
  have hreachable : last.Reachable := ⟨0, .tail (.tail (.single hmade) hfailed) hlast⟩
  obtain ⟨hnames, -, hidentities, -⟩ := Scene.Reachable.symbols_coherent hreachable
  refine ⟨hreachable, by decide +kernel, ?_, by decide +kernel, hnames, hidentities⟩
  rw [ne_eq, ← Option.isNone_iff_eq_none]
  decide +kernel

end MiniScheme
