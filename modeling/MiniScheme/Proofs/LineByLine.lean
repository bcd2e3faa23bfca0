import MiniScheme.Proofs.Entries
import MiniScheme.Proofs.Isolation

/-!
# A script line by line

A script can be entered line by line or run as a whole.  Line by line its entries are run as
sources of their own; as a whole it is one source, in which the code of every entry but the first
stands further down.  If all entries end with values, so does the whole script, with the same
readings of the clock.  It prints the same lines, and leaves what the entries leave, except for
the places of tokens in closures.

Main results:

- Theorem `Program.alike_of_isOf`: code is like the same code further down.
- Theorem `runEach_alike`: what the sources of entries lead to one after another, their forms put
  together lead to as well.
- Theorem `makeEvaluatorAfter_sound`: evaluators that have run the same are in the same state.
- Theorem `run_intercalate_lines`: running the lines as a whole agrees with running them entry by
  entry.
-/

namespace MiniScheme

/-! ## Code further down -/

mutual

/-- A datum whose places stay is as it was. -/
theorem Datum.relocate_id : ∀ datum : Datum, datum.relocate id = datum
  | .atom _ => by
    rw [relocate]
    rfl
  | .list items => by rw [relocate, map_relocate_id items]

/-- Data whose places stay are as they were. -/
theorem Datum.map_relocate_id : ∀ items : List Datum, items.map (relocate id) = items
  | [] => rfl
  | item :: items => by rw [List.map_cons, relocate_id item, map_relocate_id items]

end

mutual

/-- An expression whose places stay is as it was. -/
theorem Expression.relocate_id : ∀ expression : Expression, expression.relocate id = expression
  | .literal _ => by
    rw [relocate]
    rfl
  | .quoted datum => by rw [relocate, datum.relocate_id]
  | .conditional predicate consequent alternative => by
    rw [relocate, relocate_id predicate, relocate_id consequent, relocate_id alternative]
  | .lambda formals body => by
    have hformals : formals.map (Token.relocate id) = formals := List.map_id formals
    rw [relocate, hformals, map_relocate_id body]
  | .application head arguments => by
    rw [relocate, relocate_id head, map_relocate_id arguments]

/-- Expressions whose places stay are as they were. -/
theorem Expression.map_relocate_id : ∀ row : List Expression, row.map (relocate id) = row
  | [] => rfl
  | expression :: row => by rw [List.map_cons, relocate_id expression, map_relocate_id row]

end

namespace Variation

/-- The same code, some lines further down, stands for code, and it may look at the clock. -/
def movedDown : Variation :=
  ⟨fun formals body formals' body' => formals = formals' ∧
    ∃ lines, body' = body.map (Expression.relocate (Position.down lines)), Eq, True⟩

/-- Code further down has the same formals. -/
theorem keepsFormals_movedDown : movedDown.KeepsFormals :=
  fun _ _ _ _ h => h.1

/-- No lines further down is the same place. -/
theorem allowsSame_movedDown : movedDown.AllowsSame where
  lambdas _ body := ⟨rfl, 0, (Expression.map_relocate_id body).symm⟩
  names _ := rfl

end Variation

/-- A token has the same text at any place. -/
@[simp]
theorem Token.text_relocate (move : Position → Position) (token : Token) :
    (token.relocate move).text = token.text :=
  rfl

/-- Tokens have the same texts at any places. -/
theorem Token.map_text_relocate (move : Position → Position) (tokens : List Token) :
    (tokens.map (relocate move)).map text = tokens.map text := by
  simp

mutual

/-- A datum is like itself at any place. -/
theorem Datum.alike_relocate (move : Position → Position) :
    ∀ datum : Datum, datum.Alike (datum.relocate move)
  | .atom _ => by
    rw [relocate]
    exact .atom ⟨rfl, rfl, rfl⟩
  | .list items => by
    rw [relocate]
    exact .list (alikeRow_relocate move items)

/-- A row of data is like itself at any places. -/
theorem Datum.alikeRow_relocate (move : Position → Position) :
    ∀ items : List Datum, AlikeRow items (items.map (relocate move))
  | [] => .nil
  | item :: items => .cons (alike_relocate move item) (alikeRow_relocate move items)

end

mutual

/-- Code is like the same code further down where its names stand for themselves. -/
theorem Expression.alike_down (lines : Nat) {scope : Scope} :
    ∀ expression : Expression, (∀ name ∈ expression.names, scope name name) →
      expression.Alike .movedDown scope (expression.relocate (Position.down lines))
  | .literal token, hnames => by
    rw [relocate]
    by_cases hkind : token.kind = .identifier
    · have hname : token.text ∈ (Expression.literal token).names := by simp [names, hkind]
      exact .identifier hkind hkind (hnames token.text hname) rfl
    · exact .constant hkind hkind rfl
  | .quoted datum, _ => by
    rw [relocate]
    exact .quoted (datum.alike_relocate _)
  | .conditional predicate consequent alternative, hnames => by
    simp only [names, List.mem_append] at hnames
    rw [relocate]
    apply Alike.conditional
    · exact alike_down lines predicate fun name hname => hnames name (.inl (.inl hname))
    · exact alike_down lines consequent fun name hname => hnames name (.inl (.inr hname))
    · exact alike_down lines alternative fun name hname => hnames name (.inr hname)
  | .lambda formals body, hnames => by
    simp only [names, List.mem_append] at hnames
    have hformals := Token.map_text_relocate (Position.down lines) formals
    rw [relocate]
    refine .lambda ⟨hformals.symm, lines, rfl⟩ (List.length_map _).symm ?_
    rw [hformals]
    refine alikeRow_down lines body fun name hname => ?_
    exact Scope.enter_self (.inr (hnames name (.inr hname)))
  | .application head arguments, hnames => by
    simp only [names, List.mem_append] at hnames
    rw [relocate]
    apply Alike.application
    · exact alike_down lines head fun name hname => hnames name (.inl hname)
    · exact alikeRow_down lines arguments fun name hname => hnames name (.inr hname)

/-- A row of code is like the same code further down. -/
theorem Expression.alikeRow_down (lines : Nat) {scope : Scope} :
    ∀ row : List Expression, (∀ name ∈ namesOfRow row, scope name name) →
      AlikeRow .movedDown scope row (row.map (relocate (Position.down lines)))
  | [], _ => .nil
  | expression :: row, hnames => by
    simp only [namesOfRow, List.mem_append] at hnames
    apply AlikeRow.cons
    · exact alike_down lines expression fun name hname => hnames name (.inl hname)
    · exact alikeRow_down lines row fun name hname => hnames name (.inr hname)

end

/-- A form is like the same form further down. -/
theorem Form.alike_down (lines : Nat) {scope : Scope} (form : Form)
    (hnames : ∀ name ∈ form.names, scope name name) :
    form.Alike .movedDown scope (form.relocate (Position.down lines)) := by
  cases form with
  | definition name value => exact .definition rfl (value.alike_down lines hnames)
  | expression whole => exact .expression (whole.alike_down lines hnames)

/-- The forms of a source are like the same forms further down. -/
theorem Program.alike_of_isOf {source : String} {program : Program} (h : program.IsOf source) :
    Alike .movedDown (readSource source).1 program := by
  rcases h with ⟨lines, rfl⟩
  rw [Program.Alike, List.forall₂_map_right_iff, List.forall₂_same]
  exact fun form _ => form.alike_down lines fun _ _ => ⟨rfl, fun _ => trivial⟩

/-! ## Actions that end with values -/

/-- If two actions in turn end with a value, then both of them do. -/
theorem Action.exists_of_runOn_bind {ε α β : Type} {first : Action ε α} {next : α → Action ε β}
    {store after : Store} {result : β} (h : (first >>= next).runOn store = (.ok result, after)) :
    ∃ value middle, first.runOn store = (.ok value, middle) ∧
      (next value).runOn middle = (.ok result, after) := by
  rw [runOn_bind] at h
  cases hfirst : first.runOn store with
  | mk ending middle =>
    rw [hfirst] at h
    cases ending with
    | ok value => exact ⟨value, middle, rfl, h⟩
    | error stop => cases h

/-- A run that ends with a value has read its source without errors. -/
theorem exists_of_run_ok {fuel : Nat} {id : EnvironmentId} {source : String}
    {store after : Store} {value : Value}
    (h : (run fuel id source).runOn store = (.ok value, after)) :
    (readSource source).2 = [] ∧
      (evaluateProgram fuel id (readSource source).1).runOn store = (.ok value, after) := by
  cases hevaluated : (evaluateProgram fuel id (readSource source).1).runOn store with
  | mk ending last =>
    rw [run_runOn fuel id source hevaluated, Prod.mk.injEq] at h
    rcases h with ⟨hending, rfl⟩
    cases herrors : (readSource source).2 with
    | nil =>
      rw [herrors] at hending
      cases ending with
      | ok result =>
        cases hending
        exact ⟨rfl, rfl⟩
      | error stop => cases stop <;> cases hending
    | cons error errors =>
      rw [herrors] at hending
      cases ending with
      | ok result => cases hending
      | error stop => cases stop <;> cases hending

/-- Two programs that end with values one after the other do so together. -/
theorem exists_evaluateProgram_append {fuel : Nat} {id : EnvironmentId} {first rest : Program}
    {store middle after : Store} {value result : Value}
    (hfirst : (evaluateProgram fuel id first).runOn store = (.ok value, middle))
    (hrest : (evaluateProgram fuel id rest).runOn middle = (.ok result, after)) :
    ∃ last, (evaluateProgram fuel id (first ++ rest)).runOn store = (.ok last, after) := by
  cases rest with
  | nil =>
    cases hrest
    exact ⟨value, by rwa [List.append_nil]⟩
  | cons form rest =>
    refine ⟨result, ?_⟩
    rw [evaluateProgram_append, Action.runOn_bind, hfirst]
    exact hrest

/-! ## Entry by entry -/

/-- Run sources one after another, as long as they end with values. -/
def runEach (fuel : Nat) (id : EnvironmentId) (sources : List String) :
    Action RunError (List Value) :=
  sources.mapM (run fuel id)

variable {before : Twins} {id other : EnvironmentId} {fuel : Nat}

/-- What a source leads to, its forms lead to further down as well. -/
theorem run_alike_down (h : before.Sound .movedDown) (htop : before.world.AtTop .movedDown id other)
    {source : String} {program : Program} (hprogram : program.IsOf source) {value : Value}
    {store : Store} (hrun : (run fuel id source).runOn before.left = (.ok value, store)) :
    ∃ (after : Twins) (value' : Value), after.left = store ∧
      (evaluateProgram fuel other program).runOn before.right = (.ok value', after.right) ∧
      before.Follows after ∧ after.Sound .movedDown := by
  have hevaluated := (exists_of_run_ok hrun).2
  cases evaluateProgram_agree fuel h htop (Program.alike_of_isOf hprogram) with
  | intro after hleft hright hafter hsound hends =>
    rw [hevaluated, Prod.mk.injEq] at hleft
    rcases hleft with ⟨rfl, hstore⟩
    cases hends with
    | ok hvalue => exact ⟨after, _, hstore.symm, hright, hafter, hsound⟩

/-- What the sources of entries lead to one after another, their forms put together lead to as
well, where dropped entries have no forms. -/
theorem runEach_alike {entries : List Entry} {programs : List Program}
    (hprograms : List.Forall₂ Program.IsOf (entries.map Entry.text) programs)
    (hdropped : ∀ text, .dropped text ∈ entries → (readSource text).1 = [])
    (h : before.Sound .movedDown) (htop : before.world.AtTop .movedDown id other)
    {values : List Value} {store : Store}
    (hruns : (runEach fuel id (Entry.sources entries)).runOn before.left = (.ok values, store)) :
    ∃ (after : Twins) (value : Value), after.left = store ∧
      (evaluateProgram fuel other programs.flatten).runOn before.right =
        (.ok value, after.right) ∧
      before.Follows after ∧ after.Sound .movedDown := by
  induction entries generalizing before programs values with
  | nil =>
    cases hprograms
    cases hruns
    exact ⟨before, .nil, rfl, rfl, refl_of _ before, h⟩
  | cons entry entries ih =>
    cases hprograms with
    | @cons _ program _ programs hprogram hprograms =>
      have hrest : ∀ text, .dropped text ∈ entries → (readSource text).1 = [] :=
        fun text htext => hdropped text (List.mem_cons_of_mem entry htext)
      rw [List.flatten_cons]
      cases entry with
      | dropped text =>
        rcases hprogram with ⟨lines, rfl⟩
        have hnone : (readSource text).1 = [] := hdropped text List.mem_cons_self
        simp only [Entry.text, hnone, List.map_nil, List.nil_append]
        exact ih hprograms hrest h htop hruns
      | returned source =>
        rw [Entry.sources, runEach, List.mapM_cons] at hruns
        rcases Action.exists_of_runOn_bind hruns with ⟨value, middle, hfirst, hruns⟩
        rcases Action.exists_of_runOn_bind hruns with ⟨values, last, hothers, hlast⟩
        cases hlast
        obtain ⟨between, value', hleft, hright, hfollows, hsound⟩ :=
          run_alike_down h htop hprogram hfirst
        subst hleft
        obtain ⟨after, result, hstore, hrun, hafter, hsound'⟩ :=
          ih hprograms hrest hsound (htop.mono hfollows.within) hothers
        rcases exists_evaluateProgram_append hright hrun with ⟨result', hwhole⟩
        exact ⟨after, result', hstore, hwhole, trans_of _ hfollows hafter, hsound'⟩

/-- The sources of entries that all end with values have no errors. -/
theorem errors_of_runEach {store after : Store} {sources : List String} {values : List Value}
    (h : (runEach fuel id sources).runOn store = (.ok values, after)) :
    ∀ source ∈ sources, (readSource source).2 = [] := by
  induction sources generalizing store values with
  | nil => simp
  | cons source sources ih =>
    rw [runEach, List.mapM_cons] at h
    rcases Action.exists_of_runOn_bind h with ⟨value, middle, hfirst, hrest⟩
    rcases Action.exists_of_runOn_bind hrest with ⟨values, last, hothers, hlast⟩
    cases hlast
    rw [List.forall_mem_cons]
    exact ⟨(exists_of_run_ok hfirst).1, ih hothers⟩

/-! ## Evaluators in the same state -/

/-- Make an evaluator and run some sources with it, whatever they end with. -/
def makeEvaluatorAfter (fuel : Nat) (history : List (Clock × String)) :
    StateM Store EnvironmentId := do
  let id ← Store.allocateGlobal
  let _ ← observeAll (run fuel id) history
  return id

/-- Whatever an evaluator has run, what it has come to is the same as in another process in which
an evaluator has run the same. -/
theorem makeEvaluatorAfter_sound (fuel : Nat) (history : List (Clock × String)) (store : Store) :
    let evaluator := (makeEvaluatorAfter fuel history).run store
    ∃ world : World, Twins.Sound .movedDown ⟨world, evaluator.2, evaluator.2⟩ ∧
      world.AtTop .movedDown evaluator.1 evaluator.1 := by
  intro evaluator
  have hmade : Twins.Lead .movedDown (World.AtTop .movedDown)
      (makeEvaluatorAfter fuel history) (makeEvaluatorAfter fuel history)
      (Twins.strangers store store) := by
    apply Twins.Lead.bind _ (allocateGlobal_lead (Twins.coherent_strangers store store))
    intro middle id other _ hcoherent htop
    have hsame : List.Forall₂ Eq (history.map Prod.snd) (history.map Prod.snd) := by
      rw [List.forall₂_eq_eq_eq]
    have hagree : ∀ (source source' : String) (after : Twins), source = source' →
        middle.Follows after → after.Sound .movedDown →
        (run fuel id source).Agree .movedDown (Value.Matches .movedDown) Eq
          (run fuel other source') after := by
      rintro source _ after rfl hafter hsound
      apply run_agree Variation.keepsFormals_movedDown hsound (htop.mono hafter.within)
      exact Program.alike_self Variation.allowsSame_movedDown _ fun _ => trivial
    apply Twins.Lead.bind _ (observeAll_alike hcoherent hsame (fun _ => rfl) hagree)
    exact fun after _ _ hafter hcoherent _ => .pure hcoherent (htop.mono hafter.within)
  rcases hmade.exists_world with ⟨world, _, hcoherent, htop⟩
  refine ⟨world, ⟨hcoherent, ?_, fun _ => rfl⟩, htop⟩
  rw [List.forall₂_same]
  exact fun line _ => .same line

/-! ## The whole script -/

/-- Lines are entered one after another, no entry is unfinished in the end, what is dropped is
white space to the reader, and the sources of the other entries all end with values when one
evaluator runs them.  Then another evaluator that is in the same state, up to a renaming of
identities and the places of tokens in closures, runs the lines as a whole, joined by newlines:
this ends with a value too, prints the same lines in the same order, and leaves a state that is
the same in this sense again.  In particular the environments of the two have the same bindings
and interned symbols.  The clock is part of the state: it reads the same on both sides each time
that it is looked at, whatever it reads. -/
theorem run_intercalate_lines {lines : List String}
    (hempty : (EntryBuffer.empty.enter lines).2 = .empty)
    (hdrops : ∀ text ∈ Entry.drops (EntryBuffer.empty.enter lines).1,
      ∀ c ∈ text.toList, CharClass.isSpace c = true)
    (h : before.Sound .movedDown)
    (htop : before.world.AtTop .movedDown id other) {values : List Value} {store : Store}
    (hruns : (runEach fuel id (Entry.sources (EntryBuffer.empty.enter lines).1)).runOn before.left =
      (.ok values, store)) :
    ∃ (after : Twins) (value : Value), after.left = store ∧
      (run fuel other ("\n".intercalate lines)).runOn before.right = (.ok value, after.right) ∧
      after.right.printed = store.printed ∧
      Environment.Matches .movedDown after.world
        (Variation.globalScope .movedDown) (store.environment id)
        (after.right.environment other) ∧
      before.Follows after ∧ after.Coherent .movedDown := by
  have hspaces : ∀ text, .dropped text ∈ (EntryBuffer.empty.enter lines).1 →
      readSource text = ([], []) :=
    fun text htext => readSource_of_isSpace (hdrops text (Entry.mem_drops.2 htext))
  have herrors : ∀ text ∈ (EntryBuffer.empty.enter lines).1.map Entry.text,
      (readSource text).2 = [] := by
    intro text htext
    rcases List.mem_map.1 htext with ⟨entry, hentry, rfl⟩
    cases entry with
    | returned source => exact errors_of_runEach hruns source (Entry.mem_sources.2 hentry)
    | dropped text =>
      have hspace := hspaces text hentry
      simp [Entry.text, hspace]
  rcases readSource_intercalate herrors with ⟨programs, hprograms, hread⟩
  have hnone : ∀ text, .dropped text ∈ (EntryBuffer.empty.enter lines).1 →
      (readSource text).1 = [] := by
    intro text htext
    rw [hspaces text htext]
  obtain ⟨after, value, hstore, hevaluated, hfollows, hsound⟩ :=
    runEach_alike hprograms hnone h htop hruns
  rw [← EntryBuffer.intercalate_enter hempty] at hread
  have htop' := htop.mono hfollows.within
  subst hstore
  refine ⟨after, value, rfl, ?_, ?_, ?_, hfollows, hsound.toCoherent⟩
  · have hforms : (evaluateProgram fuel other (readSource ("\n".intercalate lines)).1).runOn
        before.right = (.ok value, after.right) := by
      rw [hread]
      exact hevaluated
    rw [run_runOn fuel other _ hforms, hread]
    rfl
  · have hlines := hsound.printed.imp fun _ _ hline =>
      hline.eq Variation.keepsFormals_movedDown
    rw [List.forall₂_eq_eq_eq] at hlines
    exact (Array.toList_inj.1 hlines).symm
  · have hmatches := hsound.environment htop'.pair
    rwa [htop'.scope] at hmatches

/-- Two lines that begin a string and a function, one that ends the function, a line that is
dropped, a comment, and a line with two forms, one of which calls the function, with a clock that
goes on from one look to the next. -/
theorem run_intercalate_lines_function :
    let lines := ["(define s \"a(", "\") (define f (lambda (x) ; )", "(p x (time) s) f))", " \t",
      "; (", "((f 'b) (time)) #\\("]
    let entered := EntryBuffer.empty.enter lines
    let clock : Clock := ⟨fun look => Int64.ofNat (1000 * look), 0⟩
    let evaluator := (makeEvaluatorAfter 9 [(clock, "(define f '(b (c)))")]).run (.initial 0)
    let ran := (runEach 9 evaluator.1 (Entry.sources entered.1)).runOn evaluator.2
    entered.2 = .empty ∧
      (∀ text ∈ Entry.drops entered.1, ∀ c ∈ text.toList, CharClass.isSpace c = true) ∧
      ∃ (before : Twins) (values : List Value), before.Sound .movedDown ∧
        before.world.AtTop .movedDown evaluator.1 evaluator.1 ∧
        before.left = evaluator.2 ∧ before.right = evaluator.2 ∧
        ran = (.ok values, ran.2) ∧
        ∃ (after : Twins) (value : Value), after.left = ran.2 ∧
          (run 9 evaluator.1 ("\n".intercalate lines)).runOn evaluator.2 =
            (.ok value, after.right) ∧
          after.right.printed = ran.2.printed ∧
          Environment.Matches .movedDown after.world
            (Variation.globalScope .movedDown) (ran.2.environment evaluator.1)
            (after.right.environment evaluator.1) ∧
          before.Follows after ∧ after.Coherent .movedDown := by
  intro lines entered clock evaluator ran
  have hempty : entered.2 = .empty := by decide +kernel
  have hdrops : ∀ text ∈ Entry.drops entered.1,
      ∀ c ∈ text.toList, CharClass.isSpace c = true := by
    have hall : (Entry.drops entered.1).all (fun text => text.toList.all CharClass.isSpace) =
        true := by
      decide +kernel
    exact fun text htext => List.all_eq_true.1 (List.all_eq_true.1 hall text htext)
  obtain ⟨values, hvalues⟩ : ∃ values, ran.1 = .ok values := by
    have hok : ran.1.isOk = true := by decide +kernel
    cases hends : ran.1 with
    | ok values => exact ⟨values, rfl⟩
    | error stop =>
      rw [hends] at hok
      cases hok
  have hruns : ran = (.ok values, ran.2) := Prod.ext hvalues rfl
  rcases makeEvaluatorAfter_sound 9 [(clock, "(define f '(b (c)))")] (.initial 0) with
    ⟨world, hsound, htop⟩
  refine ⟨hempty, hdrops, ⟨world, evaluator.2, evaluator.2⟩, values, hsound, htop, rfl, rfl,
    hruns, ?_⟩
  exact run_intercalate_lines hempty hdrops hsound htop hruns

end MiniScheme
