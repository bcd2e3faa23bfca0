import MiniScheme.Proofs.Agreement
import MiniScheme.Proofs.Frame

/-!
# Evaluating code that is alike

Code that is alike, evaluated in environments that stand for each other, ends alike: with
corresponding values, with the same error, or for want of fuel on both sides.  The same fuel is
enough on both sides, and everything that is made, interned, bound and printed on the way
corresponds.  The proof goes along the evaluation, in a world that grows with it.

Main results:

- Theorem `Procedure.call_agree`: the primitive functions respect correspondence.
- Theorem `evaluate_agree`: so does the evaluation of expressions.
- Theorems `evaluateForm_agree` and `evaluateProgram_agree`: so does that of forms and programs
  at the top level.
-/

namespace MiniScheme

/-! ## Errors -/

/-- The same error up to the formals that it shows. -/
inductive EvalError.Alike (variation : Variation) : EvalError → EvalError → Prop
  | same (error : EvalError) : EvalError.Alike variation error error
  | notCallable {text text' : String} (h : TextAlike variation text text') :
    EvalError.Alike variation (.notCallable text) (.notCallable text')

/-- Errors that are alike are the same where formals never differ. -/
theorem EvalError.Alike.eq {variation : Variation} (h : variation.KeepsFormals)
    {error error' : EvalError} (herror : error.Alike variation error') : error = error' := by
  cases herror with
  | same => rfl
  | notCallable htext => rw [htext.eq h]

variable {variation : Variation} {before : Twins}

/-- Evaluations that end with corresponding values or with the same error. -/
abbrev Action.Simulate (variation : Variation) (left right : Evaluation Value) (before : Twins) :
    Prop :=
  Action.Agree variation (Value.Matches variation) (EvalError.Alike variation) left right before

/-! ## Lists -/

/-- New lists of corresponding values correspond. -/
theorem Store.list_agree {errors : EvalError → EvalError → Prop} (h : before.Sound variation)
    {values values' : List Value}
    (hvalues : List.Forall₂ (Value.Matches variation before.world) values values') :
    Action.Agree variation (Cells.Matches variation) errors (liftM (Store.list values))
      (liftM (Store.list values')) before := by
  have hfollows : before.Follows (before.give 0 values.length) := before.follows_give 0 _
  have hleft : (Store.list values).run before.left =
      (.ofList before.left.nextObject values, (before.give 0 values.length).left) :=
    rfl
  have hright : (Store.list values').run before.right =
      (.ofList before.right.nextObject values', (before.give 0 values.length).right) := by
    rw [hvalues.length_eq]
    rfl
  apply Action.Agree.lift _ hleft hright hfollows (h.give 0 _)
  apply Cells.Matches.ofList (hvalues.imp fun _ _ hvalue => hvalue.mono hfollows.within)
  exact before.objects.inOrder_add values.length

/-- New list values correspond when their items do. -/
theorem Store.list_simulate (h : before.Sound variation) {values values' : List Value}
    (hvalues : List.Forall₂ (Value.Matches variation before.world) values values') :
    Action.Simulate variation (do return .list (← Store.list values))
      (do return .list (← Store.list values')) before := by
  apply Action.Agree.bind _ (Store.list_agree h hvalues)
  exact fun after cells cells' _ hsound hcells => .pure hsound (.list hcells)

/-! ## Procedures -/

/-- Corresponding arguments are read alike, whether they have the right kind or not. -/
theorem readArguments_eq {α : Type} {world : World} (expected : ValueKind)
    {read? : Value → Option α}
    (hread : ∀ {value value' : Value}, value.Matches variation world value' →
      read? value = read? value')
    (place : Nat) {values values' : List Value}
    (h : List.Forall₂ (Value.Matches variation world) values values') :
    readArguments expected read? place values = readArguments expected read? place values' := by
  induction h generalizing place with
  | nil => rfl
  | cons hvalue _ ih => rw [readArguments, readArguments, hread hvalue, hvalue.kind_eq, ih]

/-- An operation on numbers does the same on both sides. -/
theorem NumericOperation.call_agree (h : before.Sound variation) (operation : NumericOperation)
    (numbers : List Int64) :
    Action.Simulate variation (operation.call numbers) (operation.call numbers) before := by
  unfold call
  split
  next =>
    apply Action.Agree.bind fun _ => Eq
    · exact Action.Agree.ofExcept h (fun _ => Eq.refl _) EvalError.Alike.same _
    · rintro after number _ - hsound rfl
      exact .pure hsound (.number number)
  next => exact .pure h (.boolean _)
  next => exact .fail h (.same _)
  next =>
    apply Store.list_simulate h
    rw [List.forall₂_map_left_iff, List.forall₂_map_right_iff, List.forall₂_same]
    exact fun number _ => .number number

/-- So does an operation on booleans. -/
theorem BooleanOperation.call_agree (h : before.Sound variation) (operation : BooleanOperation)
    (booleans : List Bool) :
    Action.Simulate variation (operation.call booleans) (operation.call booleans) before := by
  unfold call
  split
  next => exact .pure h (.boolean _)
  next => exact .pure h (.boolean _)
  next => exact .pure h (.boolean _)
  next => exact .fail h (.same _)
  next =>
    apply Store.list_simulate h
    rw [List.forall₂_map_left_iff, List.forall₂_map_right_iff, List.forall₂_same]
    exact fun boolean _ => .boolean boolean

/-- Corresponding parts are taken from corresponding lists. -/
theorem Selector.select_agree (h : before.Sound variation) (selector : Selector)
    {cells cells' : Cells} (hcells : cells.Matches variation before.world cells') :
    Action.Simulate variation (Action.ofExcept (selector.select cells))
      (Action.ofExcept (selector.select cells')) before := by
  cases hcells with
  | empty => cases selector <;> exact .fail h (.same _)
  | cell _ hfirst hrest =>
    cases selector with
    | car => exact .pure h hfirst
    | cdr => exact .pure h (.list hrest)

/-- Operations on values of any kind respect correspondence. -/
theorem GeneralOperation.call_agree (h : before.Sound variation) (operation : GeneralOperation)
    (htime : operation = .time → variation.timed) {values values' : List Value}
    (hvalues : List.Forall₂ (Value.Matches variation before.world) values values') :
    Action.Simulate variation (operation.call values) (operation.call values') before := by
  have hlength := hvalues.length_eq
  cases operation with
  | select selector =>
    cases hvalues with
    | nil => exact .fail h (.same _)
    | cons hvalue hrest =>
      cases hrest with
      | nil =>
        cases hvalue with
        | list hcells => exact selector.select_agree h hcells
        | _ => exact .fail h (.same _)
      | cons =>
        rw [call, call, hlength]
        · exact .fail h (.same _)
        all_goals exact nofun
  | isNull =>
    cases hvalues with
    | nil => exact .fail h (.same _)
    | cons hvalue hrest =>
      cases hrest with
      | nil =>
        cases hvalue with
        | list hcells => cases hcells <;> exact .pure h (.boolean _)
        | _ => exact .pure h (.boolean _)
      | cons =>
        rw [call, call, hlength]
        · exact .fail h (.same _)
        all_goals exact nofun
  | isEq =>
    match hvalues with
    | .cons hfirst (.cons hsecond .nil) =>
      rw [call, call, hfirst.isEq_eq h.oneToOne hsecond]
      exact .pure h (.boolean _)
    | .nil => exact .fail h (.same _)
    | .cons _ .nil => exact .fail h (.same _)
    | .cons _ (.cons _ (.cons _ _)) =>
      refine Action.Agree.fail h ?_
      rw [hlength]
      exact .same _
  | print =>
    have hline : TextAlike variation (" ".intercalate (values.map Value.text))
        (" ".intercalate (values'.map Value.text)) := by
      apply TextAlike.intercalate
      rw [List.forall₂_map_left_iff, List.forall₂_map_right_iff]
      exact hvalues.imp fun _ _ hvalue => hvalue.text
    apply Action.Agree.bind fun _ _ _ => True
    · exact .lift (before.print _ _) rfl rfl (before.follows_print _ _) (h.print hline) trivial
    · exact fun after _ _ _ hsound _ => .pure hsound .nil
  | time =>
    have hreading : before.left.clock.reading = before.right.clock.reading :=
      congrArg Clock.reading (h.clock (htime rfl))
    apply Action.Agree.bind fun _ => Eq
    · exact .lift before.look rfl rfl before.follows_look h.look hreading
    · rintro after reading _ _ hsound rfl
      exact .pure hsound (.number _)
  | list => exact Store.list_simulate h hvalues

/-- The primitive functions respect correspondence. -/
theorem Procedure.call_agree (h : before.Sound variation) (procedure : Procedure)
    (htime : procedure.readsClock = true → variation.timed) {arguments arguments' : List Value}
    (harguments : List.Forall₂ (Value.Matches variation before.world) arguments arguments') :
    Action.Simulate variation (procedure.call arguments) (procedure.call arguments') before := by
  induction procedure with
  | counted arity inner ih =>
    rw [call, call, harguments.length_eq]
    split
    · exact ih htime
    · exact .fail h (.same _)
  | numeric operation =>
    rw [call, call, readArguments_eq .number Value.Matches.number?_eq 1 harguments]
    apply Action.Agree.bind fun _ => Eq
    · exact Action.Agree.ofExcept h (fun _ => Eq.refl _) EvalError.Alike.same _
    · rintro after numbers _ - hsound rfl
      exact operation.call_agree hsound numbers
  | boolean operation =>
    rw [call, call, readArguments_eq .boolean Value.Matches.boolean?_eq 1 harguments]
    apply Action.Agree.bind fun _ => Eq
    · exact Action.Agree.ofExcept h (fun _ => Eq.refl _) EvalError.Alike.same _
    · rintro after booleans _ - hsound rfl
      exact operation.call_agree hsound booleans
  | general operation =>
    refine operation.call_agree h (fun hoperation => htime ?_) harguments
    rw [hoperation]
    rfl

/-! ## Quoted data -/

/-- Names are interned as corresponding symbols, whether they have been before or not. -/
theorem Store.intern_agree {errors : EvalError → EvalError → Prop} (h : before.Sound variation)
    {id other : EnvironmentId} (hpair : before.world.environments id other) (name : String) :
    Action.Agree variation Symbol.Matches errors (liftM (Store.intern id name))
      (liftM (Store.intern other name)) before := by
  have hfound : Option.Rel (Symbol.Matches before.world)
      ((before.left.environment id).symbol? name) ((before.right.environment other).symbol? name) :=
    ((h.environment hpair).symbols name name rfl).1
  unfold Store.intern
  rw [Action.lift_bind, Action.lift_bind]
  apply Action.Agree.bind fun world left right => Option.Rel (Symbol.Matches world)
    ((left.environment id).symbol? name) ((right.environment other).symbol? name)
  · exact .lift before rfl rfl (refl_of _ before) h hfound
  intro middle left right hmiddle hsound hfound
  generalize (left.environment id).symbol? name = found at hfound ⊢
  generalize (right.environment other).symbol? name = found' at hfound ⊢
  cases hfound with
  | some hsymbol => exact .pure hsound hsymbol
  | none =>
    have hgiven : (middle.give 1 0).Sound variation := hsound.give 1 0
    have hpair' : (middle.give 1 0).world.environments id other :=
      hmiddle.environments.pairing hpair
    have hnew : Symbol.Matches (middle.give 1 0).world ⟨name, middle.left.nextSymbol⟩
        ⟨name, middle.right.nextSymbol⟩ :=
      ⟨rfl, (middle.symbols.inOrder_add 1).head⟩
    refine .lift _ rfl rfl ?_ (hgiven.update hpair' ((hgiven.environment hpair').addSymbol hnew))
      hnew
    exact trans_of _ (middle.follows_give 1 0) (Twins.follows_update hpair' _ _)

mutual

/-- Quoted data becomes corresponding values. -/
theorem quoteDatum_agree {errors : EvalError → EvalError → Prop} {before : Twins}
    (h : before.Sound variation) {id other : EnvironmentId}
    (hpair : before.world.environments id other) {datum datum' : Datum} :
    datum.Alike datum' → Action.Agree variation (Value.Matches variation) errors
      (liftM (quoteDatum id datum)) (liftM (quoteDatum other datum')) before
  | .atom htoken => by
    unfold quoteDatum
    rw [htoken.kind, htoken.text]
    split
    next =>
      rw [Action.lift_bind, Action.lift_bind]
      apply Action.Agree.bind _ (Store.intern_agree h hpair _)
      exact fun after symbol symbol' _ hsound hsymbol => .pure hsound (.symbol hsymbol)
    next => exact .pure h (.ofLiteral htoken.constant)
  | .list hitems => by
    unfold quoteDatum
    rw [Action.lift_bind, Action.lift_bind]
    apply Action.Agree.bind _ (quoteItems_agree h hpair hitems)
    intro middle values values' _ hsound hvalues
    rw [Action.lift_bind, Action.lift_bind]
    apply Action.Agree.bind _ (Store.list_agree hsound hvalues)
    exact fun after cells cells' _ hsound hcells => .pure hsound (.list hcells)

/-- Data that are alike become corresponding values one by one. -/
theorem quoteItems_agree {errors : EvalError → EvalError → Prop} {before : Twins}
    (h : before.Sound variation) {id other : EnvironmentId}
    (hpair : before.world.environments id other)
    {items items' : List Datum} :
    Datum.AlikeRow items items' →
      Action.Agree variation (fun world => List.Forall₂ (Value.Matches variation world)) errors
        (liftM (quoteItems id items)) (liftM (quoteItems other items')) before
  | .nil => .pure h .nil
  | .cons hitem hitems => by
    unfold quoteItems
    rw [Action.lift_bind, Action.lift_bind]
    apply Action.Agree.bind _ (quoteDatum_agree h hpair hitem)
    intro middle value value' hmiddle hsound hvalue
    rw [Action.lift_bind, Action.lift_bind]
    apply Action.Agree.bind _
      (quoteItems_agree hsound (hmiddle.environments.pairing hpair) hitems)
    intro after values values' hafter hsound hvalues
    exact .pure hsound (.cons (hvalue.mono hafter.within) hvalues)

end

/-! ## Expressions -/

/-- An evaluation in which code that is alike ends alike, wherever it is evaluated. -/
def Respects (variation : Variation)
    (evaluate : EnvironmentId → Expression → Evaluation Value) : Prop :=
  ∀ {before : Twins} {id other : EnvironmentId} {expression expression' : Expression},
    before.Sound variation → before.world.environments id other →
    expression.Alike variation (before.world.scope id) expression' →
    Action.Simulate variation (evaluate id expression) (evaluate other expression') before

/-- Rows of expressions that are alike end alike. -/
theorem evaluateBody_agree {evaluate : EnvironmentId → Expression → Evaluation Value}
    (hevaluate : Respects variation evaluate) (h : before.Sound variation)
    {id other : EnvironmentId} (hpair : before.world.environments id other)
    {body body' : List Expression}
    (hbody : Expression.AlikeRow variation (before.world.scope id) body body') :
    Action.Simulate variation (evaluateBody (evaluate id) body)
      (evaluateBody (evaluate other) body') before := by
  apply Action.Agree.foldlM h .nil hbody.forall₂
  intro expression expression' after _ _ hexpression hafter hsound _
  rw [← hafter.scope hpair] at hexpression
  exact hevaluate hsound (hafter.environments.pairing hpair) hexpression

/-- Calls of functions that stand for each other end alike. -/
theorem callWith_agree {evaluate : EnvironmentId → Expression → Evaluation Value}
    (hevaluate : Respects variation evaluate) (h : before.Sound variation)
    {function function' : Function} (hfunction : function.Matches variation before.world function')
    {arguments arguments' : List Value}
    (harguments : List.Forall₂ (Value.Matches variation before.world) arguments arguments') :
    Action.Simulate variation (callWith evaluate function arguments)
      (callWith evaluate function' arguments') before := by
  cases hfunction with
  | primitive _ timed => exact Procedure.call_agree h _ timed harguments
  | @closure _ _ formals formals' _ _ id other _ hpair _ hlength hrow =>
    rcases Nat.lt_or_ge arguments.length formals.length with hcount | hcount
    · have hcount' : arguments'.length < formals'.length := by
        rwa [← hlength, ← harguments.length_eq]
      rw [callWith, callWith, if_pos hcount, if_pos hcount', hlength, harguments.length_eq]
      exact .fail h (.same _)
    · have hcount' : formals'.length ≤ arguments'.length := by
        rwa [← hlength, ← harguments.length_eq]
      -- both calls make an environment, and these stand for each other from then on
      have hnew := (h.environment hpair).enter harguments hcount hlength
      have hmade := before.environments_allocate ((before.world.scope id).enter formals formals')
        ((before.left.environment id).enter formals arguments)
        ((before.right.environment other).enter formals' arguments')
      apply Action.Agree.of_runOn_eq (callWith_closure evaluate _ _ _ hcount before.left)
        (callWith_closure evaluate _ _ _ hcount' before.right)
        (Twins.follows_allocate h.environments _ _ _)
      refine evaluateBody_agree hevaluate (h.allocate hnew) hmade ?_
      rwa [Twins.scope_allocate]

/-- Code that is alike ends alike. -/
theorem evaluate_agree (fuel : Nat) : Respects variation (evaluate fuel) := by
  induction fuel with
  | zero => exact fun hsound _ _ => .exhausted hsound
  | succ fuel ih =>
    intro before id other expression expression' h hpair halike
    cases halike with
    | @identifier _ token token' hkind hkind' hscope _ =>
      rw [evaluate, evaluate, if_pos hkind, if_pos hkind']
      apply Action.Agree.bind fun world found found' =>
        Option.Rel (Value.Matches variation world) found found' ∧
          (found = none → token.text = token'.text)
      · exact .lift before rfl rfl (refl_of _ before) h
          ((h.environment hpair).bindings token.text token'.text hscope)
      rintro after found found' - hsound ⟨hfound, hname⟩
      cases hfound with
      | some hvalue => exact .pure hsound hvalue
      | none =>
        rw [hname rfl]
        exact .fail hsound (.same _)
    | constant hkind hkind' hconstant =>
      rw [evaluate, evaluate, if_neg hkind, if_neg hkind']
      exact .pure h (.ofLiteral hconstant)
    | quoted hdatum => exact quoteDatum_agree h hpair hdatum
    | conditional hpredicate hconsequent halternative =>
      rw [evaluate, evaluate]
      apply Action.Agree.bind _ (ih h hpair hpredicate)
      intro after value value' hafter hsound hvalue
      have hpair' := hafter.environments.pairing hpair
      rw [← hafter.scope hpair] at hconsequent halternative
      cases hvalue with
      | boolean b =>
        cases b with
        | true => exact ih hsound hpair' hconsequent
        | false => exact ih hsound hpair' halternative
      | _ => exact .fail hsound (.same _)
    | lambda hlambdas hlength hrow =>
      rw [evaluate, evaluate]
      have hmade : (before.give 0 1).world.objects before.left.nextObject before.right.nextObject :=
        (before.objects.inOrder_add 1).head
      apply Action.Agree.bind fun world => Function.Matches variation world
      · refine .lift _ rfl rfl (before.follows_give 0 1) (h.give 0 1) ?_
        exact .closure hmade hpair hlambdas (by simpa using hlength) hrow
      · exact fun after _ _ _ hsound hfunction => .pure hsound (.function hfunction)
    | application hhead hrow =>
      rw [evaluate, evaluate]
      apply Action.Agree.bind _ (ih h hpair hhead)
      intro middle value value' hmiddle hsound hvalue
      have hpair' := hmiddle.environments.pairing hpair
      rw [← hmiddle.scope hpair] at hrow
      cases hvalue with
      | function hfunction =>
        apply Action.Agree.bind fun world => List.Forall₂ (Value.Matches variation world)
        · apply Action.Agree.mapM hsound (fun hwithin hargument => hargument.mono hwithin)
            hrow.forall₂
          intro argument argument' after hargument hafter hsound
          rw [← hafter.scope hpair'] at hargument
          exact ih hsound (hafter.environments.pairing hpair') hargument
        · intro after values values' hafter hsound hvalues
          exact callWith_agree ih hsound (hfunction.mono hafter.within) hvalues
      | list hcells => exact .fail hsound (.notCallable (Value.Matches.list hcells).text)
      | symbol hsymbol => exact .fail hsound (.notCallable (Value.Matches.symbol hsymbol).text)
      | _ => exact .fail hsound (.same _)

/-! ## Forms -/

/-- Two environments stand for each other, and in them every name that may be used does for
itself. -/
structure World.AtTop (variation : Variation) (world : World) (id other : EnvironmentId) :
    Prop where
  pair : world.environments id other
  scope : world.scope id = variation.globalScope

/-- Environments at the top stay so. -/
theorem World.AtTop.mono {world after : World} {id other : EnvironmentId}
    (h : world.Within after) (htop : world.AtTop variation id other) :
    after.AtTop variation id other where
  pair := h.environments htop.pair
  scope := (h.scope htop.pair).trans htop.scope

/-- Forms that are alike end alike, and bind their names to corresponding values. -/
theorem evaluateForm_agree (fuel : Nat) (h : before.Sound variation) {id other : EnvironmentId}
    (htop : before.world.AtTop variation id other) {form form' : Form}
    (hform : form.Alike variation variation.globalScope form') :
    Action.Simulate variation (evaluateForm fuel id form) (evaluateForm fuel other form')
      before := by
  cases hform with
  | expression hwhole =>
    rw [← htop.scope] at hwhole
    exact evaluate_agree fuel h htop.pair hwhole
  | @definition name _ _ _ hname hvalue =>
    rw [← htop.scope] at hvalue
    rw [evaluateForm, evaluateForm, ← hname]
    apply Action.Agree.bind _ (evaluate_agree fuel h htop.pair hvalue)
    intro middle value value' hmiddle hsound hvalue
    have htop' := htop.mono hmiddle.within
    have hscope : ∀ found found', middle.world.scope id found found' → found = found' := by
      rw [htop'.scope]
      exact fun _ _ hglobal => hglobal.1
    have hchange := (hsound.environment htop'.pair).define hscope name.text hvalue
    apply Action.Agree.bind fun _ _ _ => True
    · exact .lift _ rfl rfl (Twins.follows_update htop'.pair _ _)
        (hsound.update htop'.pair hchange) trivial
    · exact fun after _ _ _ hsound _ => .pure hsound .nil

/-- So do programs. -/
theorem evaluateProgram_agree (fuel : Nat) (h : before.Sound variation) {id other : EnvironmentId}
    (htop : before.world.AtTop variation id other) {program program' : Program}
    (hprogram : Program.Alike variation program program') :
    Action.Simulate variation (evaluateProgram fuel id program)
      (evaluateProgram fuel other program') before := by
  apply Action.Agree.foldlM h .nil hprogram
  intro form form' after _ _ hform hafter hsound _
  exact evaluateForm_agree fuel hsound (htop.mono hafter.within) hform

end MiniScheme
