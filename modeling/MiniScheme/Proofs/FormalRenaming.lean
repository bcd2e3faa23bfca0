import MiniScheme.Proofs.Observation

/-!
# Renaming a formal

A formal of a lambda expression can be called by any name that does not occur in this
expression: when it is renamed together with the identifiers that it binds, in one place of a
program, the program still means the same.  The two programs bind the old name and the new one
to corresponding arguments, in environments that hold more under both names, so what
corresponds depends on the scope of each identifier.

Main results:

- Theorem `Expression.alike_rename`: code is like itself under a new name for a variable.
- Theorem `Expression.Replaces.alike`: so is code around a lambda expression in which a formal
  has been renamed.
- Theorem `evaluateForms_renameFormal`: whatever can be observed of the forms of the program
  stays the same up to the name of the formal.
-/

namespace MiniScheme

/-! ## Renaming -/

section

variable (name other : String)

/-- The token with one name in place of another one. -/
def Token.rename (token : Token) : Token :=
  { token with text := if token.text = name then other else token.text }

mutual

/-- The expression with a name in place of another one wherever this is not bound by a formal and
outside quoted data. -/
def Expression.rename : Expression → Expression
  | .literal token =>
    if token.kind = .identifier then .literal (token.rename name other) else .literal token
  | .quoted datum => .quoted datum
  | .conditional predicate consequent alternative =>
    .conditional predicate.rename consequent.rename alternative.rename
  | .lambda formals body =>
    if name ∈ formals.map Token.text then .lambda formals body
    else .lambda formals (Expression.renameRow body)
  | .application head arguments => .application head.rename (Expression.renameRow arguments)

/-- The row of expressions with a name in place of another one in each of them. -/
def Expression.renameRow : List Expression → List Expression
  | [] => []
  | expression :: row => expression.rename :: Expression.renameRow row

end

/-- The lambda expression with a formal renamed, wherever it stands among the formals, and with
it the identifiers that it binds. -/
def Expression.renameFormal (formals : List Token) (body : List Expression) : Expression :=
  .lambda (formals.map (Token.rename name other)) (renameRow name other body)

/-- The same code up to the names of the formal: lambda expressions have the same formals, or the
first is the one whose formal has been renamed and the second is what has become of it. -/
def Variation.renamedFormal (formals : List Token) (body : List Expression) (timed : Prop) :
    Variation where
  lambdas left leftBody right rightBody := left = right ∨
    left = formals.map Token.text ∧ leftBody = body ∧
      right = (formals.map (Token.rename name other)).map Token.text ∧
      rightBody = Expression.renameRow name other body
  names left right := left = right ∨ left = name ∧ right = other
  timed := timed

end

/-! ## One place in a program -/

/-- The second expression has a new expression in one place where the first one has an old one. -/
inductive Expression.Replaces (old new : Expression) : Expression → Expression → Prop
  | here : Replaces old new old new
  | predicate {left right : Expression} (h : Replaces old new left right)
    (consequent alternative : Expression) :
    Replaces old new (.conditional left consequent alternative)
      (.conditional right consequent alternative)
  | consequent (predicate : Expression) {left right : Expression}
    (h : Replaces old new left right) (alternative : Expression) :
    Replaces old new (.conditional predicate left alternative)
      (.conditional predicate right alternative)
  | alternative (predicate consequent : Expression) {left right : Expression}
    (h : Replaces old new left right) :
    Replaces old new (.conditional predicate consequent left)
      (.conditional predicate consequent right)
  | body (formals : List Token) (before : List Expression) {left right : Expression}
    (h : Replaces old new left right) (after : List Expression) :
    Replaces old new (.lambda formals (before ++ left :: after))
      (.lambda formals (before ++ right :: after))
  | head {left right : Expression} (h : Replaces old new left right)
    (arguments : List Expression) :
    Replaces old new (.application left arguments) (.application right arguments)
  | argument (head : Expression) (before : List Expression) {left right : Expression}
    (h : Replaces old new left right) (after : List Expression) :
    Replaces old new (.application head (before ++ left :: after))
      (.application head (before ++ right :: after))

/-- The second form has the new expression in one place. -/
inductive Form.Replaces (old new : Expression) : Form → Form → Prop
  | definition (name : Token) {left right : Expression}
    (h : Expression.Replaces old new left right) :
    Replaces old new (.definition name left) (.definition name right)
  | expression {left right : Expression} (h : Expression.Replaces old new left right) :
    Replaces old new (.expression left) (.expression right)

/-- The second program has the new expression in one place. -/
inductive Program.Replaces (old new : Expression) : Program → Program → Prop
  | intro (before : Program) {left right : Form} (h : left.Replaces old new right)
    (after : Program) : Replaces old new (before ++ left :: after) (before ++ right :: after)

/-! ## Scopes -/

variable {name other : String}

namespace Scope

variable {scope : Scope} {formals : List Token}

/-- A renamed formal stands for the formal. -/
theorem enter_rename (hother : other ∉ formals.map Token.text)
    (h : name ∈ formals.map Token.text ∨ scope name other) :
    scope.enter (formals.map Token.text) ((formals.map (Token.rename name other)).map Token.text)
      name other := by
  induction formals generalizing scope with
  | nil => simpa [enter, bindAll] using h
  | cons formal formals ih =>
    rw [List.map_cons, List.mem_cons, not_or] at hother
    apply ih hother.2
    by_cases hname : formal.text = name
    · exact .inr (.inl ⟨hname.symm, by simp [Token.rename, hname]⟩)
    · have hscope : name ∈ formals.map Token.text ∨ scope name other :=
        h.imp_left fun hmem => (List.mem_cons.1 hmem).resolve_left (Ne.symm hname)
      refine hscope.imp_right fun hold => .inr ⟨Ne.symm hname, ?_, hold⟩
      simpa [Token.rename, hname] using hother.1

/-- Other names stand for themselves. -/
theorem enter_rename_of_ne {found : String} (hname : found ≠ name) (hother : found ≠ other)
    (h : found ∈ formals.map Token.text ∨ scope found found) :
    scope.enter (formals.map Token.text) ((formals.map (Token.rename name other)).map Token.text)
      found found := by
  induction formals generalizing scope with
  | nil => simpa [enter, bindAll] using h
  | cons formal formals ih =>
    apply ih
    by_cases hfound : formal.text = found
    · refine .inr (.inl ⟨hfound.symm, ?_⟩)
      simp [Token.rename, hfound, hname]
    · have hscope : found ∈ formals.map Token.text ∨ scope found found :=
        h.imp_left fun hmem => (List.mem_cons.1 hmem).resolve_left (Ne.symm hfound)
      refine hscope.imp_right fun hold => .inr ⟨Ne.symm hfound, ?_, hold⟩
      by_cases hformal : formal.text = name
      · simpa [Token.rename, hformal] using hother
      · simpa [Token.rename, hformal] using Ne.symm hfound

end Scope

/-! ## Code that is alike -/

variable {formals : List Token} {body : List Expression} {timed : Prop}

/-- A new name for a formal leaves all other code as it is. -/
theorem Variation.allowsSame_renamedFormal :
    (renamedFormal name other formals body timed).AllowsSame :=
  ⟨fun _ _ => .inl rfl, fun _ => .inl rfl⟩

mutual

/-- Code is like itself under a new name for a variable. -/
theorem Expression.alike_rename {scope : Scope} (hscope : scope name other) :
    ∀ expression : Expression, other ∉ expression.names →
      (∀ found ∈ expression.names, found ≠ name → scope found found) →
      expression.Alike (.renamedFormal name other formals body timed) scope
        (expression.rename name other)
  | .literal token, _, hnames => by
    rw [Expression.rename]
    by_cases hkind : token.kind = .identifier
    · rw [if_pos hkind]
      by_cases hname : token.text = name
      · refine .identifier hkind hkind ?_ (.inr ⟨hname, ?_⟩) <;> simp [Token.rename, hname, hscope]
      · have hsame : scope token.text token.text :=
          hnames token.text (by simp [Expression.names, hkind]) hname
        refine .identifier hkind hkind ?_ (.inl ?_) <;> simp [Token.rename, hname, hsame]
    · rw [if_neg hkind]
      exact .constant hkind hkind rfl
  | .quoted datum, _, _ => .quoted (Datum.alike_self datum)
  | .conditional predicate consequent alternative, hother, hnames => by
    simp only [Expression.names, List.mem_append, not_or] at hother hnames
    apply Alike.conditional
    · exact alike_rename hscope predicate hother.1.1 fun n hn => hnames n (.inl (.inl hn))
    · exact alike_rename hscope consequent hother.1.2 fun n hn => hnames n (.inl (.inr hn))
    · exact alike_rename hscope alternative hother.2 fun n hn => hnames n (.inr hn)
  | .lambda inner row, hother, hnames => by
    simp only [Expression.names, List.mem_append, not_or] at hother hnames
    rw [Expression.rename]
    split
    next hbound =>
      -- the name is bound once more, so that nothing in the row is renamed
      refine .lambda (.inl rfl) rfl ?_
      refine alikeRow_self Variation.allowsSame_renamedFormal row fun found hfound => ?_
      apply Scope.enter_self
      by_cases hname : found = name
      · exact .inl (hname ▸ hbound)
      · exact .inr (hnames found (.inr hfound) hname)
    next hfree =>
      refine .lambda (.inl rfl) rfl ?_
      refine alikeRow_rename (Scope.enter_of_notMem hfree hother.1 hscope) row hother.2 ?_
      exact fun found hfound hname => Scope.enter_self (.inr (hnames found (.inr hfound) hname))
  | .application head arguments, hother, hnames => by
    simp only [Expression.names, List.mem_append, not_or] at hother hnames
    apply Alike.application
    · exact alike_rename hscope head hother.1 fun n hn => hnames n (.inl hn)
    · exact alikeRow_rename hscope arguments hother.2 fun n hn => hnames n (.inr hn)

/-- A row of code is like itself under a new name for a variable. -/
theorem Expression.alikeRow_rename {scope : Scope} (hscope : scope name other) :
    ∀ row : List Expression, other ∉ namesOfRow row →
      (∀ found ∈ namesOfRow row, found ≠ name → scope found found) →
      AlikeRow (.renamedFormal name other formals body timed) scope row (renameRow name other row)
  | [], _, _ => .nil
  | expression :: row, hother, hnames => by
    simp only [namesOfRow, List.mem_append, not_or] at hother hnames
    apply AlikeRow.cons
    · exact alike_rename hscope expression hother.1 fun n hn => hnames n (.inl hn)
    · exact alikeRow_rename hscope row hother.2 fun n hn => hnames n (.inr hn)

end

/-- A lambda expression is like the one with a formal renamed. -/
theorem Expression.alike_renameFormal (hname : name ∈ formals.map Token.text)
    (hother : other ∉ (Expression.lambda formals body).names) {scope : Scope}
    (hnames : ∀ found ∈ (Expression.lambda formals body).names, scope found found) :
    (Expression.lambda formals body).Alike (.renamedFormal name other formals body timed) scope
      (renameFormal name other formals body) := by
  simp only [Expression.names, List.mem_append, not_or] at hother hnames
  refine .lambda (.inr ⟨rfl, rfl, rfl, rfl⟩) (List.length_map _).symm ?_
  refine alikeRow_rename (Scope.enter_rename hother.1 (.inl hname)) body hother.2 ?_
  intro found hfound hne
  have hne' : found ≠ other := fun heq => hother.2 (heq ▸ hfound)
  exact Scope.enter_rename_of_ne hne hne' (.inr (hnames found (.inr hfound)))

/-- Rows that are alike one after the other are alike. -/
theorem Expression.AlikeRow.append {variation : Variation} {scope : Scope}
    {first first' second second' : List Expression}
    (hfirst : AlikeRow variation scope first first')
    (hsecond : AlikeRow variation scope second second') :
    AlikeRow variation scope (first ++ second) (first' ++ second') := by
  induction first generalizing first' with
  | nil =>
    cases hfirst
    exact hsecond
  | cons expression row ih =>
    cases hfirst with
    | cons head tail => exact .cons head (ih tail)

/-- The names of two rows of code are those of the first and then those of the second. -/
theorem Expression.namesOfRow_append (first second : List Expression) :
    namesOfRow (first ++ second) = namesOfRow first ++ namesOfRow second := by
  induction first with
  | nil => rfl
  | cons expression row ih => simp [namesOfRow, ih]

/-- A row is like the one in which a part has been replaced by one that is like it. -/
theorem Expression.alikeRow_of_part {variation : Variation} (h : variation.AllowsSame)
    {scope : Scope} {left right : Expression} (before after : List Expression)
    (hnames : ∀ found ∈ namesOfRow (before ++ left :: after), scope found found)
    (hpart : (∀ found ∈ left.names, scope found found) → left.Alike variation scope right) :
    AlikeRow variation scope (before ++ left :: after) (before ++ right :: after) := by
  simp only [namesOfRow_append, namesOfRow, List.mem_append] at hnames
  apply AlikeRow.append
  · exact alikeRow_self h before fun found hfound => hnames found (.inl hfound)
  · refine .cons (hpart fun found hfound => hnames found (.inr (.inl hfound))) ?_
    exact alikeRow_self h after fun found hfound => hnames found (.inr (.inr hfound))

/-- Code is like itself around a part that is like the part in its place. -/
theorem Expression.Replaces.alike {variation : Variation} (h : variation.AllowsSame)
    (hsame : ∀ formals body body', variation.lambdas formals body formals body')
    {old new left right : Expression} (hreplaces : Replaces old new left right)
    (hold : ∀ {scope : Scope}, (∀ found ∈ old.names, scope found found) →
      old.Alike variation scope new)
    {scope : Scope} (hnames : ∀ found ∈ left.names, scope found found) :
    left.Alike variation scope right := by
  induction hreplaces generalizing scope with
  | here => exact hold hnames
  | predicate _ consequent alternative ih =>
    simp only [names, List.mem_append] at hnames
    apply Alike.conditional
    · exact ih fun n hn => hnames n (.inl (.inl hn))
    · exact alike_self h consequent fun n hn => hnames n (.inl (.inr hn))
    · exact alike_self h alternative fun n hn => hnames n (.inr hn)
  | consequent predicate _ alternative ih =>
    simp only [names, List.mem_append] at hnames
    apply Alike.conditional
    · exact alike_self h predicate fun n hn => hnames n (.inl (.inl hn))
    · exact ih fun n hn => hnames n (.inl (.inr hn))
    · exact alike_self h alternative fun n hn => hnames n (.inr hn)
  | alternative predicate consequent _ ih =>
    simp only [names, List.mem_append] at hnames
    apply Alike.conditional
    · exact alike_self h predicate fun n hn => hnames n (.inl (.inl hn))
    · exact alike_self h consequent fun n hn => hnames n (.inl (.inr hn))
    · exact ih fun n hn => hnames n (.inr hn)
  | body formals before _ after ih =>
    rw [names] at hnames
    refine .lambda (hsame _ _ _) rfl (alikeRow_of_part h before after (fun found hfound => ?_) ih)
    exact Scope.enter_self (.inr (hnames found (List.mem_append_right _ hfound)))
  | head _ arguments ih =>
    simp only [names, List.mem_append] at hnames
    apply Alike.application
    · exact ih fun n hn => hnames n (.inl hn)
    · exact alikeRow_self h arguments fun n hn => hnames n (.inr hn)
  | argument head before _ after ih =>
    simp only [names, List.mem_append] at hnames
    apply Alike.application
    · exact alike_self h head fun n hn => hnames n (.inl hn)
    · exact alikeRow_of_part h before after (fun n hn => hnames n (.inr hn)) ih

/-- A form is like the one that has a piece of its code replaced by what is like it. -/
theorem Form.Replaces.alike {variation : Variation} (h : variation.AllowsSame)
    (hsame : ∀ formals body body', variation.lambdas formals body formals body')
    {old new : Expression} {left right : Form} (hreplaces : left.Replaces old new right)
    (hold : ∀ {scope : Scope}, (∀ found ∈ old.names, scope found found) →
      old.Alike variation scope new)
    {scope : Scope} (hnames : ∀ found ∈ left.names, scope found found) :
    left.Alike variation scope right := by
  cases hreplaces with
  | definition name hvalue => exact .definition rfl (hvalue.alike h hsame hold hnames)
  | expression hwhole => exact .expression (hwhole.alike h hsame hold hnames)

/-- A program is like the one in which a formal of a lambda expression has been renamed. -/
theorem Program.Replaces.alike (hname : name ∈ formals.map Token.text)
    (hother : other ∉ (Expression.lambda formals body).names) {program program' : Program}
    (h : program.Replaces (.lambda formals body) (.renameFormal name other formals body) program')
    (htime : "time" ∈ program.names → timed) :
    program.Alike (.renamedFormal name other formals body timed) program' := by
  have hsame : (Variation.renamedFormal name other formals body timed).AllowsSame :=
    Variation.allowsSame_renamedFormal
  cases h with
  | @intro before left right hform after =>
    have hnames : ∀ form ∈ before ++ left :: after, ∀ found ∈ form.names,
        Variation.globalScope (.renamedFormal name other formals body timed) found found := by
      intro form hmem found hfound
      refine ⟨rfl, fun heq => htime ?_⟩
      rw [← heq]
      exact List.mem_flatMap.2 ⟨form, hmem, hfound⟩
    have hself : ∀ part : Program, (∀ form ∈ part, form ∈ before ++ left :: after) →
        part.Alike (.renamedFormal name other formals body timed) part := by
      intro part hpart
      rw [Program.Alike, List.forall₂_same]
      exact fun form hmem => Form.alike_self hsame form (hnames form (hpart form hmem))
    refine List.rel_append (hself before fun form hmem => ?_) (.cons ?_ (hself after ?_))
    · exact List.mem_append_left _ hmem
    · apply hform.alike hsame (fun _ _ _ => .inl rfl)
      · exact fun hscope => Expression.alike_renameFormal hname hother hscope
      · exact hnames left (by simp)
    · exact fun form hmem => List.mem_append_right _ (List.mem_cons_of_mem left hmem)

/-! ## Evaluation -/

/-- Evaluate the forms of a program one by one, each at its time, in a new environment of the
primitive functions, going on after errors. -/
def evaluateForms (fuel : Nat) (timed : List (Clock × Form)) :
    StateM Store (List (Observation EvalError)) := do
  let id ← Store.allocateGlobal
  observeAll (evaluateForm fuel id) timed

/-- The forms of programs that are alike look the same. -/
theorem evaluateForms_alike {variation : Variation} {before : Twins}
    (h : before.Coherent variation) (fuel : Nat) {timed timed' : List (Clock × Form)}
    (hprogram : Program.Alike variation (timed.map Prod.snd) (timed'.map Prod.snd))
    (hclock : variation.timed → timed.map Prod.fst = timed'.map Prod.fst) :
    Twins.Lead variation (fun world =>
        List.Forall₂ (Observation.Alike variation (EvalError.Alike variation) world))
      (evaluateForms fuel timed) (evaluateForms fuel timed') before := by
  apply Twins.Lead.bind _ (allocateGlobal_lead h)
  intro middle id other _ hcoherent htop
  refine observeAll_alike hcoherent hprogram hclock fun form form' after hform hafter hsound => ?_
  exact evaluateForm_agree fuel hsound (htop.mono hafter.within) hform

/-- When a formal of one lambda expression in a program is renamed to a name that does not occur
in it, the program still means the same.  With any fuel, each form ends in the same way: for
want of fuel, with the same error, or with the same value up to closures of that lambda
expression, which are closures of the renamed one instead; and what it prints is the same up to
the formals of these closures, as are the texts in errors.  In the end all environments
correspond in the same way.  Only a program that asks for the time has to be evaluated at the
same times. -/
theorem evaluateForms_renameFormal (hname : name ∈ formals.map Token.text)
    (hother : other ∉ (Expression.lambda formals body).names)
    {timed timed' : List (Clock × Form)}
    (h : Program.Replaces (.lambda formals body) (.renameFormal name other formals body)
      (timed.map Prod.snd) (timed'.map Prod.snd))
    (htime : "time" ∈ Program.names (timed.map Prod.snd) →
      timed.map Prod.fst = timed'.map Prod.fst)
    (fuel : Nat) (store : Store) :
    let variation := Variation.renamedFormal name other formals body
      (timed.map Prod.fst = timed'.map Prod.fst)
    let evaluated := (evaluateForms fuel timed).run store
    let evaluated' := (evaluateForms fuel timed').run store
    ∃ world : World, world.Diagonal ∧
      Twins.Coherent variation ⟨world, evaluated.2, evaluated'.2⟩ ∧
      List.Forall₂ (Observation.Alike variation (EvalError.Alike variation) world)
        evaluated.1 evaluated'.1 := by
  intro variation evaluated evaluated'
  have hprogram : Program.Alike variation (timed.map Prod.snd) (timed'.map Prod.snd) :=
    h.alike hname hother htime
  have hevaluated := evaluateForms_alike (Twins.coherent_strangers store store) fuel hprogram id
  rcases hevaluated.exists_world with ⟨world, hfollows, hcoherent, hobservations⟩
  exact ⟨world, hfollows.diagonal, hcoherent, hobservations⟩

/-- A formal that an inner function hides and another one captures, where the function is printed,
called and applied to a list of it. -/
theorem evaluateForms_renameFormal_captured :
    let token (text : String) : Token := ⟨.identifier, text, none, ⟨1, 1⟩⟩
    let use (text : String) : Expression := .literal (token text)
    let body (name : String) : List Expression :=
      [.conditional (.application (use "eq?") [use name, use "f"])
        (.lambda [token "x"] [use "x"]) (.lambda [] [use name])]
    let program (name : String) : List (Clock × Form) :=
      [(0, .definition (token "f") (.lambda [token name] (body name))),
        (1, .expression (.application (use "p") [use "f", .application (use "f") [use "f"]])),
        (2, .expression (.application (.application (use "f") [use "p"]) []))]
    "x" ∈ [token "x"].map Token.text ∧
      "z" ∉ (Expression.lambda [token "x"] (body "x")).names ∧
      Program.Replaces (.lambda [token "x"] (body "x"))
        (.renameFormal "x" "z" [token "x"] (body "x"))
        ((program "x").map Prod.snd) ((program "z").map Prod.snd) ∧
      ("time" ∈ Program.names ((program "x").map Prod.snd) →
        (program "x").map Prod.fst = (program "z").map Prod.fst) ∧
      ∀ fuel store,
        let variation := Variation.renamedFormal "x" "z" [token "x"] (body "x")
          ((program "x").map Prod.fst = (program "z").map Prod.fst)
        let evaluated := (evaluateForms fuel (program "x")).run store
        let evaluated' := (evaluateForms fuel (program "z")).run store
        ∃ world : World, world.Diagonal ∧
          Twins.Coherent variation ⟨world, evaluated.2, evaluated'.2⟩ ∧
          List.Forall₂ (Observation.Alike variation (EvalError.Alike variation) world)
            evaluated.1 evaluated'.1 := by
  intro token use body program
  have hname : "x" ∈ [token "x"].map Token.text := List.mem_singleton.2 rfl
  have hother : "z" ∉ (Expression.lambda [token "x"] (body "x")).names := by decide
  have hreplaces : Program.Replaces (.lambda [token "x"] (body "x"))
      (.renameFormal "x" "z" [token "x"] (body "x"))
      ((program "x").map Prod.snd) ((program "z").map Prod.snd) :=
    .intro [] (.definition (token "f") .here) _
  have htime : "time" ∈ Program.names ((program "x").map Prod.snd) →
      (program "x").map Prod.fst = (program "z").map Prod.fst :=
    fun _ => rfl
  refine ⟨hname, hother, hreplaces, htime, fun fuel store => ?_⟩
  exact evaluateForms_renameFormal hname hother hreplaces htime fuel store

end MiniScheme
