import MiniScheme.Value.Text
import Mathlib.Data.List.Forall2

/-!
# Code up to names

Two pieces of code are alike if they differ in the places of their tokens and in the names of
formals only, where a scope tells which name on the left and which name on the right stand for
the same variable.  How far they may differ is a parameter: it says which lambda expressions
may stand for each other, and which identifiers.  The texts that show formals differ with them.

Main results:

- Theorem `Expression.alike_self`: code is like itself in every scope in which its names stand
  for themselves.
- Theorem `TextAlike.eq`: texts are the same if formals are.
-/

namespace MiniScheme

/-! ## Scopes -/

/-- Which name on the left stands for the same variable as which name on the right. -/
abbrev Scope :=
  String → String → Prop

namespace Scope

/-- The scope in which two names stand for a new variable and no longer for any other. -/
def bind (scope : Scope) (left right : String) : Scope := fun name other =>
  name = left ∧ other = right ∨ name ≠ left ∧ other ≠ right ∧ scope name other

/-- The scope in which the names of each pair stand for a variable, a later pair hiding the
earlier ones. -/
def bindAll (scope : Scope) (pairs : List (String × String)) : Scope :=
  pairs.foldl (fun scope (left, right) => scope.bind left right) scope

/-- The scope of two rows of formals. -/
abbrev enter (scope : Scope) (left right : List String) : Scope :=
  scope.bindAll (left.zip right)

variable {scope : Scope} {name other : String}

/-- A name that is bound on both sides stands for itself, as does one that did before. -/
theorem enter_self {formals : List String} (h : name ∈ formals ∨ scope name name) :
    scope.enter formals formals name name := by
  induction formals generalizing scope with
  | nil => simpa [enter, bindAll] using h
  | cons formal formals ih =>
    apply ih
    by_cases hname : name = formal
    · exact .inr (.inl ⟨hname, hname⟩)
    · exact (h.imp_left fun hmem => (List.mem_cons.1 hmem).resolve_left hname).imp_right
        fun hscope => .inr ⟨hname, hname, hscope⟩

/-- Names that are bound on neither side stand for what they stood for. -/
theorem enter_of_notMem {left right : List String} (hname : name ∉ left) (hother : other ∉ right)
    (h : scope name other) : scope.enter left right name other := by
  induction left generalizing scope right with
  | nil => exact h
  | cons first left ih =>
    cases right with
    | nil => exact h
    | cons second right =>
      rw [List.mem_cons, not_or] at hname hother
      exact ih hname.2 hother.2 (.inr ⟨hname.1, hother.1, h⟩)

end Scope

/-! ## Variations -/

/-- How far code on the right may differ from code on the left. -/
structure Variation where
  /-- The lambda expressions, by formals and body, that may stand for each other. -/
  lambdas : List String → List Expression → List String → List Expression → Prop
  /-- The identifiers that may stand for each other. -/
  names : String → String → Prop
  /-- Whether the code may ask for the time, which then has to be the same on both sides. -/
  timed : Prop

namespace Variation

/-- Only the same code stands for code. -/
def sameCode (timed : Prop) : Variation :=
  ⟨fun formals body formals' body' => formals = formals' ∧ body = body', Eq, timed⟩

/-- The same code may stand for any code. -/
structure AllowsSame (variation : Variation) : Prop where
  lambdas : ∀ formals body, variation.lambdas formals body formals body
  names : ∀ name, variation.names name name

/-- Formals never differ. -/
def KeepsFormals (variation : Variation) : Prop :=
  ∀ ⦃formals body formals' body'⦄, variation.lambdas formals body formals' body' →
    formals = formals'

/-- Equal code is alike to itself. -/
theorem allowsSame_sameCode (timed : Prop) : (sameCode timed).AllowsSame :=
  ⟨fun _ _ => ⟨rfl, rfl⟩, fun _ => rfl⟩

/-- Equal code has equal formals. -/
theorem keepsFormals_sameCode (timed : Prop) : (sameCode timed).KeepsFormals :=
  fun _ _ _ _ h => h.1

/-- The scope outside all lambda expressions: every name that may be used stands for itself. -/
def globalScope (variation : Variation) : Scope := fun name other =>
  name = other ∧ (name = "time" → variation.timed)

end Variation

/-! ## Quoted data -/

/-- Tokens that differ in their places only. -/
structure Token.Alike (left right : Token) : Prop where
  kind : left.kind = right.kind
  text : left.text = right.text
  constant : left.constant = right.constant

mutual

/-- Quoted data that differs in the places of its tokens only. -/
inductive Datum.Alike : Datum → Datum → Prop
  | atom {left right : Token} (token : left.Alike right) : Alike (.atom left) (.atom right)
  | list {left right : List Datum} (items : Datum.AlikeRow left right) :
    Alike (.list left) (.list right)

/-- Rows of quoted data that differ so. -/
inductive Datum.AlikeRow : List Datum → List Datum → Prop
  | nil : AlikeRow [] []
  | cons {left right : Datum} {lefts rights : List Datum} (head : left.Alike right)
    (tail : AlikeRow lefts rights) : AlikeRow (left :: lefts) (right :: rights)

end

mutual

/-- A datum is like itself. -/
theorem Datum.alike_self : ∀ datum : Datum, datum.Alike datum
  | .atom _ => .atom ⟨rfl, rfl, rfl⟩
  | .list items => .list (alikeRow_self items)

/-- Data are like themselves one by one. -/
theorem Datum.alikeRow_self : ∀ items : List Datum, AlikeRow items items
  | [] => .nil
  | item :: items => .cons (alike_self item) (alikeRow_self items)

end

/-! ## Expressions -/

mutual

/-- Expressions that differ in names only as far as scope and variation admit it. -/
inductive Expression.Alike (variation : Variation) : Scope → Expression → Expression → Prop
  | identifier {scope : Scope} {left right : Token} (leftKind : left.kind = .identifier)
    (rightKind : right.kind = .identifier) (inScope : scope left.text right.text)
    (names : variation.names left.text right.text) :
    Alike variation scope (.literal left) (.literal right)
  | constant {scope : Scope} {left right : Token} (leftKind : left.kind ≠ .identifier)
    (rightKind : right.kind ≠ .identifier) (constant : left.constant = right.constant) :
    Alike variation scope (.literal left) (.literal right)
  | quoted {scope : Scope} {left right : Datum} (datum : left.Alike right) :
    Alike variation scope (.quoted left) (.quoted right)
  | conditional {scope : Scope} {p c a p' c' a' : Expression}
    (predicate : Alike variation scope p p') (consequent : Alike variation scope c c')
    (alternative : Alike variation scope a a') :
    Alike variation scope (.conditional p c a) (.conditional p' c' a')
  | lambda {scope : Scope} {formals formals' : List Token} {body body' : List Expression}
    (lambdas : variation.lambdas (formals.map Token.text) body (formals'.map Token.text) body')
    (length : formals.length = formals'.length)
    (row : Expression.AlikeRow variation
      (scope.enter (formals.map Token.text) (formals'.map Token.text)) body body') :
    Alike variation scope (.lambda formals body) (.lambda formals' body')
  | application {scope : Scope} {left right : Expression} {lefts rights : List Expression}
    (head : Alike variation scope left right)
    (row : Expression.AlikeRow variation scope lefts rights) :
    Alike variation scope (.application left lefts) (.application right rights)

/-- Rows of expressions that differ so. -/
inductive Expression.AlikeRow (variation : Variation) :
    Scope → List Expression → List Expression → Prop
  | nil {scope : Scope} : AlikeRow variation scope [] []
  | cons {scope : Scope} {left right : Expression} {lefts rights : List Expression}
    (head : left.Alike variation scope right) (tail : AlikeRow variation scope lefts rights) :
    AlikeRow variation scope (left :: lefts) (right :: rights)

end

/-- Forms that differ so; what they define has the same name. -/
inductive Form.Alike (variation : Variation) (scope : Scope) : Form → Form → Prop
  | definition {name name' : Token} {left right : Expression} (text : name.text = name'.text)
    (value : left.Alike variation scope right) :
    Alike variation scope (.definition name left) (.definition name' right)
  | expression {left right : Expression} (whole : left.Alike variation scope right) :
    Alike variation scope (.expression left) (.expression right)

/-- Programs that differ so, in every form. -/
abbrev Program.Alike (variation : Variation) (left right : Program) : Prop :=
  List.Forall₂ (Form.Alike variation variation.globalScope) left right

variable {variation : Variation}

/-- Alike rows are alike one by one. -/
theorem Expression.AlikeRow.forall₂ {scope : Scope} {left right : List Expression}
    (h : AlikeRow variation scope left right) :
    List.Forall₂ (Expression.Alike variation scope) left right := by
  induction left generalizing right with
  | nil =>
    cases h
    exact .nil
  | cons first left ih =>
    cases h with
    | cons head tail => exact .cons head (ih tail)

/-! ## Names -/

mutual

/-- The names in an expression outside quoted data: its identifiers and its formals. -/
def Expression.names : Expression → List String
  | .literal token => if token.kind = .identifier then [token.text] else []
  | .quoted _ => []
  | .conditional predicate consequent alternative =>
    predicate.names ++ consequent.names ++ alternative.names
  | .lambda formals body => formals.map Token.text ++ Expression.namesOfRow body
  | .application head arguments => head.names ++ Expression.namesOfRow arguments

/-- The names in a row of expressions. -/
def Expression.namesOfRow : List Expression → List String
  | [] => []
  | expression :: row => expression.names ++ Expression.namesOfRow row

end

/-- The names in the value of a definition or in an expression. -/
def Form.names : Form → List String
  | definition _ value => value.names
  | expression whole => whole.names

/-- The names in a program outside quoted data, other than those that it defines. -/
def Program.names (program : Program) : List String :=
  program.flatMap Form.names

mutual

/-- Code is like itself where its names stand for themselves. -/
theorem Expression.alike_self (h : variation.AllowsSame) {scope : Scope} :
    ∀ expression : Expression, (∀ name ∈ expression.names, scope name name) →
      expression.Alike variation scope expression
  | .literal token, hnames => by
    by_cases hkind : token.kind = .identifier
    · have hname : token.text ∈ (Expression.literal token).names := by simp [names, hkind]
      exact .identifier hkind hkind (hnames token.text hname) (h.names token.text)
    · exact .constant hkind hkind rfl
  | .quoted datum, _ => .quoted (Datum.alike_self datum)
  | .conditional predicate consequent alternative, hnames => by
    simp only [names, List.mem_append] at hnames
    apply Alike.conditional
    · exact alike_self h predicate fun name hname => hnames name (.inl (.inl hname))
    · exact alike_self h consequent fun name hname => hnames name (.inl (.inr hname))
    · exact alike_self h alternative fun name hname => hnames name (.inr hname)
  | .lambda formals body, hnames => by
    simp only [names, List.mem_append] at hnames
    refine .lambda (h.lambdas _ body) rfl (alikeRow_self h body fun name hname => ?_)
    exact Scope.enter_self (.inr (hnames name (.inr hname)))
  | .application head arguments, hnames => by
    simp only [names, List.mem_append] at hnames
    apply Alike.application
    · exact alike_self h head fun name hname => hnames name (.inl hname)
    · exact alikeRow_self h arguments fun name hname => hnames name (.inr hname)

/-- A row of expressions is like itself where its names stand for themselves. -/
theorem Expression.alikeRow_self (h : variation.AllowsSame) {scope : Scope} :
    ∀ row : List Expression, (∀ name ∈ namesOfRow row, scope name name) →
      AlikeRow variation scope row row
  | [], _ => .nil
  | expression :: row, hnames => by
    simp only [namesOfRow, List.mem_append] at hnames
    apply AlikeRow.cons
    · exact alike_self h expression fun name hname => hnames name (.inl hname)
    · exact alikeRow_self h row fun name hname => hnames name (.inr hname)

end

/-- A form is like itself where its names stand for themselves. -/
theorem Form.alike_self (h : variation.AllowsSame) {scope : Scope} (form : Form)
    (hnames : ∀ name ∈ form.names, scope name name) : form.Alike variation scope form := by
  cases form with
  | definition name value => exact .definition rfl (Expression.alike_self h value hnames)
  | expression whole => exact .expression (Expression.alike_self h whole hnames)

/-- A program is like itself, and may ask for the time if the variation allows that. -/
theorem Program.alike_self (h : variation.AllowsSame) (program : Program)
    (htime : "time" ∈ program.names → variation.timed) : program.Alike variation program := by
  rw [Program.Alike, List.forall₂_same]
  intro form hform
  apply Form.alike_self h
  intro name hname
  refine ⟨rfl, fun htext => htime ?_⟩
  rw [← htext]
  exact List.mem_flatMap.2 ⟨form, hform, hname⟩

/-! ## Texts -/

/-- Texts that differ only in the formals of closures that stand for each other. -/
inductive TextAlike (variation : Variation) : String → String → Prop
  | same (text : String) : TextAlike variation text text
  | display {formals formals' : List String} {body body' : List Expression}
    {identity identity' id id' : Nat} (h : variation.lambdas formals body formals' body') :
    TextAlike variation (Function.closure identity formals body id).text
      (Function.closure identity' formals' body' id').text
  | append {left left' right right' : String} (first : TextAlike variation left left')
    (second : TextAlike variation right right') :
    TextAlike variation (left ++ right) (left' ++ right')

namespace TextAlike

/-- Texts are the same if formals are. -/
theorem eq (h : variation.KeepsFormals) {left right : String}
    (htext : TextAlike variation left right) : left = right := by
  induction htext with
  | same text => rfl
  | display hlambdas =>
    rw [h hlambdas]
    rfl
  | append _ _ ihfirst ihsecond => rw [ihfirst, ihsecond]

/-- Texts that are alike are so with a separator between them. -/
theorem intercalate (separator : String) {left right : List String}
    (h : List.Forall₂ (TextAlike variation) left right) :
    TextAlike variation (separator.intercalate left) (separator.intercalate right) := by
  induction h with
  | nil => exact .same _
  | cons head tail ih =>
    cases tail with
    | nil => simpa using head
    | cons =>
      rw [String.intercalate_cons_cons, String.intercalate_cons_cons]
      exact .append (.append head (.same separator)) ih

/-- Texts that are alike are so in a row. -/
theorem join {left right : List String} (h : List.Forall₂ (TextAlike variation) left right) :
    TextAlike variation (String.join left) (String.join right) := by
  induction h with
  | nil => exact .same _
  | cons head _ ih =>
    rw [String.join_cons, String.join_cons]
    exact .append head ih

end TextAlike

end MiniScheme
