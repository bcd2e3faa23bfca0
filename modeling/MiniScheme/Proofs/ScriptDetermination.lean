import MiniScheme.Proofs.ScriptReading
import MiniScheme.Proofs.WellFormed
import MiniScheme.Script.Compiler

/-!
# A script determines the program

Two programs are compiled to one script exactly if they have the same shape, form by form, and
each two leaves that correspond mean the same to a script: identifiers with one script name, or
literals with one constant, where a character is the string of it.  Positions and the spelling of
literals leave no trace in a script, and everything else does, since scripts can be read back.

Main results:

- Theorem `Term.ofExpression_legal`: without quoted data a well-formed expression has a term, and
  that is a legal one.
- Theorem `Term.alike_of_ofExpression`: expressions with one term are alike.
- Theorem `compile_eq_iff_alike`: two programs without quoted data have one script exactly if they
  are alike.
-/

namespace MiniScheme

open Script

/-! ## Programs without quoted data -/

mutual

/-- Whether an expression holds no quoted data. -/
def Expression.isUnquoted : Expression → Bool
  | .literal _ => true
  | .quoted _ => false
  | .conditional predicate consequent alternative =>
    predicate.isUnquoted && consequent.isUnquoted && alternative.isUnquoted
  | .lambda _ body => Expression.areUnquoted body
  | .application head arguments => head.isUnquoted && Expression.areUnquoted arguments

/-- Whether so are the expressions of a row. -/
def Expression.areUnquoted : List Expression → Bool
  | [] => true
  | expression :: row => expression.isUnquoted && Expression.areUnquoted row

end

/-- Whether a form holds no quoted data. -/
def Form.isUnquoted : Form → Bool
  | definition _ value => value.isUnquoted
  | expression whole => whole.isUnquoted

/-- Whether a program holds no quoted data. -/
def Program.isUnquoted (program : Program) : Bool :=
  program.all Form.isUnquoted

/-! ## Programs that are alike to scripts -/

/-- Constants that mean the same to a script. -/
inductive Constant.ScriptAlike : Constant → Constant → Prop
  | same (constant : Constant) : ScriptAlike constant constant
  | ofCharacter (c : Char) : ScriptAlike (.character c) (.string c.toString)
  | toCharacter (c : Char) : ScriptAlike (.string c.toString) (.character c)

/-- Tokens that have one script name as identifiers. -/
def Token.SameName (token token' : Token) : Prop :=
  Name.ofIdentifier token.text = Name.ofIdentifier token'.text

/-- Leaves that mean the same to a script: identifiers with one name, or literals. -/
inductive Token.ScriptAlike (token token' : Token) : Prop
  | identifier (h : token.kind = .identifier) (h' : token'.kind = .identifier)
    (hname : token.SameName token')
  | literal {constant constant' : Constant} (h : token.kind ≠ .identifier)
    (h' : token'.kind ≠ .identifier) (hconstant : token.constant = some constant)
    (hconstant' : token'.constant = some constant') (halike : constant.ScriptAlike constant')

mutual

/-- Expressions of one shape with leaves that mean the same to a script. -/
inductive Expression.ScriptAlike : Expression → Expression → Prop
  | literal {token token' : Token} (h : token.ScriptAlike token') :
    ScriptAlike (.literal token) (.literal token')
  | conditional {predicate predicate' consequent consequent' alternative alternative' : Expression}
    (hpredicate : predicate.ScriptAlike predicate')
    (hconsequent : consequent.ScriptAlike consequent')
    (halternative : alternative.ScriptAlike alternative') :
    ScriptAlike (.conditional predicate consequent alternative)
      (.conditional predicate' consequent' alternative')
  | lambda {formals formals' : List Token} {body body' : List Expression}
    (hformals : List.Forall₂ Token.SameName formals formals')
    (hbody : Expression.RowScriptAlike body body') :
    ScriptAlike (.lambda formals body) (.lambda formals' body')
  | application {head head' : Expression} {arguments arguments' : List Expression}
    (hhead : head.ScriptAlike head')
    (harguments : Expression.RowScriptAlike arguments arguments') :
    ScriptAlike (.application head arguments) (.application head' arguments')

/-- Rows of as many expressions, of which any two that correspond are alike. -/
inductive Expression.RowScriptAlike : List Expression → List Expression → Prop
  | nil : RowScriptAlike [] []
  | cons {expression expression' : Expression} {row row' : List Expression}
    (h : expression.ScriptAlike expression') (hrow : Expression.RowScriptAlike row row') :
    RowScriptAlike (expression :: row) (expression' :: row')

end

/-- Forms of one shape with names and leaves that mean the same to a script. -/
inductive Form.ScriptAlike : Form → Form → Prop
  | definition {name name' : Token} {value value' : Expression} (hname : name.SameName name')
    (hvalue : value.ScriptAlike value') :
    ScriptAlike (.definition name value) (.definition name' value')
  | expression {whole whole' : Expression} (h : whole.ScriptAlike whole') :
    ScriptAlike (.expression whole) (.expression whole')

/-- Programs of as many forms, of which any two that correspond are alike. -/
def Program.ScriptAlike (program program' : Program) : Prop :=
  List.Forall₂ Form.ScriptAlike program program'

/-! ## Shapes -/

/-- The outermost construct of a term or an expression. -/
inductive Shape
  | leaf
  | conditional
  | function
  | call

/-- The outermost construct of an expression. -/
def Expression.shape : Expression → Shape
  | .literal _ | .quoted _ => .leaf
  | .conditional .. => .conditional
  | .lambda .. => .function
  | .application .. => .call

namespace Script

/-! ## Leaves -/

/-- Constants with one term mean the same to a script. -/
theorem Term.alike_of_ofConstant : ∀ {constant constant' : Constant},
    ofConstant constant = ofConstant constant' → constant.ScriptAlike constant'
  | .number _, .number _, h => Term.number.inj h ▸ .same _
  | .boolean _, .boolean _, h => Term.boolean.inj h ▸ .same _
  | .character c, .character c', h => by
    have hc : c = c' := by simpa using congrArg String.toList (Term.string.inj h)
    exact hc ▸ .same _
  | .character c, .string _, h => Term.string.inj h ▸ .ofCharacter c
  | .string _, .character c, h => (Term.string.inj h).symm ▸ .toCharacter c
  | .string _, .string _, h => Term.string.inj h ▸ .same _

/-- Constants that mean the same to a script have one term. -/
theorem Term.ofConstant_eq_of_alike {constant constant' : Constant}
    (h : constant.ScriptAlike constant') : ofConstant constant = ofConstant constant' := by
  cases h <;> rfl

/-- An identifier becomes the name made of its text. -/
theorem Term.ofToken_identifier {token : Token} (h : token.kind = .identifier) :
    ofToken token = .name (Name.ofIdentifier token.text) := by
  rw [ofToken, if_pos h]

/-- A literal becomes the term of its constant. -/
theorem Term.ofToken_literal {token : Token} {constant : Constant} (h : token.kind ≠ .identifier)
    (hconstant : token.constant = some constant) : ofToken token = ofConstant constant := by
  rw [ofToken, if_neg h, hconstant]

/-- No constant is compiled to a name. -/
theorem Term.ofConstant_ne_name (constant : Constant) (name : String) :
    ofConstant constant ≠ .name name := by
  cases constant <;> nofun

/-- Leaves that mean the same to a script have one term. -/
theorem Term.ofToken_eq_of_alike {token token' : Token} (h : token.ScriptAlike token') :
    ofToken token = ofToken token' := by
  cases h with
  | identifier hkind hkind' hname =>
    rw [ofToken_identifier hkind, ofToken_identifier hkind', hname]
  | literal hkind hkind' hconstant hconstant' halike =>
    rw [ofToken_literal hkind hconstant, ofToken_literal hkind' hconstant',
      ofConstant_eq_of_alike halike]

/-- Well-formed leaves with one term mean the same to a script. -/
theorem Term.alike_of_ofToken {token token' : Token} (h : token.isWellFormed = true)
    (h' : token'.isWellFormed = true) (heq : ofToken token = ofToken token') :
    token.ScriptAlike token' := by
  rcases Token.isWellFormed_cases h with ⟨hkind, -, -⟩ | ⟨constant, hkind, hconstant, -⟩ <;>
    rcases Token.isWellFormed_cases h' with ⟨hkind', -, -⟩ | ⟨constant', hkind', hconstant', -⟩
  · rw [ofToken_identifier hkind, ofToken_identifier hkind'] at heq
    exact .identifier hkind hkind' (Term.name.inj heq)
  · rw [ofToken_identifier hkind, ofToken_literal (hkind' ▸ constant'.kind_ne_identifier)
      hconstant'] at heq
    exact absurd heq.symm (ofConstant_ne_name _ _)
  · rw [ofToken_literal (hkind ▸ constant.kind_ne_identifier) hconstant,
      ofToken_identifier hkind'] at heq
    exact absurd heq (ofConstant_ne_name _ _)
  · have hother := hkind ▸ constant.kind_ne_identifier
    have hother' := hkind' ▸ constant'.kind_ne_identifier
    rw [ofToken_literal hother hconstant, ofToken_literal hother' hconstant'] at heq
    exact .literal hother hother' hconstant hconstant' (alike_of_ofConstant heq)

/-- The term of a well-formed leaf is legal. -/
theorem Term.ofToken_legal {token : Token} (h : token.isWellFormed = true) :
    (ofToken token).Legal := by
  rcases Token.isWellFormed_cases h with ⟨hkind, -, htext⟩ | ⟨constant, hkind, hconstant, hrange⟩
  · rw [ofToken_identifier hkind]
    exact Name.isLegal_ofIdentifier htext
  · rw [ofToken_literal (hkind ▸ constant.kind_ne_identifier) hconstant]
    cases constant with
    | number n => simpa [Constant.isWritable, ofConstant, Legal] using hrange
    | _ => trivial

/-! ## Expressions -/

/-- Two actions in a row succeed when both do. -/
theorem bind_eq_ok_iff {α β : Type} {action : Except Unsupported α}
    {next : α → Except Unsupported β} {result : β} :
    (action >>= next) = .ok result ↔ ∃ value, action = .ok value ∧ next value = .ok result := by
  cases action with
  | error => simp [bind, Except.bind]
  | ok value => simp [bind, Except.bind]

namespace Term

/-- A function returns what the last of its terms is. -/
theorem functionTerm_eq_ok {parameters : List String} {terms : List Term} {term : Term} :
    functionTerm parameters terms = .ok term ↔
      ∃ steps result, terms = steps ++ [result] ∧ term = .function parameters steps result := by
  unfold functionTerm
  rcases terms.eq_nil_or_concat with rfl | ⟨steps, result, rfl⟩
  · simp
  · simp only [List.concat_eq_append, List.getLast?_append_cons, List.getLast?_singleton,
      List.dropLast_concat, Except.ok.injEq]
    constructor
    · rintro rfl
      exact ⟨steps, result, rfl, rfl⟩
    · rintro ⟨steps', result', heq, rfl⟩
      obtain ⟨hsteps, hresult⟩ := List.append_inj' heq rfl
      rw [hsteps, List.singleton_inj.1 hresult]

/-- A conditional compiles when its three parts do, to the choice between them. -/
theorem ofExpression_conditional {predicate consequent alternative : Expression} {term : Term} :
    ofExpression (.conditional predicate consequent alternative) = .ok term ↔
      ∃ test whenTrue whenFalse, ofExpression predicate = .ok test ∧
        ofExpression consequent = .ok whenTrue ∧ ofExpression alternative = .ok whenFalse ∧
          term = .conditional test whenTrue whenFalse := by
  simp only [ofExpression, bind_eq_ok_iff, pure, Except.pure, Except.ok.injEq]
  constructor
  · rintro ⟨test, htest, whenTrue, htrue, whenFalse, hfalse, rfl⟩
    exact ⟨test, whenTrue, whenFalse, htest, htrue, hfalse, rfl⟩
  · rintro ⟨test, whenTrue, whenFalse, htest, htrue, hfalse, rfl⟩
    exact ⟨test, htest, whenTrue, htrue, whenFalse, hfalse, rfl⟩

/-- A lambda compiles when its body does, to a function that returns the last term of it. -/
theorem ofExpression_lambda {formals : List Token} {body : List Expression} {term : Term} :
    ofExpression (.lambda formals body) = .ok term ↔
      ∃ steps result, ofExpressions body = .ok (steps ++ [result]) ∧
        term = .function (parameterNames formals) steps result := by
  simp only [ofExpression, bind_eq_ok_iff, functionTerm_eq_ok]
  constructor
  · rintro ⟨terms, hterms, steps, result, rfl, rfl⟩
    exact ⟨steps, result, hterms, rfl⟩
  · rintro ⟨steps, result, hterms, rfl⟩
    exact ⟨_, hterms, steps, result, rfl, rfl⟩

/-- An application compiles when its head and its arguments do, to the call. -/
theorem ofExpression_application {head : Expression} {arguments : List Expression} {term : Term} :
    ofExpression (.application head arguments) = .ok term ↔
      ∃ headTerm terms, ofExpression head = .ok headTerm ∧ ofExpressions arguments = .ok terms ∧
        term = .call headTerm terms := by
  simp only [ofExpression, bind_eq_ok_iff, pure, Except.pure, Except.ok.injEq]
  constructor
  · rintro ⟨headTerm, hhead, terms, hterms, rfl⟩
    exact ⟨headTerm, terms, hhead, hterms, rfl⟩
  · rintro ⟨headTerm, terms, hhead, hterms, rfl⟩
    exact ⟨headTerm, hhead, terms, hterms, rfl⟩

/-- A row of expressions compiles when each expression of it does. -/
theorem ofExpressions_cons {expression : Expression} {row : List Expression} {terms : List Term} :
    ofExpressions (expression :: row) = .ok terms ↔
      ∃ term rest, ofExpression expression = .ok term ∧ ofExpressions row = .ok rest ∧
        terms = term :: rest := by
  simp only [ofExpressions, bind_eq_ok_iff, pure, Except.pure, Except.ok.injEq]
  constructor
  · rintro ⟨term, hterm, rest, hrest, rfl⟩
    exact ⟨term, rest, hterm, hrest, rfl⟩
  · rintro ⟨term, rest, hterm, hrest, rfl⟩
    exact ⟨term, hterm, rest, hrest, rfl⟩

/-- The outermost construct of a term. -/
def shape : Term → Shape
  | .name _ | .number _ | .boolean _ | .string _ | .null => .leaf
  | .conditional .. => .conditional
  | .function .. => .function
  | .call .. => .call

/-- An atom is compiled to a leaf. -/
theorem shape_ofToken (token : Token) : (ofToken token).shape = .leaf := by
  unfold ofToken
  split
  next => rfl
  next =>
    split
    next constant _ => cases constant <;> rfl
    next => rfl

/-- A term has the outermost construct of its expression. -/
theorem shape_ofExpression {expression : Expression} {term : Term}
    (h : ofExpression expression = .ok term) : term.shape = expression.shape := by
  cases expression with
  | literal token =>
    cases h
    exact shape_ofToken token
  | quoted => cases h
  | conditional =>
    obtain ⟨_, _, _, -, -, -, rfl⟩ := ofExpression_conditional.1 h
    rfl
  | lambda =>
    obtain ⟨_, _, -, rfl⟩ := ofExpression_lambda.1 h
    rfl
  | application =>
    obtain ⟨_, _, -, -, rfl⟩ := ofExpression_application.1 h
    rfl

/-- The steps of a function and its result are legal when all its terms are. -/
theorem allLegal_append_singleton {steps : List Term} {result : Term} :
    AllLegal (steps ++ [result]) ↔ AllLegal steps ∧ result.Legal := by
  induction steps with
  | nil => simp [AllLegal]
  | cons step steps ih => simp [AllLegal, ih, and_assoc]

mutual

/-- Without quoted data a well-formed expression has a term, and that is a legal one. -/
theorem ofExpression_legal : ∀ (expression : Expression), expression.isWellFormed = true →
    expression.isUnquoted = true → ∃ term, ofExpression expression = .ok term ∧ term.Legal
  | .literal token, h, _ => ⟨_, rfl, ofToken_legal h⟩
  | .conditional predicate consequent alternative, h, hunquoted => by
    simp only [Expression.isWellFormed, Expression.isUnquoted, Bool.and_eq_true] at h hunquoted
    obtain ⟨test, htest, hlegal⟩ := ofExpression_legal predicate h.1.1 hunquoted.1.1
    obtain ⟨whenTrue, htrue, hlegal'⟩ := ofExpression_legal consequent h.1.2 hunquoted.1.2
    obtain ⟨whenFalse, hfalse, hlegal''⟩ := ofExpression_legal alternative h.2 hunquoted.2
    exact ⟨_, ofExpression_conditional.2 ⟨_, _, _, htest, htrue, hfalse, rfl⟩,
      hlegal, hlegal', hlegal''⟩
  | .lambda formals body, h, hunquoted => by
    simp only [Expression.isWellFormed, Bool.and_eq_true, Bool.not_eq_true'] at h
    obtain ⟨⟨hformals, hbody⟩, h⟩ := h
    obtain ⟨terms, hterms, hlegal, hlength⟩ := ofExpressions_legal body h hunquoted
    have hne : terms ≠ [] := by
      rintro rfl
      rw [List.length_nil, eq_comm, List.length_eq_zero_iff] at hlength
      simp [hlength] at hbody
    rcases terms.eq_nil_or_concat with rfl | ⟨steps, result, rfl⟩
    · exact absurd rfl hne
    · rw [List.concat_eq_append] at hterms hlegal
      obtain ⟨hsteps, hresult⟩ := allLegal_append_singleton.1 hlegal
      refine ⟨_, ofExpression_lambda.2 ⟨_, _, hterms, rfl⟩, ?_, hsteps, hresult⟩
      intro name hname
      obtain ⟨formal, hformal, rfl⟩ := List.mem_map.1 hname
      have hname := Token.isName_iff.1 (List.all_eq_true.1 hformals formal hformal)
      exact Name.isLegal_ofIdentifier hname.2.2
  | .application head arguments, h, hunquoted => by
    simp only [Expression.isWellFormed, Expression.isUnquoted, Bool.and_eq_true] at h hunquoted
    obtain ⟨headTerm, hhead, hlegal⟩ := ofExpression_legal head h.1 hunquoted.1
    obtain ⟨terms, hterms, hlegal', -⟩ := ofExpressions_legal arguments h.2 hunquoted.2
    exact ⟨_, ofExpression_application.2 ⟨_, _, hhead, hterms, rfl⟩, hlegal, hlegal'⟩

/-- So has each expression of a row. -/
theorem ofExpressions_legal : ∀ (row : List Expression), Expression.areWellFormed row = true →
    Expression.areUnquoted row = true →
      ∃ terms, ofExpressions row = .ok terms ∧ AllLegal terms ∧ terms.length = row.length
  | [], _, _ => ⟨[], rfl, trivial, rfl⟩
  | expression :: row, h, hunquoted => by
    simp only [Expression.areWellFormed, Expression.areUnquoted, Bool.and_eq_true] at h hunquoted
    obtain ⟨term, hterm, hlegal⟩ := ofExpression_legal expression h.1 hunquoted.1
    obtain ⟨terms, hterms, hlegal', hlength⟩ := ofExpressions_legal row h.2 hunquoted.2
    refine ⟨_, ofExpressions_cons.2 ⟨_, _, hterm, hterms, rfl⟩, ⟨hlegal, hlegal'⟩, ?_⟩
    rw [List.length_cons, List.length_cons, hlength]

end

/-- Formals have one row of names exactly if any two that correspond have one. -/
theorem parameterNames_eq_iff {formals formals' : List Token} :
    parameterNames formals = parameterNames formals' ↔
      List.Forall₂ Token.SameName formals formals' := by
  simp only [parameterNames, ← List.forall₂_eq_eq_eq, List.forall₂_map_left_iff,
    List.forall₂_map_right_iff]
  rfl

mutual

/-- Expressions that are alike to scripts have one term. -/
theorem ofExpression_eq_of_alike : ∀ {expression expression' : Expression},
    expression.ScriptAlike expression' → ofExpression expression = ofExpression expression'
  | _, _, .literal h => congrArg Except.ok (ofToken_eq_of_alike h)
  | _, _, .conditional hpredicate hconsequent halternative => by
    rw [ofExpression, ofExpression, ofExpression_eq_of_alike hpredicate,
      ofExpression_eq_of_alike hconsequent, ofExpression_eq_of_alike halternative]
  | _, _, .lambda hformals hbody => by
    rw [ofExpression, ofExpression, ofExpressions_eq_of_alike hbody,
      parameterNames_eq_iff.2 hformals]
  | _, _, .application hhead harguments => by
    rw [ofExpression, ofExpression, ofExpression_eq_of_alike hhead,
      ofExpressions_eq_of_alike harguments]

/-- So have the expressions of rows. -/
theorem ofExpressions_eq_of_alike : ∀ {row row' : List Expression},
    Expression.RowScriptAlike row row' → ofExpressions row = ofExpressions row'
  | _, _, .nil => rfl
  | _, _, .cons h hrow => by
    rw [ofExpressions, ofExpressions, ofExpression_eq_of_alike h, ofExpressions_eq_of_alike hrow]

end

mutual

/-- Well-formed expressions with one term are alike to scripts. -/
theorem alike_of_ofExpression (expression expression' : Expression) {term : Term}
    (hwell : expression.isWellFormed = true) (hwell' : expression'.isWellFormed = true)
    (h : ofExpression expression = .ok term) (h' : ofExpression expression' = .ok term) :
    expression.ScriptAlike expression' := by
  -- two expressions with one term have one outermost construct
  have hshape : expression.shape = expression'.shape :=
    (shape_ofExpression h).symm.trans (shape_ofExpression h')
  cases expression with
  | literal token =>
    cases h
    cases expression' with
    | literal token' => exact .literal (alike_of_ofToken hwell hwell' (Except.ok.inj h').symm)
    | quoted => cases h'
    | _ => cases hshape
  | quoted => cases h
  | conditional predicate consequent alternative =>
    cases expression' with
    | conditional predicate' consequent' alternative' =>
      simp only [Expression.isWellFormed, Bool.and_eq_true] at hwell hwell'
      obtain ⟨test, whenTrue, whenFalse, htest, htrue, hfalse, rfl⟩ :=
        ofExpression_conditional.1 h
      obtain ⟨_, _, _, htest', htrue', hfalse', hterm⟩ := ofExpression_conditional.1 h'
      cases hterm
      apply Expression.ScriptAlike.conditional
      · exact alike_of_ofExpression predicate predicate' hwell.1.1 hwell'.1.1 htest htest'
      · exact alike_of_ofExpression consequent consequent' hwell.1.2 hwell'.1.2 htrue htrue'
      · exact alike_of_ofExpression alternative alternative' hwell.2 hwell'.2 hfalse hfalse'
    | _ => cases hshape
  | lambda formals body =>
    cases expression' with
    | lambda formals' body' =>
      simp only [Expression.isWellFormed, Bool.and_eq_true] at hwell hwell'
      obtain ⟨steps, result, hbody, rfl⟩ := ofExpression_lambda.1 h
      obtain ⟨_, _, hbody', hterm⟩ := ofExpression_lambda.1 h'
      obtain ⟨hnames, rfl, rfl⟩ := Term.function.inj hterm
      apply Expression.ScriptAlike.lambda (parameterNames_eq_iff.1 hnames)
      exact rowAlike_of_ofExpressions body body' hwell.2 hwell'.2 hbody hbody'
    | _ => cases hshape
  | application head arguments =>
    cases expression' with
    | application head' arguments' =>
      simp only [Expression.isWellFormed, Bool.and_eq_true] at hwell hwell'
      obtain ⟨headTerm, terms, hhead, harguments, rfl⟩ := ofExpression_application.1 h
      obtain ⟨_, _, hhead', harguments', hterm⟩ := ofExpression_application.1 h'
      cases hterm
      apply Expression.ScriptAlike.application
      · exact alike_of_ofExpression head head' hwell.1 hwell'.1 hhead hhead'
      · exact rowAlike_of_ofExpressions arguments arguments' hwell.2 hwell'.2 harguments
          harguments'
    | _ => cases hshape

/-- So are the expressions of rows. -/
theorem rowAlike_of_ofExpressions (row row' : List Expression) {terms : List Term}
    (hwell : Expression.areWellFormed row = true) (hwell' : Expression.areWellFormed row' = true)
    (h : ofExpressions row = .ok terms) (h' : ofExpressions row' = .ok terms) :
    Expression.RowScriptAlike row row' := by
  cases row with
  | nil =>
    cases h
    cases row' with
    | nil => exact .nil
    | cons =>
      obtain ⟨_, _, -, -, hterms⟩ := ofExpressions_cons.1 h'
      cases hterms
  | cons expression row =>
    obtain ⟨term, rest, hterm, hrest, rfl⟩ := ofExpressions_cons.1 h
    cases row' with
    | nil => cases h'
    | cons expression' row' =>
      simp only [Expression.areWellFormed, Bool.and_eq_true] at hwell hwell'
      obtain ⟨_, _, hterm', hrest', hterms⟩ := ofExpressions_cons.1 h'
      cases hterms
      apply Expression.RowScriptAlike.cons
      · exact alike_of_ofExpression expression expression' hwell.1 hwell'.1 hterm hterm'
      · exact rowAlike_of_ofExpressions row row' hwell.2 hwell'.2 hrest hrest'

end

end Term

/-! ## Programs -/

namespace Statement

/-- A definition compiles when its value does, to an assignment if its name is declared already. -/
theorem ofForm_definition {declared declared' : List String} {name : Token} {value : Expression}
    {statement : Statement} :
    ofForm declared (.definition name value) = .ok (statement, declared') ↔
      ∃ term, Term.ofExpression value = .ok term ∧
        (if Name.ofIdentifier name.text ∈ declared then
          (assign (Name.ofIdentifier name.text) term, declared)
        else
          (declare (Name.ofIdentifier name.text) term,
            Name.ofIdentifier name.text :: declared)) =
          (statement, declared') := by
  simp only [ofForm, bind_eq_ok_iff]
  apply exists_congr
  intro term
  split <;> simp [pure, Except.pure]

/-- An expression compiles to the statement that evaluates its term, and declares nothing. -/
theorem ofForm_expression {declared declared' : List String} {whole : Expression}
    {statement : Statement} :
    ofForm declared (.expression whole) = .ok (statement, declared') ↔
      ∃ term, Term.ofExpression whole = .ok term ∧
        (evaluate term, declared) = (statement, declared') := by
  simp [ofForm, bind_eq_ok_iff, pure, Except.pure]

/-- A program compiles form by form, each with the names that those before it declare. -/
theorem ofProgram_cons {declared : List String} {form : Form} {forms : Program}
    {statements : List Statement} :
    (ofProgram declared (form :: forms)).1 = .ok statements ↔
      ∃ statement declared' rest, ofForm declared form = .ok (statement, declared') ∧
        (ofProgram declared' forms).1 = .ok rest ∧ statements = statement :: rest := by
  rw [ofProgram]
  cases hform : ofForm declared form with
  | error => simp
  | ok pair =>
    obtain ⟨statement, declared'⟩ := pair
    cases hrest : (ofProgram declared' forms).1 with
    | error => simp [hrest, Except.map]
    | ok rest => simp [hrest, Except.map, eq_comm]

/-- Without quoted data a well-formed form has a statement, and that is a legal one. -/
theorem ofForm_legal {form : Form} (h : form.isWellFormed = true)
    (hunquoted : form.isUnquoted = true) (declared : List String) :
    ∃ statement declared', ofForm declared form = .ok (statement, declared') ∧
      statement.Legal := by
  cases form with
  | definition name value =>
    simp only [Form.isWellFormed, Bool.and_eq_true] at h
    obtain ⟨term, hterm, hlegal⟩ := Term.ofExpression_legal value h.2 hunquoted
    have hname := Name.isLegal_ofIdentifier (Token.isName_iff.1 h.1).2.2
    by_cases hdeclared : Name.ofIdentifier name.text ∈ declared
    · exact ⟨_, _, ofForm_definition.2 ⟨term, hterm, if_pos hdeclared⟩, hname, hlegal⟩
    · exact ⟨_, _, ofForm_definition.2 ⟨term, hterm, if_neg hdeclared⟩, hname, hlegal⟩
  | expression whole =>
    obtain ⟨term, hterm, hlegal⟩ := Term.ofExpression_legal whole h hunquoted
    exact ⟨_, _, ofForm_expression.2 ⟨term, hterm, rfl⟩, hlegal⟩

/-- Without quoted data a well-formed program has statements, and these are legal. -/
theorem ofProgram_legal {program : Program} (h : program.isWellFormed = true)
    (hunquoted : program.isUnquoted = true) (declared : List String) :
    ∃ statements, (ofProgram declared program).1 = .ok statements ∧
      ∀ statement ∈ statements, statement.Legal := by
  induction program generalizing declared with
  | nil => exact ⟨[], rfl, nofun⟩
  | cons form forms ih =>
    simp only [Program.isWellFormed, List.all_cons, Bool.and_eq_true] at h
    simp only [Program.isUnquoted, List.all_cons, Bool.and_eq_true] at hunquoted
    obtain ⟨statement, declared', hform, hlegal⟩ := ofForm_legal h.1 hunquoted.1 declared
    obtain ⟨rest, hrest, hlegal'⟩ := ih h.2 hunquoted.2 declared'
    exact ⟨_, ofProgram_cons.2 ⟨_, _, _, hform, hrest, rfl⟩,
      List.forall_mem_cons.2 ⟨hlegal, hlegal'⟩⟩

/-- Forms that are alike to scripts have one statement, and declare the same. -/
theorem ofForm_eq_of_alike {form form' : Form} (h : form.ScriptAlike form')
    (declared : List String) : ofForm declared form = ofForm declared form' := by
  cases h with
  | definition hname hvalue =>
    rw [ofForm, ofForm, Term.ofExpression_eq_of_alike hvalue, hname]
  | expression h => rw [ofForm, ofForm, Term.ofExpression_eq_of_alike h]

/-- Programs that are alike to scripts have the same statements. -/
theorem ofProgram_eq_of_alike {program program' : Program} (h : program.ScriptAlike program')
    (declared : List String) : ofProgram declared program = ofProgram declared program' := by
  induction h generalizing declared with
  | nil => rfl
  | cons h _ ih =>
    rw [ofProgram, ofProgram, ofForm_eq_of_alike h]
    split
    next => rfl
    next => rw [ih]

/-- The statement of a definition declares its name or assigns to it. -/
theorem eq_of_ofForm_definition {declared after : List String} {name : Token} {value : Expression}
    {statement : Statement}
    (h : ofForm declared (.definition name value) = .ok (statement, after)) :
    ∃ term, Term.ofExpression value = .ok term ∧
      (statement = declare (Name.ofIdentifier name.text) term ∨
        statement = assign (Name.ofIdentifier name.text) term) := by
  obtain ⟨term, hterm, heq⟩ := ofForm_definition.1 h
  refine ⟨term, hterm, ?_⟩
  split at heq
  next => exact .inr (Prod.mk.inj heq).1.symm
  next => exact .inl (Prod.mk.inj heq).1.symm

/-- Well-formed forms with one statement are alike to scripts. -/
theorem alike_of_ofForm {form form' : Form} (hwell : form.isWellFormed = true)
    (hwell' : form'.isWellFormed = true) {declared declared' after after' : List String}
    {statement : Statement} (h : ofForm declared form = .ok (statement, after))
    (h' : ofForm declared' form' = .ok (statement, after')) : form.ScriptAlike form' := by
  cases form with
  | definition name value =>
    obtain ⟨term, hterm, hstatement⟩ := eq_of_ofForm_definition h
    simp only [Form.isWellFormed, Bool.and_eq_true] at hwell
    cases form' with
    | definition name' value' =>
      obtain ⟨term', hterm', hstatement'⟩ := eq_of_ofForm_definition h'
      simp only [Form.isWellFormed, Bool.and_eq_true] at hwell'
      rcases hstatement with rfl | rfl <;> rcases hstatement' with heq | heq
      · obtain ⟨hname, rfl⟩ := Statement.declare.inj heq
        exact .definition hname (Term.alike_of_ofExpression _ _ hwell.2 hwell'.2 hterm hterm')
      · cases heq
      · cases heq
      · obtain ⟨hname, rfl⟩ := Statement.assign.inj heq
        exact .definition hname (Term.alike_of_ofExpression _ _ hwell.2 hwell'.2 hterm hterm')
    | expression whole' =>
      obtain ⟨term', -, heq⟩ := ofForm_expression.1 h'
      rcases hstatement with rfl | rfl <;> cases heq
  | expression whole =>
    obtain ⟨term, hterm, heq⟩ := ofForm_expression.1 h
    cases heq
    cases form' with
    | definition name' value' =>
      obtain ⟨term', -, hstatement'⟩ := eq_of_ofForm_definition h'
      rcases hstatement' with heq | heq <;> cases heq
    | expression whole' =>
      obtain ⟨term', hterm', heq⟩ := ofForm_expression.1 h'
      cases heq
      exact .expression (Term.alike_of_ofExpression _ _ hwell hwell' hterm hterm')

/-- Well-formed programs with the same statements are alike to scripts. -/
theorem alike_of_ofProgram {program program' : Program} (hwell : program.isWellFormed = true)
    (hwell' : program'.isWellFormed = true) {declared declared' : List String}
    {statements : List Statement} (h : (ofProgram declared program).1 = .ok statements)
    (h' : (ofProgram declared' program').1 = .ok statements) : program.ScriptAlike program' := by
  induction program generalizing program' declared declared' statements with
  | nil =>
    cases h
    cases program' with
    | nil => exact .nil
    | cons =>
      obtain ⟨_, _, _, -, -, heq⟩ := ofProgram_cons.1 h'
      cases heq
  | cons form forms ih =>
    obtain ⟨statement, after, rest, hform, hrest, rfl⟩ := ofProgram_cons.1 h
    cases program' with
    | nil => cases h'
    | cons form' forms' =>
      obtain ⟨_, after', _, hform', hrest', heq⟩ := ofProgram_cons.1 h'
      cases heq
      simp only [Program.isWellFormed, List.all_cons, Bool.and_eq_true] at hwell hwell'
      exact .cons (alike_of_ofForm hwell.1 hwell'.1 hform hform')
        (ih hwell.2 hwell'.2 hrest hrest')

end Statement

/-! ## Scripts -/

/-- The script of a program that has statements. -/
theorem Compiler.compile_eq {compiler : Compiler} {program : Program} {statements : List Statement}
    (h : (Statement.ofProgram compiler.openingNames program).1 = .ok statements) :
    (compiler.compile program).1 =
      .ok (lines compiler.opening ++ lines (statements.map Statement.text)) := by
  simp only [compile, h, Except.map, lines, List.map_append, String.join_append]

/-- Two programs that are read from sources and hold no quoted data each have a script, with the
prelude in front or without it, and they have the same one exactly if they have the same forms up
to positions, identifiers with one script name, the spelling of literals, and characters in place
of strings of one character. -/
theorem compile_eq_iff_alike {source source' : String} {program program' : Program}
    (hparse : parse source = .ok program) (hparse' : parse source' = .ok program')
    (hunquoted : program.isUnquoted = true) (hunquoted' : program'.isUnquoted = true)
    (prelude : Bool) :
    ∃ text text', ((Compiler.new prelude).compile program).1 = .ok text ∧
      ((Compiler.new prelude).compile program').1 = .ok text' ∧
        (text = text' ↔ program.ScriptAlike program') := by
  have hwell := parse_isWellFormed hparse
  have hwell' := parse_isWellFormed hparse'
  obtain ⟨statements, hstatements, hlegal⟩ :=
    Statement.ofProgram_legal hwell hunquoted (Compiler.new prelude).openingNames
  obtain ⟨statements', hstatements', hlegal'⟩ :=
    Statement.ofProgram_legal hwell' hunquoted' (Compiler.new prelude).openingNames
  refine ⟨_, _, Compiler.compile_eq hstatements, Compiler.compile_eq hstatements', ?_⟩
  rw [String.append_right_inj, lines_inj hlegal hlegal']
  constructor
  · rintro rfl
    exact Statement.alike_of_ofProgram hwell hwell' hstatements hstatements'
  · intro halike
    rw [Statement.ofProgram_eq_of_alike halike, hstatements'] at hstatements
    exact (Except.ok.inj hstatements).symm

/-- A definition of `+` is written as one of `?lus` is, and a character as a string. -/
theorem compile_eq_iff_alike_definitions :
    let source := "(define + (lambda (a b) a (if (b 1) \"c\" 007)))"
    let source' := "(define ?lus\n  (lambda (a b) a (if (b 01) #\\c 7))) ; alike"
    ∃ program program', parse source = .ok program ∧ parse source' = .ok program' ∧
      program.ScriptAlike program' := by
  intro source source'
  have hparse : parse source = .ok (readSource source).1 :=
    (parse_eq_ok_iff _ _).2 (Prod.ext rfl (by decide +kernel))
  have hparse' : parse source' = .ok (readSource source').1 :=
    (parse_eq_ok_iff _ _).2 (Prod.ext rfl (by decide +kernel))
  obtain ⟨text, text', htext, htext', halike⟩ :=
    compile_eq_iff_alike hparse hparse' (by decide +kernel) (by decide +kernel) false
  have hscript : ((Compiler.new false).compile (readSource source).1).1 =
      ((Compiler.new false).compile (readSource source').1).1 := by
    decide +kernel
  rw [htext, htext'] at hscript
  exact ⟨_, _, hparse, hparse', halike.1 (Except.ok.inj hscript)⟩

end Script

end MiniScheme
