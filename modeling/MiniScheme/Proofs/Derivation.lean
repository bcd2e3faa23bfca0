import MiniScheme.Form.Basic

/-!
# Derivation trees

The grammar of forms, with a tree for each of its derivations.  A tree keeps every token that
it derives, also those that leave no trace in the form, such as parentheses and reserved words.
Every token in it has the kind that the grammar asks for in its place.

Main results:

- Theorem `ExpressionTree.eq_of_tokens_append`: a row of tokens begins with at most one
  derivation of an expression.
- Theorem `FormTree.eq_of_flatMap_tokens`: a row of tokens has at most one division into forms,
  and each of them has at most one derivation.
-/

namespace MiniScheme

/-! ## Trees -/

/-- The tokens of a kind. -/
abbrev Terminal (kind : TokenKind) :=
  { token : Token // token.kind = kind }

/-- The tokens that are an expression or a datum by themselves. -/
abbrev AtomToken :=
  { token : Token // token.kind.isAtom = true }

/-- The derivations of a datum: an atom or `( datum ... )`. -/
inductive DatumTree
  | atom (token : AtomToken)
  | list (opening : Terminal .openParen) (items : List DatumTree) (closing : Terminal .closeParen)

/-- The derivations of an expression: an atom, `' datum`, `( quote datum )`,
`( if expression expression expression )`, `( lambda ( identifier ... ) expression ... )` with at
least one expression, or `( expression expression ... )`. -/
inductive ExpressionTree
  | atom (token : AtomToken)
  | marked (mark : Terminal .quoteMark) (datum : DatumTree)
  | quoted (opening : Terminal .openParen) (word : Terminal (.keyword .quote))
    (datum : DatumTree) (closing : Terminal .closeParen)
  | conditional (opening : Terminal .openParen) (word : Terminal (.keyword .conditional))
    (predicate consequent alternative : ExpressionTree) (closing : Terminal .closeParen)
  | lambda (opening : Terminal .openParen) (word : Terminal (.keyword .lambda))
    (formalsOpening : Terminal .openParen) (formals : List (Terminal .identifier))
    (formalsClosing : Terminal .closeParen) (first : ExpressionTree)
    (further : List ExpressionTree) (closing : Terminal .closeParen)
  | application (opening : Terminal .openParen) (head : ExpressionTree)
    (arguments : List ExpressionTree) (closing : Terminal .closeParen)

/-- The derivations of a form: `( define identifier expression )` or an expression. -/
inductive FormTree
  | definition (opening : Terminal .openParen) (word : Terminal (.keyword .define))
    (name : Terminal .identifier) (value : ExpressionTree) (closing : Terminal .closeParen)
  | expression (tree : ExpressionTree)

/-! ## The tokens of a tree -/

/-- The tokens of a row of terminals. -/
def Terminal.tokens {kind : TokenKind} (terminals : List (Terminal kind)) : List Token :=
  terminals.map Subtype.val

mutual

/-- The tokens that a datum is derived to. -/
def DatumTree.tokens : DatumTree → List Token
  | .atom token => [token.1]
  | .list opening items closing => opening.1 :: (DatumTree.rowTokens items ++ [closing.1])

/-- The tokens of a row of data. -/
def DatumTree.rowTokens : List DatumTree → List Token
  | [] => []
  | tree :: trees => tree.tokens ++ DatumTree.rowTokens trees

end

mutual

/-- The tokens that an expression is derived to. -/
def ExpressionTree.tokens : ExpressionTree → List Token
  | .atom token => [token.1]
  | .marked mark datum => mark.1 :: datum.tokens
  | .quoted opening word datum closing =>
    opening.1 :: word.1 :: (datum.tokens ++ [closing.1])
  | .conditional opening word predicate consequent alternative closing =>
    opening.1 :: word.1 ::
      (predicate.tokens ++ (consequent.tokens ++ (alternative.tokens ++ [closing.1])))
  | .lambda opening word formalsOpening formals formalsClosing first further closing =>
    opening.1 :: word.1 :: formalsOpening.1 ::
      (Terminal.tokens formals ++ formalsClosing.1 ::
        (first.tokens ++ (ExpressionTree.rowTokens further ++ [closing.1])))
  | .application opening head arguments closing =>
    opening.1 :: (head.tokens ++ (ExpressionTree.rowTokens arguments ++ [closing.1]))

/-- The tokens of a row of expressions. -/
def ExpressionTree.rowTokens : List ExpressionTree → List Token
  | [] => []
  | tree :: trees => tree.tokens ++ ExpressionTree.rowTokens trees

end

/-- The tokens that a form is derived to. -/
def FormTree.tokens : FormTree → List Token
  | definition opening word name value closing =>
    opening.1 :: word.1 :: name.1 :: (value.tokens ++ [closing.1])
  | expression tree => tree.tokens

/-! ## What a tree derives -/

mutual

/-- The datum that a tree derives. -/
def DatumTree.datum : DatumTree → Datum
  | .atom token => .atom token.1
  | .list _ items _ => .list (DatumTree.rowData items)

/-- The data that a row of trees derives. -/
def DatumTree.rowData : List DatumTree → List Datum
  | [] => []
  | tree :: trees => tree.datum :: DatumTree.rowData trees

end

mutual

/-- The expression that a tree derives. -/
def ExpressionTree.expression : ExpressionTree → Expression
  | .atom token => .literal token.1
  | .marked _ datum => .quoted datum.datum
  | .quoted _ _ datum _ => .quoted datum.datum
  | .conditional _ _ predicate consequent alternative _ =>
    .conditional predicate.expression consequent.expression alternative.expression
  | .lambda _ _ _ formals _ first further _ =>
    .lambda (Terminal.tokens formals)
      (first.expression :: ExpressionTree.rowExpressions further)
  | .application _ head arguments _ =>
    .application head.expression (ExpressionTree.rowExpressions arguments)

/-- The expressions that a row of trees derives. -/
def ExpressionTree.rowExpressions : List ExpressionTree → List Expression
  | [] => []
  | tree :: trees => tree.expression :: ExpressionTree.rowExpressions trees

end

/-- The form that a tree derives. -/
def FormTree.form : FormTree → Form
  | definition _ _ name value _ => .definition name.1 value.expression
  | expression tree => .expression tree.expression

/-! ## Rows -/

namespace DatumTree

/-- The tokens of two rows of data are those of the first and then those of the second. -/
@[simp]
theorem rowTokens_append (first second : List DatumTree) :
    rowTokens (first ++ second) = rowTokens first ++ rowTokens second := by
  induction first with
  | nil => rfl
  | cons tree trees ih => simp [rowTokens, ih]

/-- The data of two rows are those of the first and then those of the second. -/
@[simp]
theorem rowData_append (first second : List DatumTree) :
    rowData (first ++ second) = rowData first ++ rowData second := by
  induction first with
  | nil => rfl
  | cons tree trees ih => simp [rowData, ih]

end DatumTree

namespace ExpressionTree

/-- The tokens of two rows of expressions are those of the first and then those of the second. -/
@[simp]
theorem rowTokens_append (first second : List ExpressionTree) :
    rowTokens (first ++ second) = rowTokens first ++ rowTokens second := by
  induction first with
  | nil => rfl
  | cons tree trees ih => simp [rowTokens, ih]

/-- The expressions of two rows are those of the first and then those of the second. -/
@[simp]
theorem rowExpressions_append (first second : List ExpressionTree) :
    rowExpressions (first ++ second) = rowExpressions first ++ rowExpressions second := by
  induction first with
  | nil => rfl
  | cons tree trees ih => simp [rowExpressions, ih]

end ExpressionTree

/-! ## Unambiguity -/

/-- A token is not of two kinds. -/
theorem Terminal.kind_ne {kind kind' : TokenKind} (hne : kind ≠ kind') (token : Terminal kind)
    (token' : Terminal kind') : token.1 ≠ token'.1 := by
  intro h
  exact hne (token.2.symm.trans ((congrArg Token.kind h).trans token'.2))

/-- A terminal is none of the tokens that stand by themselves unless its kind is theirs. -/
theorem AtomToken.ne_terminal {kind : TokenKind} (hkind : kind.isAtom = false)
    (token : AtomToken) (token' : Terminal kind) : token.1 ≠ token'.1 := by
  intro h
  have := token.2
  rw [h, token'.2, hkind] at this
  cases this

/-- Terminals up to a closing parenthesis are told by their tokens. -/
theorem Terminal.eq_of_tokens_append {kind : TokenKind}
    {terminals terminals' : List (Terminal kind)}
    {closing closing' : Terminal .closeParen} {rest rest' : List Token}
    (hkind : kind ≠ .closeParen)
    (h : tokens terminals ++ closing.1 :: rest = tokens terminals' ++ closing'.1 :: rest') :
    terminals = terminals' ∧ closing = closing' ∧ rest = rest' := by
  induction terminals generalizing terminals' with
  | nil =>
    cases terminals' with
    | nil =>
      simp only [tokens, List.map_nil, List.nil_append, List.cons.injEq] at h
      exact ⟨rfl, Subtype.ext h.1, h.2⟩
    | cons terminal' _ =>
      simp only [tokens, List.map_nil, List.nil_append, List.map_cons, List.cons_append,
        List.cons.injEq] at h
      exact absurd h.1 (kind_ne hkind.symm closing terminal')
  | cons terminal terminals ih =>
    cases terminals' with
    | nil =>
      simp only [tokens, List.map_nil, List.nil_append, List.map_cons, List.cons_append,
        List.cons.injEq] at h
      exact absurd h.1 (kind_ne hkind terminal closing')
    | cons terminal' terminals' =>
      simp only [tokens, List.map_cons, List.cons_append, List.cons.injEq] at h
      obtain ⟨hterminals, hclosing, hrest⟩ := ih h.2
      exact ⟨by rw [Subtype.ext h.1, hterminals], hclosing, hrest⟩

namespace DatumTree

/-- A datum begins with a token that a datum may start with. -/
theorem exists_tokens_eq_cons (tree : DatumTree) :
    ∃ token tokens, tree.tokens = token :: tokens ∧ token.kind.startsDatum = true := by
  cases tree with
  | atom token => exact ⟨token.1, [], rfl, by simp [TokenKind.startsDatum, token.2]⟩
  | list opening items closing =>
    exact ⟨opening.1, _, rfl, by simp [TokenKind.startsDatum, opening.2]⟩

/-- No datum begins with a terminal that does not start one. -/
theorem tokens_append_ne_cons {kind : TokenKind} (hkind : kind.startsDatum = false)
    (tree : DatumTree) (terminal : Terminal kind) (rest rest' : List Token) :
    tree.tokens ++ rest ≠ terminal.1 :: rest' := by
  obtain ⟨token, tokens, htokens, hstarts⟩ := tree.exists_tokens_eq_cons
  rw [htokens, List.cons_append]
  intro h
  rw [(List.cons.inj h).1, terminal.2, hkind] at hstarts
  cases hstarts

mutual

/-- A row of tokens begins with at most one derivation of a datum. -/
theorem eq_of_tokens_append : ∀ {tree tree' : DatumTree} {rest rest' : List Token},
    tree.tokens ++ rest = tree'.tokens ++ rest' → tree = tree' ∧ rest = rest'
  | .atom token, .atom token', rest, rest', h => by
    simp only [tokens, List.cons_append, List.nil_append, List.cons.injEq] at h
    exact ⟨congrArg atom (Subtype.ext h.1), h.2⟩
  | .atom token, .list opening' _ _, _, _, h =>
    absurd (List.cons.inj h).1 (AtomToken.ne_terminal rfl token opening')
  | .list opening _ _, .atom token', _, _, h =>
    absurd (List.cons.inj h).1.symm (AtomToken.ne_terminal rfl token' opening)
  | .list opening items closing, .list opening' items' closing', rest, rest', h => by
    simp only [tokens, List.cons_append, List.append_assoc, List.nil_append,
      List.cons.injEq] at h
    obtain ⟨hitems, hclosing, hrest⟩ := eq_of_rowTokens_append h.2
    rw [Subtype.ext h.1, hitems, hclosing]
    exact ⟨rfl, hrest⟩

/-- A row of data ends at the parenthesis that closes it. -/
theorem eq_of_rowTokens_append : ∀ {trees trees' : List DatumTree}
    {closing closing' : Terminal .closeParen} {rest rest' : List Token},
    rowTokens trees ++ closing.1 :: rest = rowTokens trees' ++ closing'.1 :: rest' →
      trees = trees' ∧ closing = closing' ∧ rest = rest'
  | [], [], closing, closing', rest, rest', h => by
    simp only [rowTokens, List.nil_append, List.cons.injEq] at h
    exact ⟨rfl, Subtype.ext h.1, h.2⟩
  | [], tree' :: trees', closing, _, _, _, h => by
    rw [rowTokens, rowTokens, List.nil_append, List.append_assoc] at h
    exact absurd h.symm (tokens_append_ne_cons rfl tree' closing _ _)
  | tree :: trees, [], _, closing', _, _, h => by
    rw [rowTokens, rowTokens, List.nil_append, List.append_assoc] at h
    exact absurd h (tokens_append_ne_cons rfl tree closing' _ _)
  | tree :: trees, tree' :: trees', _, _, _, _, h => by
    rw [rowTokens, rowTokens, List.append_assoc, List.append_assoc] at h
    obtain ⟨htree, htrees⟩ := eq_of_tokens_append h
    obtain ⟨hrow, hclosing, hrest⟩ := eq_of_rowTokens_append htrees
    rw [htree, hrow]
    exact ⟨rfl, hclosing, hrest⟩

end

end DatumTree

namespace ExpressionTree

/-- An expression begins with a token that an expression may start with. -/
theorem exists_tokens_eq_cons (tree : ExpressionTree) :
    ∃ token tokens, tree.tokens = token :: tokens ∧ token.kind.startsExpression = true := by
  cases tree with
  | atom token =>
    exact ⟨token.1, [], rfl, by simp [TokenKind.startsExpression, TokenKind.startsDatum, token.2]⟩
  | marked mark datum => exact ⟨mark.1, _, rfl, by simp [TokenKind.startsExpression, mark.2]⟩
  | _ opening =>
    exact ⟨opening.1, _, rfl, by
      simp [TokenKind.startsExpression, TokenKind.startsDatum, opening.2]⟩

/-- No expression begins with a terminal that does not start one. -/
theorem tokens_append_ne_cons {kind : TokenKind} (hkind : kind.startsExpression = false)
    (tree : ExpressionTree) (terminal : Terminal kind) (rest rest' : List Token) :
    tree.tokens ++ rest ≠ terminal.1 :: rest' := by
  obtain ⟨token, tokens, htokens, hstarts⟩ := tree.exists_tokens_eq_cons
  rw [htokens, List.cons_append]
  intro h
  rw [(List.cons.inj h).1, terminal.2, hkind] at hstarts
  cases hstarts

/-- The rules for expressions. -/
inductive Rule
  | atom
  | marked
  | quoted
  | conditional
  | lambda
  | application

/-- The rule that a derivation begins with. -/
def rule : ExpressionTree → Rule
  | atom .. => .atom
  | marked .. => .marked
  | quoted .. => .quoted
  | conditional .. => .conditional
  | lambda .. => .lambda
  | application .. => .application

/-- The rule that the first two tokens select. -/
def Rule.ofTokens : List Token → Rule
  | [] => .atom
  | first :: rest =>
    match first.kind, rest.head?.map Token.kind with
    | .openParen, some (.keyword .quote) => .quoted
    | .openParen, some (.keyword .conditional) => .conditional
    | .openParen, some (.keyword .lambda) => .lambda
    | .openParen, _ => .application
    | .quoteMark, _ => .marked
    | _, _ => .atom

/-- The first two tokens tell which rule a derivation begins with. -/
theorem rule_eq_ofTokens (tree : ExpressionTree) (rest : List Token) :
    tree.rule = Rule.ofTokens (tree.tokens ++ rest) := by
  cases tree with
  | atom token =>
    obtain ⟨token, htoken⟩ := token
    simp only [rule, tokens, Rule.ofTokens, List.cons_append]
    cases hkind : token.kind <;> simp_all [TokenKind.isAtom]
  | marked mark datum => simp [rule, tokens, Rule.ofTokens, mark.2]
  | application opening head arguments closing =>
    obtain ⟨token, tokens', htokens, hstarts⟩ := head.exists_tokens_eq_cons
    simp only [rule, tokens, htokens, Rule.ofTokens, opening.2, List.cons_append,
      List.head?_cons, Option.map_some]
    cases hkind : token.kind <;>
      simp_all [TokenKind.startsExpression, TokenKind.startsDatum, TokenKind.isAtom]
  | _ opening word => simp [rule, tokens, Rule.ofTokens, opening.2, word.2]

/-- The rule at the root of an expression is told by its tokens. -/
theorem rule_eq_of_tokens_append {tree tree' : ExpressionTree} {rest rest' : List Token}
    (h : tree.tokens ++ rest = tree'.tokens ++ rest') : tree'.rule = tree.rule := by
  rw [rule_eq_ofTokens tree rest, h, ← rule_eq_ofTokens]

mutual

/-- A row of tokens begins with at most one derivation of an expression. -/
theorem eq_of_tokens_append : ∀ {tree tree' : ExpressionTree} {rest rest' : List Token},
    tree.tokens ++ rest = tree'.tokens ++ rest' → tree = tree' ∧ rest = rest'
  | .atom token, tree', rest, rest', h => by
    have hrule := rule_eq_of_tokens_append h
    cases tree' with
    | atom token' =>
      simp only [tokens, List.cons_append, List.nil_append, List.cons.injEq] at h
      exact ⟨congrArg atom (Subtype.ext h.1), h.2⟩
    | _ => cases hrule
  | .marked mark datum, tree', rest, rest', h => by
    have hrule := rule_eq_of_tokens_append h
    cases tree' with
    | marked mark' datum' =>
      simp only [tokens, List.cons_append, List.cons.injEq] at h
      obtain ⟨hdatum, hrest⟩ := DatumTree.eq_of_tokens_append h.2
      rw [Subtype.ext h.1, hdatum]
      exact ⟨rfl, hrest⟩
    | _ => cases hrule
  | .quoted opening word datum closing, tree', rest, rest', h => by
    have hrule := rule_eq_of_tokens_append h
    cases tree' with
    | quoted opening' word' datum' closing' =>
      simp only [tokens, List.cons_append, List.append_assoc, List.nil_append,
        List.cons.injEq] at h
      obtain ⟨hopening, hword, h⟩ := h
      obtain ⟨hdatum, h⟩ := DatumTree.eq_of_tokens_append h
      obtain ⟨hclosing, hrest⟩ := List.cons.inj h
      rw [Subtype.ext hopening, Subtype.ext hword, hdatum, Subtype.ext hclosing]
      exact ⟨rfl, hrest⟩
    | _ => cases hrule
  | .conditional opening word predicate consequent alternative closing, tree', rest, rest', h => by
    have hrule := rule_eq_of_tokens_append h
    cases tree' with
    | conditional opening' word' predicate' consequent' alternative' closing' =>
      simp only [tokens, List.cons_append, List.append_assoc, List.nil_append,
        List.cons.injEq] at h
      obtain ⟨hopening, hword, h⟩ := h
      obtain ⟨hpredicate, h⟩ := eq_of_tokens_append h
      obtain ⟨hconsequent, h⟩ := eq_of_tokens_append h
      obtain ⟨halternative, h⟩ := eq_of_tokens_append h
      obtain ⟨hclosing, hrest⟩ := List.cons.inj h
      rw [Subtype.ext hopening, Subtype.ext hword, hpredicate, hconsequent, halternative,
        Subtype.ext hclosing]
      exact ⟨rfl, hrest⟩
    | _ => cases hrule
  | .lambda opening word formalsOpening formals formalsClosing first further closing, tree',
      rest, rest', h => by
    have hrule := rule_eq_of_tokens_append h
    cases tree' with
    | lambda opening' word' formalsOpening' formals' formalsClosing' first' further' closing' =>
      simp only [tokens, List.cons_append, List.append_assoc, List.nil_append,
        List.cons.injEq] at h
      obtain ⟨hopening, hword, hformalsOpening, h⟩ := h
      obtain ⟨hformals, hformalsClosing, h⟩ := Terminal.eq_of_tokens_append (by decide) h
      obtain ⟨hfirst, h⟩ := eq_of_tokens_append h
      obtain ⟨hfurther, hclosing, hrest⟩ := eq_of_rowTokens_append h
      rw [Subtype.ext hopening, Subtype.ext hword, Subtype.ext hformalsOpening, hformals,
        hformalsClosing, hfirst, hfurther, hclosing]
      exact ⟨rfl, hrest⟩
    | _ => cases hrule
  | .application opening head arguments closing, tree', rest, rest', h => by
    have hrule := rule_eq_of_tokens_append h
    cases tree' with
    | application opening' head' arguments' closing' =>
      simp only [tokens, List.cons_append, List.append_assoc, List.nil_append,
        List.cons.injEq] at h
      obtain ⟨hopening, h⟩ := h
      obtain ⟨hhead, h⟩ := eq_of_tokens_append h
      obtain ⟨harguments, hclosing, hrest⟩ := eq_of_rowTokens_append h
      rw [Subtype.ext hopening, hhead, harguments, hclosing]
      exact ⟨rfl, hrest⟩
    | _ => cases hrule

/-- A row of expressions ends at the parenthesis that closes it. -/
theorem eq_of_rowTokens_append : ∀ {trees trees' : List ExpressionTree}
    {closing closing' : Terminal .closeParen} {rest rest' : List Token},
    rowTokens trees ++ closing.1 :: rest = rowTokens trees' ++ closing'.1 :: rest' →
      trees = trees' ∧ closing = closing' ∧ rest = rest'
  | [], [], closing, closing', rest, rest', h => by
    simp only [rowTokens, List.nil_append, List.cons.injEq] at h
    exact ⟨rfl, Subtype.ext h.1, h.2⟩
  | [], tree' :: trees', closing, _, _, _, h => by
    rw [rowTokens, rowTokens, List.nil_append, List.append_assoc] at h
    exact absurd h.symm (tokens_append_ne_cons rfl tree' closing _ _)
  | tree :: trees, [], _, closing', _, _, h => by
    rw [rowTokens, rowTokens, List.nil_append, List.append_assoc] at h
    exact absurd h (tokens_append_ne_cons rfl tree closing' _ _)
  | tree :: trees, tree' :: trees', _, _, _, _, h => by
    rw [rowTokens, rowTokens, List.append_assoc, List.append_assoc] at h
    obtain ⟨htree, htrees⟩ := eq_of_tokens_append h
    obtain ⟨hrow, hclosing, hrest⟩ := eq_of_rowTokens_append htrees
    rw [htree, hrow]
    exact ⟨rfl, hclosing, hrest⟩

end

end ExpressionTree

namespace FormTree

/-- A definition is told from an expression by its second token. -/
theorem definition_tokens_append_ne {opening : Terminal .openParen}
    {word : Terminal (.keyword .define)} {name : Terminal .identifier} {value : ExpressionTree}
    {closing : Terminal .closeParen} (tree : ExpressionTree) (rest rest' : List Token) :
    (definition opening word name value closing).tokens ++ rest ≠ tree.tokens ++ rest' := by
  intro h
  have hrule := ExpressionTree.rule_eq_ofTokens tree rest'
  rw [← h] at hrule
  simp only [tokens, ExpressionTree.Rule.ofTokens, List.cons_append, opening.2, List.head?_cons,
    Option.map_some, word.2] at hrule
  cases tree with
  | application opening' head arguments closing' =>
    simp only [tokens, ExpressionTree.tokens, List.cons_append, List.append_assoc,
      List.cons.injEq] at h
    exact ExpressionTree.tokens_append_ne_cons rfl head word _ _ h.2.symm
  | _ => cases hrule

/-- A row of tokens begins with at most one derivation of a form. -/
theorem eq_of_tokens_append {tree tree' : FormTree} {rest rest' : List Token}
    (h : tree.tokens ++ rest = tree'.tokens ++ rest') : tree = tree' ∧ rest = rest' := by
  cases tree with
  | definition opening word name value closing =>
    cases tree' with
    | definition opening' word' name' value' closing' =>
      simp only [tokens, List.cons_append, List.append_assoc, List.nil_append,
        List.cons.injEq] at h
      obtain ⟨hopening, hword, hname, h⟩ := h
      obtain ⟨hvalue, h⟩ := ExpressionTree.eq_of_tokens_append h
      obtain ⟨hclosing, hrest⟩ := List.cons.inj h
      rw [Subtype.ext hopening, Subtype.ext hword, Subtype.ext hname, hvalue,
        Subtype.ext hclosing]
      exact ⟨rfl, hrest⟩
    | expression tree' => exact absurd h (definition_tokens_append_ne tree' rest rest')
  | expression tree =>
    cases tree' with
    | definition opening' word' name' value' closing' =>
      exact absurd h.symm (definition_tokens_append_ne tree rest' rest)
    | expression tree' =>
      obtain ⟨htree, hrest⟩ := ExpressionTree.eq_of_tokens_append h
      exact ⟨congrArg expression htree, hrest⟩

/-- No form is derived to no token. -/
theorem tokens_ne_nil (tree : FormTree) : tree.tokens ≠ [] := by
  cases tree with
  | definition => simp [tokens]
  | expression tree =>
    obtain ⟨token, tokens', htokens, -⟩ := tree.exists_tokens_eq_cons
    simp [tokens, htokens]

/-- A row of tokens has at most one division into derivations of forms. -/
theorem eq_of_flatMap_tokens {trees trees' : List FormTree}
    (h : trees.flatMap tokens = trees'.flatMap tokens) : trees = trees' := by
  induction trees generalizing trees' with
  | nil =>
    cases trees' with
    | nil => rfl
    | cons tree' trees' => simp [tokens_ne_nil] at h
  | cons tree trees ih =>
    cases trees' with
    | nil => simp [tokens_ne_nil] at h
    | cons tree' trees' =>
      rw [List.flatMap_cons, List.flatMap_cons] at h
      obtain ⟨htree, htrees⟩ := eq_of_tokens_append h
      rw [htree, ih htrees]

end FormTree

end MiniScheme
