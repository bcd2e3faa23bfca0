import MiniScheme.Proofs.Layout
import MiniScheme.Proofs.WellFormed

/-!
# Programs are read as they are written

A well-formed program can be written down, and whatever is written is read as the program again.
There are choices: a number may have leading zeros, a quoted datum may be marked or stand in a
`quote` form, and the lexemes may be laid out in any way.  What is read differs from the program
in the positions of its tokens and in the spelling of its literals only.

Main results:

- Theorem `Token.Spells.reads`: a leaf is read from each of its spellings.
- Theorem `Expression.Written.exists_tree`: tokens that are read from an expression as it is
  written are derived from one with the same content.
- Theorem `parse_written`: a well-formed program can be written, and is read in every layout of
  every way to write it.
-/

namespace MiniScheme

open CharClass

/-! ## Spellings -/

/-- The texts that stand for a constant: digits with the value of a number, and otherwise one
text, in which quotes and backslashes of a string have a backslash before them. -/
inductive Constant.Spells : Constant → List Char → Prop
  | number {n : Int64} {digits : List Char} (hne : digits ≠ [])
    (hdigits : ∀ c ∈ digits, isDigit c = true) (hvalue : (decimalValue digits : Int) = n.toInt) :
    Spells (.number n) digits
  | boolean (b : Bool) : Spells (.boolean b) (if b then "#t" else "#f").toList
  | character (c : Char) : Spells (.character c) ['#', '\\', c]
  | string (text : String) :
    Spells (.string text) ('"' :: (StringBody.encode text.toList ++ ['"']))

/-- The texts that stand for a leaf: the name of an identifier, or those for a constant. -/
inductive Token.Spells (token : Token) : List Char → Prop
  | identifier (hkind : token.kind = .identifier) : Spells token token.text.toList
  | literal {constant : Constant} {text : List Char} (hconstant : token.constant = some constant)
    (htext : constant.Spells text) : Spells token text

/-- A constant is read from each text that stands for it. -/
theorem Constant.Spells.reads {constant : Constant} {text : List Char} (h : constant.Spells text) :
    Reads text constant.kind (some constant) := by
  cases h with
  | @number n _ hne hdigits hvalue =>
    have hrange := n.toInt_lt
    have hn : Int64.ofNat (decimalValue text) = n := by
      apply Int64.toInt_inj.1
      rw [Int64.toInt_ofNat_of_lt (by omega), hvalue]
    have hreads := reads_number hne hdigits (by omega)
    rwa [hn] at hreads
  | boolean b => exact reads_boolean b
  | character c => exact reads_character c
  | string text => simpa [Constant.kind] using reads_string text.toList

/-- A leaf is read from each of its spellings. -/
theorem Token.Spells.reads {token : Token} {text : List Char} (h : token.Spells text)
    (hwell : token.isWellFormed = true) : Reads text token.kind token.constant := by
  rcases isWellFormed_cases hwell with ⟨hkind, hnone, hshape⟩ | ⟨constant, hkind, hsome, -⟩
  · cases h with
    | identifier => exact hkind ▸ hnone ▸ reads_identifier hshape
    | literal hconstant => cases hnone.symm.trans hconstant
  · cases h with
    | identifier hidentifier =>
      exact absurd (hkind.symm.trans hidentifier) constant.kind_ne_identifier
    | literal hconstant htext =>
      cases hsome.symm.trans hconstant
      exact hkind ▸ hsome ▸ htext.reads

/-- Every well-formed leaf has a spelling. -/
theorem Token.exists_spells {token : Token} (hwell : token.isWellFormed = true) :
    ∃ text, token.Spells text := by
  rcases isWellFormed_cases hwell with ⟨hkind, -, -⟩ | ⟨constant, -, hconstant, hwritable⟩
  · exact ⟨_, .identifier hkind⟩
  · cases constant with
    | number n =>
      have hn : 0 ≤ n.toInt := by simpa [Constant.isWritable] using hwritable
      have hvalue : (decimalValue (Nat.toDigits 10 n.toInt.toNat) : Int) = n.toInt := by
        rw [decimalValue_toDigits, Int.toNat_of_nonneg hn]
      exact ⟨_, .literal hconstant
        (.number Nat.toDigits_ne_nil (fun _ => isDigit_of_mem_toDigits) hvalue)⟩
    | boolean b => exact ⟨_, .literal hconstant (.boolean b)⟩
    | character c => exact ⟨_, .literal hconstant (.character c)⟩
    | string text => exact ⟨_, .literal hconstant (.string text)⟩

/-! ## Content -/

/-- A token without its position and, if it is a literal, without its spelling. -/
def Token.content (token : Token) : Token where
  kind := token.kind
  text := if token.kind = .identifier then token.text else ""
  constant := token.constant
  position := .start

/-- A datum without the positions of its tokens and the spelling of its literals. -/
def Datum.content : Datum → Datum
  | atom token => atom token.content
  | list items => list (items.map content)

/-- An expression without the positions of its tokens and the spelling of its literals. -/
def Expression.content : Expression → Expression
  | literal token => literal token.content
  | quoted datum => quoted datum.content
  | conditional predicate consequent alternative =>
    conditional predicate.content consequent.content alternative.content
  | lambda formals body => lambda (formals.map Token.content) (body.map content)
  | application head arguments => application head.content (arguments.map content)

/-- A form without the positions of its tokens and the spelling of its literals. -/
def Form.content : Form → Form
  | definition name value => definition name.content value.content
  | expression whole => expression whole.content

/-- What is read from a spelling of a leaf has the content of the leaf. -/
theorem Token.IsReadFrom.content_eq {token token' : Token} {text : List Char}
    (h : token'.IsReadFrom text) (hspells : token.Spells text)
    (hwell : token.isWellFormed = true) : token'.content = token.content := by
  rcases h.reads.unique (hspells.reads hwell) with ⟨hkind, hconstant⟩
  rw [content, content, hkind, hconstant]
  cases hspells with
  | identifier => rw [h.text_eq, String.ofList_toList]
  | literal hsome _ =>
    rcases isWellFormed_cases hwell with ⟨-, hnone, -⟩ | ⟨constant, hliteral, -⟩
    · cases hnone.symm.trans hsome
    · have hother : token.kind ≠ .identifier := hliteral ▸ constant.kind_ne_identifier
      rw [if_neg hother, if_neg hother]

/-! ## Writing -/

mutual

/-- The rows of pieces that a datum may be written as. -/
inductive Datum.Written : Datum → List (List Char) → Prop
  | atom {token : Token} {text : List Char} (h : token.Spells text) : Written (.atom token) [text]
  | list {items : List Datum} {pieces : List (List Char)} (h : Datum.RowWritten items pieces) :
    Written (.list items) (['('] :: (pieces ++ [[')']]))

/-- The rows of pieces that a row of data may be written as. -/
inductive Datum.RowWritten : List Datum → List (List Char) → Prop
  | nil : RowWritten [] []
  | cons {datum : Datum} {row : List Datum} {pieces pieces' : List (List Char)}
    (h : datum.Written pieces) (hrow : Datum.RowWritten row pieces') :
    RowWritten (datum :: row) (pieces ++ pieces')

end

/-- The pieces that names are written as. -/
def Token.names (tokens : List Token) : List (List Char) :=
  tokens.map fun token => token.text.toList

mutual

/-- The rows of pieces that an expression may be written as. -/
inductive Expression.Written : Expression → List (List Char) → Prop
  | literal {token : Token} {text : List Char} (h : token.Spells text) :
    Written (.literal token) [text]
  | marked {datum : Datum} {pieces : List (List Char)} (h : datum.Written pieces) :
    Written (.quoted datum) (['\''] :: pieces)
  | quoted {datum : Datum} {pieces : List (List Char)} (h : datum.Written pieces) :
    Written (.quoted datum) (['('] :: Keyword.quote.spelling :: (pieces ++ [[')']]))
  | conditional {predicate consequent alternative : Expression}
    {pieces pieces' pieces'' : List (List Char)} (hpredicate : predicate.Written pieces)
    (hconsequent : consequent.Written pieces') (halternative : alternative.Written pieces'') :
    Written (.conditional predicate consequent alternative)
      (['('] :: Keyword.conditional.spelling :: (pieces ++ (pieces' ++ (pieces'' ++ [[')']]))))
  | lambda {formals : List Token} {body : List Expression} {pieces : List (List Char)}
    (hbody : Expression.RowWritten body pieces) :
    Written (.lambda formals body) (['('] :: Keyword.lambda.spelling :: ['('] ::
      (Token.names formals ++ [')'] :: (pieces ++ [[')']])))
  | application {head : Expression} {arguments : List Expression}
    {pieces pieces' : List (List Char)} (hhead : head.Written pieces)
    (harguments : Expression.RowWritten arguments pieces') :
    Written (.application head arguments) (['('] :: (pieces ++ (pieces' ++ [[')']])))

/-- The rows of pieces that a row of expressions may be written as. -/
inductive Expression.RowWritten : List Expression → List (List Char) → Prop
  | nil : RowWritten [] []
  | cons {expression : Expression} {row : List Expression} {pieces pieces' : List (List Char)}
    (h : expression.Written pieces) (hrow : Expression.RowWritten row pieces') :
    RowWritten (expression :: row) (pieces ++ pieces')

end

/-- The rows of pieces that a form may be written as. -/
inductive Form.Written : Form → List (List Char) → Prop
  | definition {name : Token} {value : Expression} {pieces : List (List Char)}
    (hvalue : value.Written pieces) :
    Written (.definition name value)
      (['('] :: Keyword.define.spelling :: name.text.toList :: (pieces ++ [[')']]))
  | expression {whole : Expression} {pieces : List (List Char)} (h : whole.Written pieces) :
    Written (.expression whole) pieces

/-- The rows of pieces that a program may be written as. -/
inductive Program.Written : Program → List (List Char) → Prop
  | nil : Written [] []
  | cons {form : Form} {forms : Program} {pieces pieces' : List (List Char)}
    (h : form.Written pieces) (hforms : Program.Written forms pieces') :
    Written (form :: forms) (pieces ++ pieces')

/-! ## Reading what is written -/

/-- A row of pieces that begins with a terminal is read as a row of tokens that does. -/
theorem exists_terminal {piece : List Char} {kind : TokenKind} {constant : Option Constant}
    (hpiece : Reads piece kind constant) {tokens : List Token} {rest : List (List Char)}
    (h : List.Forall₂ Token.IsReadFrom tokens (piece :: rest)) :
    ∃ (terminal : Terminal kind) (tokens' : List Token), tokens = terminal.1 :: tokens' ∧
      terminal.1.IsReadFrom piece ∧ List.Forall₂ Token.IsReadFrom tokens' rest := by
  rcases List.forall₂_cons_right_iff.1 h with ⟨token, tokens', htoken, htokens, rfl⟩
  exact ⟨⟨token, (htoken.reads.unique hpiece).1⟩, tokens', rfl, htoken, htokens⟩

/-- A row of pieces that begins with a spelling of a leaf is read as a row of tokens that begins
with one of the same content. -/
theorem exists_atom {token : Token} {text : List Char} (hspells : token.Spells text)
    (hwell : token.isWellFormed = true) {tokens : List Token} {rest : List (List Char)}
    (h : List.Forall₂ Token.IsReadFrom tokens (text :: rest)) :
    ∃ (atom : AtomToken) (tokens' : List Token), tokens = atom.1 :: tokens' ∧
      atom.1.content = token.content ∧ List.Forall₂ Token.IsReadFrom tokens' rest := by
  rcases List.forall₂_cons_right_iff.1 h with ⟨token', tokens', htoken, htokens, rfl⟩
  have hkind := (htoken.reads.unique (hspells.reads hwell)).1
  refine ⟨⟨token', ?_⟩, tokens', rfl, htoken.content_eq hspells hwell, htokens⟩
  rw [hkind]
  exact Token.isAtom_of_isWellFormed hwell

mutual

/-- Tokens that are read from a datum as it is written are derived from one with the same
content. -/
theorem Datum.Written.exists_tree : ∀ {datum : Datum} {pieces : List (List Char)},
    datum.Written pieces → datum.isWellFormed = true →
    ∀ {tokens : List Token} {rest : List (List Char)},
    List.Forall₂ Token.IsReadFrom tokens (pieces ++ rest) →
      ∃ (tree : DatumTree) (tokens' : List Token), tokens = tree.tokens ++ tokens' ∧
        tree.datum.content = datum.content ∧ List.Forall₂ Token.IsReadFrom tokens' rest
  | _, _, .atom hspells, hwell, tokens, rest, h => by
    rcases exists_atom hspells hwell h with ⟨atom, tokens', rfl, hcontent, hrest⟩
    refine ⟨.atom atom, tokens', rfl, ?_, hrest⟩
    rw [DatumTree.datum, Datum.content, Datum.content, hcontent]
  | _, _, .list hitems, hwell, tokens, rest, h => by
    simp only [List.cons_append, List.append_assoc, List.nil_append] at h
    rcases exists_terminal reads_open h with ⟨opening, tokens, rfl, -, h⟩
    rcases hitems.exists_trees hwell h with ⟨trees, tokens, rfl, hcontent, h⟩
    rcases exists_terminal reads_close h with ⟨closing, tokens, rfl, -, h⟩
    refine ⟨.list opening trees closing, tokens, by simp [DatumTree.tokens], ?_, h⟩
    rw [DatumTree.datum, Datum.content, Datum.content, hcontent]

/-- Tokens that are read from a row of data as it is written are derived from a row with the same
content. -/
theorem Datum.RowWritten.exists_trees : ∀ {row : List Datum} {pieces : List (List Char)},
    Datum.RowWritten row pieces → Datum.areWellFormed row = true →
    ∀ {tokens : List Token} {rest : List (List Char)},
    List.Forall₂ Token.IsReadFrom tokens (pieces ++ rest) →
      ∃ (trees : List DatumTree) (tokens' : List Token),
        tokens = DatumTree.rowTokens trees ++ tokens' ∧
          (DatumTree.rowData trees).map Datum.content = row.map Datum.content ∧
            List.Forall₂ Token.IsReadFrom tokens' rest
  | _, _, .nil, _, tokens, rest, h => ⟨[], tokens, rfl, rfl, h⟩
  | _, _, .cons hdatum hrow, hwell, tokens, rest, h => by
    simp only [Datum.areWellFormed, Bool.and_eq_true] at hwell
    rw [List.append_assoc] at h
    rcases hdatum.exists_tree hwell.1 h with ⟨tree, tokens, rfl, hcontent, h⟩
    rcases hrow.exists_trees hwell.2 h with ⟨trees, tokens, rfl, hcontents, h⟩
    refine ⟨tree :: trees, tokens, by simp [DatumTree.rowTokens], ?_, h⟩
    rw [DatumTree.rowData, List.map_cons, List.map_cons, hcontent, hcontents]

end

/-- A row of pieces that begins with a name is read as a row of tokens that begins with an
identifier of that name. -/
theorem exists_name {name : Token} (hname : name.isName = true) {tokens : List Token}
    {rest : List (List Char)}
    (h : List.Forall₂ Token.IsReadFrom tokens (name.text.toList :: rest)) :
    ∃ (terminal : Terminal .identifier) (tokens' : List Token), tokens = terminal.1 :: tokens' ∧
      terminal.1.content = name.content ∧ List.Forall₂ Token.IsReadFrom tokens' rest := by
  have hkind := (Token.isName_iff.1 hname).1
  have hwell : name.isWellFormed = true := (Bool.and_eq_true_iff.1 hname).2
  obtain ⟨terminal, tokens', htokens, hread, hrest⟩ :=
    exists_terminal (reads_identifier (Token.isName_iff.1 hname).2.2) h
  exact ⟨terminal, tokens', htokens, hread.content_eq (.identifier hkind) hwell, hrest⟩

/-- A row of pieces that begins with names is read as a row of tokens that begins with
identifiers of the same names. -/
theorem exists_names : ∀ {names : List Token}, names.all Token.isName = true →
    ∀ {tokens : List Token} {rest : List (List Char)},
    List.Forall₂ Token.IsReadFrom tokens (Token.names names ++ rest) →
      ∃ (terminals : List (Terminal .identifier)) (tokens' : List Token),
        tokens = Terminal.tokens terminals ++ tokens' ∧
          (Terminal.tokens terminals).map Token.content = names.map Token.content ∧
            List.Forall₂ Token.IsReadFrom tokens' rest
  | [], _, tokens, rest, h => ⟨[], tokens, rfl, rfl, h⟩
  | name :: names, hwell, tokens, rest, h => by
    rw [List.all_cons, Bool.and_eq_true] at hwell
    rcases exists_name hwell.1 h with ⟨terminal, tokens, rfl, hcontent, h⟩
    rcases exists_names hwell.2 h with ⟨terminals, tokens, rfl, hcontents, h⟩
    refine ⟨terminal :: terminals, tokens, rfl, ?_, h⟩
    rw [List.map_cons, ← hcontents, ← hcontent]
    rfl

mutual

/-- Tokens that are read from an expression as it is written are derived from one with the same
content. -/
theorem Expression.Written.exists_tree : ∀ {expression : Expression} {pieces : List (List Char)},
    expression.Written pieces → expression.isWellFormed = true →
    ∀ {tokens : List Token} {rest : List (List Char)},
    List.Forall₂ Token.IsReadFrom tokens (pieces ++ rest) →
      ∃ (tree : ExpressionTree) (tokens' : List Token), tokens = tree.tokens ++ tokens' ∧
        tree.expression.content = expression.content ∧
          List.Forall₂ Token.IsReadFrom tokens' rest
  | _, _, .literal hspells, hwell, tokens, rest, h => by
    rcases exists_atom hspells hwell h with ⟨atom, tokens, rfl, hcontent, h⟩
    refine ⟨.atom atom, tokens, rfl, ?_, h⟩
    rw [ExpressionTree.expression, Expression.content, Expression.content, hcontent]
  | _, _, .marked hdatum, hwell, tokens, rest, h => by
    rcases exists_terminal reads_mark h with ⟨mark, tokens, rfl, -, h⟩
    rcases hdatum.exists_tree hwell h with ⟨datum, tokens, rfl, hcontent, h⟩
    refine ⟨.marked mark datum, tokens, rfl, ?_, h⟩
    rw [ExpressionTree.expression, Expression.content, Expression.content, hcontent]
  | _, _, .quoted hdatum, hwell, tokens, rest, h => by
    simp only [List.cons_append, List.append_assoc, List.nil_append] at h
    rcases exists_terminal reads_open h with ⟨opening, tokens, rfl, -, h⟩
    rcases exists_terminal (reads_keyword .quote) h with ⟨word, tokens, rfl, -, h⟩
    rcases hdatum.exists_tree hwell h with ⟨datum, tokens, rfl, hcontent, h⟩
    rcases exists_terminal reads_close h with ⟨closing, tokens, rfl, -, h⟩
    refine ⟨.quoted opening word datum closing, tokens, by simp [ExpressionTree.tokens], ?_, h⟩
    rw [ExpressionTree.expression, Expression.content, Expression.content, hcontent]
  | _, _, .conditional hpredicate hconsequent halternative, hwell, tokens, rest, h => by
    simp only [Expression.isWellFormed, Bool.and_eq_true] at hwell
    simp only [List.cons_append, List.append_assoc, List.nil_append] at h
    rcases exists_terminal reads_open h with ⟨opening, tokens, rfl, -, h⟩
    rcases exists_terminal (reads_keyword .conditional) h with ⟨word, tokens, rfl, -, h⟩
    rcases hpredicate.exists_tree hwell.1.1 h with ⟨predicate, tokens, rfl, hcontent, h⟩
    rcases hconsequent.exists_tree hwell.1.2 h with ⟨consequent, tokens, rfl, hcontent', h⟩
    rcases halternative.exists_tree hwell.2 h with ⟨alternative, tokens, rfl, hcontent'', h⟩
    rcases exists_terminal reads_close h with ⟨closing, tokens, rfl, -, h⟩
    refine ⟨.conditional opening word predicate consequent alternative closing, tokens,
      by simp [ExpressionTree.tokens], ?_, h⟩
    rw [ExpressionTree.expression, Expression.content, Expression.content, hcontent, hcontent',
      hcontent'']
  | _, _, .lambda hbody, hwell, tokens, rest, h => by
    simp only [Expression.isWellFormed, Bool.and_eq_true, Bool.not_eq_true'] at hwell
    simp only [List.cons_append, List.append_assoc, List.nil_append] at h
    rcases exists_terminal reads_open h with ⟨opening, tokens, rfl, -, h⟩
    rcases exists_terminal (reads_keyword .lambda) h with ⟨word, tokens, rfl, -, h⟩
    rcases exists_terminal reads_open h with ⟨formalsOpening, tokens, rfl, -, h⟩
    rcases exists_names hwell.1.1 h with ⟨formals, tokens, rfl, hformals, h⟩
    rcases exists_terminal reads_close h with ⟨formalsClosing, tokens, rfl, -, h⟩
    rcases hbody.exists_trees hwell.2 h with ⟨trees, tokens, rfl, hcontents, h⟩
    rcases exists_terminal reads_close h with ⟨closing, tokens, rfl, -, hrest⟩
    cases trees with
    | nil =>
      have hempty := List.map_eq_nil_iff.1 hcontents.symm
      simp [hempty] at hwell
    | cons first further =>
      refine ⟨.lambda opening word formalsOpening formals formalsClosing first further closing,
        tokens, by simp [ExpressionTree.tokens, ExpressionTree.rowTokens], ?_, hrest⟩
      rw [ExpressionTree.expression, ← ExpressionTree.rowExpressions, Expression.content,
        Expression.content, hformals, hcontents]
  | _, _, .application hhead harguments, hwell, tokens, rest, h => by
    simp only [Expression.isWellFormed, Bool.and_eq_true] at hwell
    simp only [List.cons_append, List.append_assoc, List.nil_append] at h
    rcases exists_terminal reads_open h with ⟨opening, tokens, rfl, -, h⟩
    rcases hhead.exists_tree hwell.1 h with ⟨head, tokens, rfl, hcontent, h⟩
    rcases harguments.exists_trees hwell.2 h with ⟨trees, tokens, rfl, hcontents, h⟩
    rcases exists_terminal reads_close h with ⟨closing, tokens, rfl, -, h⟩
    refine ⟨.application opening head trees closing, tokens, by simp [ExpressionTree.tokens], ?_, h⟩
    rw [ExpressionTree.expression, Expression.content, Expression.content, hcontent, hcontents]

/-- Tokens that are read from a row of expressions as it is written are derived from a row with
the same content. -/
theorem Expression.RowWritten.exists_trees : ∀ {row : List Expression} {pieces : List (List Char)},
    Expression.RowWritten row pieces → Expression.areWellFormed row = true →
    ∀ {tokens : List Token} {rest : List (List Char)},
    List.Forall₂ Token.IsReadFrom tokens (pieces ++ rest) →
      ∃ (trees : List ExpressionTree) (tokens' : List Token),
        tokens = ExpressionTree.rowTokens trees ++ tokens' ∧
          (ExpressionTree.rowExpressions trees).map Expression.content =
            row.map Expression.content ∧ List.Forall₂ Token.IsReadFrom tokens' rest
  | _, _, .nil, _, tokens, rest, h => ⟨[], tokens, rfl, rfl, h⟩
  | _, _, .cons hexpression hrow, hwell, tokens, rest, h => by
    simp only [Expression.areWellFormed, Bool.and_eq_true] at hwell
    rw [List.append_assoc] at h
    rcases hexpression.exists_tree hwell.1 h with ⟨tree, tokens, rfl, hcontent, h⟩
    rcases hrow.exists_trees hwell.2 h with ⟨trees, tokens, rfl, hcontents, h⟩
    refine ⟨tree :: trees, tokens, by simp [ExpressionTree.rowTokens], ?_, h⟩
    rw [ExpressionTree.rowExpressions, List.map_cons, List.map_cons, hcontent, hcontents]

end

/-- Tokens that are read from a form as it is written are derived from one with the same
content. -/
theorem Form.Written.exists_tree {form : Form} {pieces : List (List Char)}
    (hform : form.Written pieces) (hwell : form.isWellFormed = true) {tokens : List Token}
    {rest : List (List Char)} (h : List.Forall₂ Token.IsReadFrom tokens (pieces ++ rest)) :
    ∃ (tree : FormTree) (tokens' : List Token), tokens = tree.tokens ++ tokens' ∧
      tree.form.content = form.content ∧ List.Forall₂ Token.IsReadFrom tokens' rest := by
  cases hform with
  | definition hvalue =>
    simp only [Form.isWellFormed, Bool.and_eq_true] at hwell
    simp only [List.cons_append, List.append_assoc, List.nil_append] at h
    rcases exists_terminal reads_open h with ⟨opening, tokens, rfl, -, h⟩
    rcases exists_terminal (reads_keyword .define) h with ⟨word, tokens, rfl, -, h⟩
    rcases exists_name hwell.1 h with ⟨name, tokens, rfl, hcontent, h⟩
    rcases hvalue.exists_tree hwell.2 h with ⟨value, tokens, rfl, hcontent', h⟩
    rcases exists_terminal reads_close h with ⟨closing, tokens, rfl, -, h⟩
    refine ⟨.definition opening word name value closing, tokens, by simp [FormTree.tokens], ?_, h⟩
    rw [FormTree.form, Form.content, Form.content, hcontent, hcontent']
  | expression hwhole =>
    rcases hwhole.exists_tree hwell h with ⟨tree, tokens, rfl, hcontent, h⟩
    refine ⟨.expression tree, tokens, rfl, ?_, h⟩
    rw [FormTree.form, Form.content, Form.content, hcontent]

/-- Tokens that are read from a program as it is written are derived from one with the same
content. -/
theorem Program.Written.exists_trees {program : Program} {pieces : List (List Char)}
    (hprogram : program.Written pieces) (hwell : program.isWellFormed = true) {tokens : List Token}
    (h : List.Forall₂ Token.IsReadFrom tokens pieces) :
    ∃ trees : List FormTree, tokens = trees.flatMap FormTree.tokens ∧
      (trees.map FormTree.form).map Form.content = program.map Form.content := by
  induction hprogram generalizing tokens with
  | nil =>
    cases h
    exact ⟨[], rfl, rfl⟩
  | cons hform _ ih =>
    simp only [Program.isWellFormed, List.all_cons, Bool.and_eq_true] at hwell
    rcases hform.exists_tree hwell.1 h with ⟨tree, tokens, rfl, hcontent, h⟩
    rcases ih hwell.2 h with ⟨trees, rfl, hcontents⟩
    refine ⟨tree :: trees, by rw [List.flatMap_cons], ?_⟩
    rw [List.map_cons, List.map_cons, List.map_cons, hcontent, hcontents]

/-! ## All pieces are lexemes -/

/-- Every piece of a row is read as a token wherever it stands. -/
def AllRead (pieces : List (List Char)) : Prop :=
  ∀ piece ∈ pieces, ∃ kind constant, Reads piece kind constant

/-- A row of pieces is read when the first piece and those behind it are. -/
theorem allRead_cons {piece : List Char} {pieces : List (List Char)} :
    AllRead (piece :: pieces) ↔ (∃ kind constant, Reads piece kind constant) ∧ AllRead pieces :=
  List.forall_mem_cons

/-- Two rows of pieces are read together when each is. -/
theorem allRead_append {pieces pieces' : List (List Char)} :
    AllRead (pieces ++ pieces') ↔ AllRead pieces ∧ AllRead pieces' :=
  List.forall_mem_append

/-- Parentheses around what is read are read. -/
theorem allRead_open {pieces : List (List Char)} (h : AllRead pieces) :
    AllRead (['('] :: (pieces ++ [[')']])) := by
  have hclose : AllRead [[')']] := allRead_cons.2 ⟨⟨_, _, reads_close⟩, nofun⟩
  exact allRead_cons.2 ⟨⟨_, _, reads_open⟩, allRead_append.2 ⟨h, hclose⟩⟩

/-- A keyword in front of what is read is read. -/
theorem allRead_keyword (keyword : Keyword) {pieces : List (List Char)} (h : AllRead pieces) :
    AllRead (keyword.spelling :: pieces) :=
  allRead_cons.2 ⟨⟨_, _, reads_keyword keyword⟩, h⟩

/-- Names are read. -/
theorem allRead_names {names : List Token} (h : names.all Token.isName = true) :
    AllRead (Token.names names) := by
  intro piece hpiece
  rcases List.mem_map.1 hpiece with ⟨name, hname, rfl⟩
  exact ⟨_, _, reads_identifier (Token.isName_iff.1 (List.all_eq_true.1 h name hname)).2.2⟩

mutual

/-- The pieces of a well-formed datum are read. -/
theorem Datum.Written.allRead : ∀ {datum : Datum} {pieces : List (List Char)},
    datum.Written pieces → datum.isWellFormed = true → AllRead pieces
  | _, _, .atom hspells, hwell => allRead_cons.2 ⟨⟨_, _, hspells.reads hwell⟩, nofun⟩
  | _, _, .list hitems, hwell => allRead_open (hitems.allRead hwell)

/-- The pieces of well-formed data are read. -/
theorem Datum.RowWritten.allRead : ∀ {row : List Datum} {pieces : List (List Char)},
    Datum.RowWritten row pieces → Datum.areWellFormed row = true → AllRead pieces
  | _, _, .nil, _ => nofun
  | _, _, .cons hdatum hrow, hwell => by
    simp only [Datum.areWellFormed, Bool.and_eq_true] at hwell
    exact allRead_append.2 ⟨hdatum.allRead hwell.1, hrow.allRead hwell.2⟩

end

mutual

/-- The pieces of a well-formed expression are read. -/
theorem Expression.Written.allRead : ∀ {expression : Expression} {pieces : List (List Char)},
    expression.Written pieces → expression.isWellFormed = true → AllRead pieces
  | _, _, .literal hspells, hwell => allRead_cons.2 ⟨⟨_, _, hspells.reads hwell⟩, nofun⟩
  | _, _, .marked hdatum, hwell =>
    allRead_cons.2 ⟨⟨_, _, reads_mark⟩, hdatum.allRead hwell⟩
  | _, _, .quoted hdatum, hwell =>
    allRead_open (allRead_keyword .quote (hdatum.allRead hwell))
  | _, _, .conditional hpredicate hconsequent halternative, hwell => by
    simp only [Expression.isWellFormed, Bool.and_eq_true] at hwell
    have hparts := allRead_append.2 ⟨hpredicate.allRead hwell.1.1, allRead_append.2
      ⟨hconsequent.allRead hwell.1.2, halternative.allRead hwell.2⟩⟩
    simpa using allRead_open (allRead_keyword .conditional hparts)
  | _, _, .lambda hbody, hwell => by
    simp only [Expression.isWellFormed, Bool.and_eq_true] at hwell
    have hparts := allRead_append.2
      ⟨allRead_open (allRead_names hwell.1.1), hbody.allRead hwell.2⟩
    simpa using allRead_open (allRead_keyword .lambda hparts)
  | _, _, .application hhead harguments, hwell => by
    simp only [Expression.isWellFormed, Bool.and_eq_true] at hwell
    have hparts := allRead_append.2 ⟨hhead.allRead hwell.1, harguments.allRead hwell.2⟩
    simpa using allRead_open hparts

/-- The pieces of well-formed expressions are read. -/
theorem Expression.RowWritten.allRead : ∀ {row : List Expression} {pieces : List (List Char)},
    Expression.RowWritten row pieces → Expression.areWellFormed row = true → AllRead pieces
  | _, _, .nil, _ => nofun
  | _, _, .cons hexpression hrow, hwell => by
    simp only [Expression.areWellFormed, Bool.and_eq_true] at hwell
    exact allRead_append.2 ⟨hexpression.allRead hwell.1, hrow.allRead hwell.2⟩

end

/-- The pieces of a well-formed form are read. -/
theorem Form.Written.allRead {form : Form} {pieces : List (List Char)} (h : form.Written pieces)
    (hwell : form.isWellFormed = true) : AllRead pieces := by
  cases h with
  | definition hvalue =>
    simp only [Form.isWellFormed, Bool.and_eq_true] at hwell
    have hname := reads_identifier (Token.isName_iff.1 hwell.1).2.2
    have hparts := allRead_cons.2 ⟨⟨_, _, hname⟩, hvalue.allRead hwell.2⟩
    exact allRead_open (allRead_keyword .define hparts)
  | expression hwhole => exact hwhole.allRead hwell

/-- Every piece that a well-formed program is written with is read as a token. -/
theorem Program.Written.allRead {program : Program} {pieces : List (List Char)}
    (h : program.Written pieces) (hwell : program.isWellFormed = true) : AllRead pieces := by
  induction h with
  | nil => exact nofun
  | cons hform _ ih =>
    simp only [Program.isWellFormed, List.all_cons, Bool.and_eq_true] at hwell
    exact allRead_append.2 ⟨hform.allRead hwell.1, ih hwell.2⟩

/-! ## Every well-formed program can be written -/

mutual

/-- A well-formed datum can be written. -/
theorem Datum.exists_written : ∀ (datum : Datum), datum.isWellFormed = true →
    ∃ pieces, datum.Written pieces
  | .atom _, hwell =>
    have ⟨_, hspells⟩ := Token.exists_spells hwell
    ⟨_, .atom hspells⟩
  | .list items, hwell =>
    have ⟨_, hitems⟩ := Datum.exists_rowWritten items hwell
    ⟨_, .list hitems⟩

/-- Well-formed data can be written. -/
theorem Datum.exists_rowWritten : ∀ (row : List Datum), Datum.areWellFormed row = true →
    ∃ pieces, Datum.RowWritten row pieces
  | [], _ => ⟨_, .nil⟩
  | datum :: row, hwell => by
    simp only [Datum.areWellFormed, Bool.and_eq_true] at hwell
    rcases datum.exists_written hwell.1 with ⟨_, hdatum⟩
    rcases Datum.exists_rowWritten row hwell.2 with ⟨_, hrow⟩
    exact ⟨_, .cons hdatum hrow⟩

end

mutual

/-- A well-formed expression can be written. -/
theorem Expression.exists_written : ∀ (expression : Expression), expression.isWellFormed = true →
    ∃ pieces, expression.Written pieces
  | .literal _, hwell =>
    have ⟨_, hspells⟩ := Token.exists_spells hwell
    ⟨_, .literal hspells⟩
  | .quoted datum, hwell =>
    have ⟨_, hdatum⟩ := datum.exists_written hwell
    ⟨_, .marked hdatum⟩
  | .conditional predicate consequent alternative, hwell => by
    simp only [Expression.isWellFormed, Bool.and_eq_true] at hwell
    rcases predicate.exists_written hwell.1.1 with ⟨_, hpredicate⟩
    rcases consequent.exists_written hwell.1.2 with ⟨_, hconsequent⟩
    rcases alternative.exists_written hwell.2 with ⟨_, halternative⟩
    exact ⟨_, .conditional hpredicate hconsequent halternative⟩
  | .lambda formals body, hwell => by
    simp only [Expression.isWellFormed, Bool.and_eq_true] at hwell
    rcases Expression.exists_rowWritten body hwell.2 with ⟨_, hbody⟩
    exact ⟨_, .lambda hbody⟩
  | .application head arguments, hwell => by
    simp only [Expression.isWellFormed, Bool.and_eq_true] at hwell
    rcases head.exists_written hwell.1 with ⟨_, hhead⟩
    rcases Expression.exists_rowWritten arguments hwell.2 with ⟨_, harguments⟩
    exact ⟨_, .application hhead harguments⟩

/-- Well-formed expressions can be written. -/
theorem Expression.exists_rowWritten : ∀ (row : List Expression),
    Expression.areWellFormed row = true → ∃ pieces, Expression.RowWritten row pieces
  | [], _ => ⟨_, .nil⟩
  | expression :: row, hwell => by
    simp only [Expression.areWellFormed, Bool.and_eq_true] at hwell
    rcases expression.exists_written hwell.1 with ⟨_, hexpression⟩
    rcases Expression.exists_rowWritten row hwell.2 with ⟨_, hrow⟩
    exact ⟨_, .cons hexpression hrow⟩

end

/-- A well-formed form can be written. -/
theorem Form.exists_written (form : Form) (hwell : form.isWellFormed = true) :
    ∃ pieces, form.Written pieces := by
  cases form with
  | definition name value =>
    simp only [Form.isWellFormed, Bool.and_eq_true] at hwell
    rcases value.exists_written hwell.2 with ⟨_, hvalue⟩
    exact ⟨_, .definition hvalue⟩
  | expression whole =>
    rcases whole.exists_written hwell with ⟨_, hwhole⟩
    exact ⟨_, .expression hwhole⟩

/-- Every well-formed program can be written. -/
theorem Program.exists_written (program : Program) (hwell : program.isWellFormed = true) :
    ∃ pieces, program.Written pieces := by
  induction program with
  | nil => exact ⟨_, .nil⟩
  | cons form forms ih =>
    simp only [Program.isWellFormed, List.all_cons, Bool.and_eq_true] at hwell
    rcases form.exists_written hwell.1 with ⟨_, hform⟩
    rcases ih hwell.2 with ⟨_, hforms⟩
    exact ⟨_, .cons hform hforms⟩

/-! ## Every layout is read -/

/-- A well-formed program can be written, and in every layout of every way to write it, it is
read without errors as a program that has its content. -/
theorem parse_written (program : Program) (hwell : program.isWellFormed = true) :
    (∃ pieces, program.Written pieces) ∧
      ∀ pieces gap text, program.Written pieces → IsGap gap → LaidOut pieces text →
        ∃ program', parse (String.ofList (gap ++ text)) = .ok program' ∧
          program'.map Form.content = program.map Form.content := by
  refine ⟨program.exists_written hwell, fun pieces gap text hwritten hgap hlaid => ?_⟩
  obtain ⟨tokens, hitems, htokens⟩ :=
    hlaid.exists_tokens (hwritten.allRead hwell) (Position.start.advance gap)
  rcases hwritten.exists_trees hwell htokens with ⟨trees, rfl, hcontent⟩
  have hderives : Derives (String.ofList (gap ++ text)) trees := by
    rw [Derives, Cursor.ofSource, String.toList_ofList, Cursor.items_gap hgap, hitems]
  exact ⟨_, (parse_eq_ok_iff _ _).2 hderives.readSource_eq, hcontent⟩

/-- A quote that is written as a character stands behind a comment with a parenthesis. -/
theorem parse_written_character :
    let token : Token := ⟨.character, "", some (.character '"'), .start⟩
    ∃ program', parse "( quote;)\n\t#\\\"\r)" = .ok program' ∧
      program'.map Form.content = [.expression (.quoted (.atom token.content))] := by
  intro token
  have hwritten : Program.Written [.expression (.quoted (.atom token))]
      [['('], Keyword.quote.spelling, ['#', '\\', '"'], [')']] :=
    .cons (.expression (.quoted (.atom (.literal rfl (.character '"'))))) .nil
  have hcomment : IsGap (';' :: ([')'] ++ '\n' :: ['\t'])) := .comment (by decide) (.space rfl .nil)
  have hlaid : LaidOut [['('], Keyword.quote.spelling, ['#', '\\', '"'], [')']]
      (['('] ++ ([' '] ++ (Keyword.quote.spelling ++ ((';' :: ([')'] ++ '\n' :: ['\t'])) ++
        (['#', '\\', '"'] ++ (['\r'] ++ ([')'] ++ ([] ++ [])))))))) :=
    .cons (.space rfl .nil) nofun <| .cons hcomment nofun <| .cons (.space rfl .nil) nofun <|
      .cons .nil (absurd rfl) .nil
  have hparse :=
    (parse_written [.expression (.quoted (.atom token))] (by decide)).2 _ _ _ hwritten .nil hlaid
  simp only [List.map_cons, List.map_nil, Form.content, Expression.content, Datum.content] at hparse
  exact hparse

end MiniScheme
