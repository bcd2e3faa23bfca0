import MiniScheme.Proofs.FailedCompilation

/-!
# Trees node by node

What is well formed as a whole is well formed in each of its parts: a form is sound if every
literal in it, and every atom of its quoted data, is an identifier or has a constant of its own
kind, if all names that it binds are identifiers, and if no function in it lacks a body.  A sound
program has no script only because of quoted data, and the word `null`, which stands for a token
without a constant, is not in its script.

Main results:

- Theorem `Form.sound_of_isWellFormed`: well-formed forms are sound.
- Theorem `Program.isUnquoted_iff`: a program holds no quoted data if none is among its parts.
- Theorem `Statement.ofProgram_eq_error_iff`: a well-formed program has no statements exactly if
  quoted data is among its parts.
- Theorem `Compiler.null_not_mem_script`: the script of a well-formed program is free of `null`.
-/

namespace MiniScheme

open Script

/-! ## The parts of a tree -/

mutual

/-- The atoms in a datum. -/
def Datum.atoms : Datum → List Token
  | .atom token => [token]
  | .list items => Datum.rowAtoms items

/-- The atoms in a row of data. -/
def Datum.rowAtoms : List Datum → List Token
  | [] => []
  | datum :: row => datum.atoms ++ Datum.rowAtoms row

end

mutual

/-- An expression and all expressions in it. -/
def Expression.parts : Expression → List Expression
  | .literal token => [.literal token]
  | .quoted datum => [.quoted datum]
  | .conditional predicate consequent alternative =>
    .conditional predicate consequent alternative ::
      (predicate.parts ++ (consequent.parts ++ alternative.parts))
  | .lambda formals body => .lambda formals body :: Expression.rowParts body
  | .application head arguments =>
    .application head arguments :: (head.parts ++ Expression.rowParts arguments)

/-- The expressions of a row and all expressions in them. -/
def Expression.rowParts : List Expression → List Expression
  | [] => []
  | expression :: row => expression.parts ++ Expression.rowParts row

end

/-- The expressions in a form. -/
def Form.parts : Form → List Expression
  | definition _ value => value.parts
  | expression whole => whole.parts

/-- The expressions in the forms of a program. -/
def Program.parts (program : Program) : List Expression :=
  program.flatMap Form.parts

/-- Whether a token is an identifier. -/
def Token.IsIdentifier (token : Token) : Prop :=
  token.kind = .identifier ∧ token.constant = none

/-- Whether a token is an identifier, or a literal with a constant of its own kind. -/
def Token.HasOwnConstant (token : Token) : Prop :=
  token.IsIdentifier ∨ ∃ constant, token.constant = some constant ∧ token.kind = constant.kind

/-- Whether a form holds nothing but what sources can: literals with constants of their own kinds,
names that are identifiers, and functions with bodies. -/
structure Form.Sound (form : Form) : Prop where
  literals : ∀ token, .literal token ∈ form.parts → token.HasOwnConstant
  quoted : ∀ datum, .quoted datum ∈ form.parts → ∀ token ∈ datum.atoms, token.HasOwnConstant
  formals : ∀ formals body, .lambda formals body ∈ form.parts →
    ∀ formal ∈ formals, formal.IsIdentifier
  bodies : ∀ formals body, .lambda formals body ∈ form.parts → body ≠ []
  defined : ∀ name value, form = .definition name value → name.IsIdentifier

/-! ## Well-formed parts -/

/-- A well-formed atom carries the constant of its kind, or none if it is an identifier. -/
theorem Token.hasOwnConstant_of_isWellFormed {token : Token} (h : token.isWellFormed = true) :
    token.HasOwnConstant := by
  rcases isWellFormed_cases h with ⟨hkind, hconstant, -⟩ | ⟨constant, hkind, hconstant, -⟩
  · exact .inl ⟨hkind, hconstant⟩
  · exact .inr ⟨constant, hconstant, hkind⟩

/-- A name is an identifier without a constant. -/
theorem Token.isIdentifier_of_isName {token : Token} (h : token.isName = true) :
    token.IsIdentifier :=
  have hname := isName_iff.1 h
  ⟨hname.1, hname.2.1⟩

mutual

/-- The atoms of a well-formed datum are well formed. -/
theorem Datum.isWellFormed_of_mem_atoms : ∀ (datum : Datum), datum.isWellFormed = true →
    ∀ token ∈ datum.atoms, token.isWellFormed = true
  | .atom _, h => List.forall_mem_singleton.2 h
  | .list items, h => Datum.isWellFormed_of_mem_rowAtoms items h

/-- The atoms of well-formed data are well formed. -/
theorem Datum.isWellFormed_of_mem_rowAtoms : ∀ (row : List Datum),
    Datum.areWellFormed row = true → ∀ token ∈ Datum.rowAtoms row, token.isWellFormed = true
  | [], _ => nofun
  | datum :: row, h => by
    simp only [areWellFormed, Bool.and_eq_true] at h
    exact List.forall_mem_append.2
      ⟨datum.isWellFormed_of_mem_atoms h.1, isWellFormed_of_mem_rowAtoms row h.2⟩

end

mutual

/-- The parts of a well-formed expression are well formed. -/
theorem Expression.isWellFormed_of_mem_parts : ∀ (expression : Expression),
    expression.isWellFormed = true → ∀ part ∈ expression.parts, part.isWellFormed = true
  | .literal _, h => List.forall_mem_singleton.2 h
  | .quoted _, h => List.forall_mem_singleton.2 h
  | .conditional predicate consequent alternative, h => by
    refine List.forall_mem_cons.2 ⟨h, ?_⟩
    simp only [isWellFormed, Bool.and_eq_true] at h
    exact List.forall_mem_append.2 ⟨predicate.isWellFormed_of_mem_parts h.1.1,
      List.forall_mem_append.2 ⟨consequent.isWellFormed_of_mem_parts h.1.2,
        alternative.isWellFormed_of_mem_parts h.2⟩⟩
  | .lambda formals body, h => by
    refine List.forall_mem_cons.2 ⟨h, ?_⟩
    simp only [isWellFormed, Bool.and_eq_true] at h
    exact isWellFormed_of_mem_rowParts body h.2
  | .application head arguments, h => by
    refine List.forall_mem_cons.2 ⟨h, ?_⟩
    simp only [isWellFormed, Bool.and_eq_true] at h
    exact List.forall_mem_append.2
      ⟨head.isWellFormed_of_mem_parts h.1, isWellFormed_of_mem_rowParts arguments h.2⟩

/-- The parts of well-formed expressions are well formed. -/
theorem Expression.isWellFormed_of_mem_rowParts : ∀ (row : List Expression),
    Expression.areWellFormed row = true →
      ∀ part ∈ Expression.rowParts row, part.isWellFormed = true
  | [], _ => nofun
  | expression :: row, h => by
    simp only [areWellFormed, Bool.and_eq_true] at h
    exact List.forall_mem_append.2
      ⟨expression.isWellFormed_of_mem_parts h.1, isWellFormed_of_mem_rowParts row h.2⟩

end

/-- Well-formed forms are sound. -/
theorem Form.sound_of_isWellFormed {form : Form} (h : form.isWellFormed = true) : form.Sound := by
  have hparts : ∀ part ∈ form.parts, part.isWellFormed = true := by
    cases form with
    | definition name value =>
      simp only [isWellFormed, Bool.and_eq_true] at h
      exact value.isWellFormed_of_mem_parts h.2
    | expression whole => exact whole.isWellFormed_of_mem_parts h
  have hlambda : ∀ formals body, .lambda formals body ∈ form.parts →
      formals.all Token.isName = true ∧ body ≠ [] := by
    intro formals body hpart
    have hlambda := hparts _ hpart
    simp only [Expression.isWellFormed, Bool.and_eq_true, Bool.not_eq_true',
      List.isEmpty_eq_false_iff] at hlambda
    exact hlambda.1
  constructor
  · exact fun token hpart => Token.hasOwnConstant_of_isWellFormed (hparts _ hpart)
  · intro datum hpart token htoken
    exact Token.hasOwnConstant_of_isWellFormed
      (datum.isWellFormed_of_mem_atoms (hparts _ hpart) token htoken)
  · intro formals body hpart formal hformal
    have hnames := (hlambda formals body hpart).1
    exact Token.isIdentifier_of_isName (List.all_eq_true.1 hnames formal hformal)
  · exact fun formals body hpart => (hlambda formals body hpart).2
  · rintro name value rfl
    simp only [isWellFormed, Bool.and_eq_true] at h
    exact Token.isIdentifier_of_isName h.1

/-! ## Quoted data among the parts -/

mutual

/-- An expression holds no quoted data if none is among its parts. -/
theorem Expression.isUnquoted_iff : ∀ (expression : Expression),
    expression.isUnquoted = true ↔ ∀ datum, .quoted datum ∉ expression.parts
  | .literal token => by simp [isUnquoted, parts]
  | .quoted datum => by simp [isUnquoted, parts]
  | .conditional predicate consequent alternative => by
    simp only [isUnquoted, Bool.and_eq_true, predicate.isUnquoted_iff, consequent.isUnquoted_iff,
      alternative.isUnquoted_iff, parts, List.mem_cons, List.mem_append, reduceCtorEq, false_or,
      not_or, forall_and, and_assoc]
  | .lambda formals body => by
    simp only [isUnquoted, areUnquoted_iff body, parts, List.mem_cons, reduceCtorEq, false_or]
  | .application head arguments => by
    simp only [isUnquoted, Bool.and_eq_true, head.isUnquoted_iff, areUnquoted_iff arguments, parts,
      List.mem_cons, List.mem_append, reduceCtorEq, false_or, not_or, forall_and]

/-- A row holds no quoted data when none of its parts is quoted. -/
theorem Expression.areUnquoted_iff : ∀ (row : List Expression),
    Expression.areUnquoted row = true ↔ ∀ datum, .quoted datum ∉ Expression.rowParts row
  | [] => by simp [areUnquoted, rowParts]
  | expression :: row => by
    simp only [areUnquoted, Bool.and_eq_true, expression.isUnquoted_iff, areUnquoted_iff row,
      rowParts, List.mem_append, not_or, forall_and]

end

/-- A program holds no quoted data if none is among its parts. -/
theorem Program.isUnquoted_iff {program : Program} :
    program.isUnquoted = true ↔ ∀ datum, .quoted datum ∉ program.parts := by
  have hform : ∀ form : Form, form.isUnquoted = true ↔ ∀ datum, .quoted datum ∉ form.parts := by
    intro form
    cases form with
    | definition name value => exact value.isUnquoted_iff
    | expression whole => exact whole.isUnquoted_iff
  rw [isUnquoted, List.all_eq_true]
  simp only [hform, parts, List.mem_flatMap, not_exists, not_and]
  exact ⟨fun h datum form hmem => h form hmem datum, fun h form hmem datum => h datum form hmem⟩

namespace Script

/-! ## What has no script -/

/-- Two actions in a row fail where the first of them to fail does. -/
theorem bind_eq_error_iff {α β : Type} {action : Except Unsupported α}
    {next : α → Except Unsupported β} {reason : Unsupported} :
    (action >>= next) = .error reason ↔
      action = .error reason ∨ ∃ value, action = .ok value ∧ next value = .error reason := by
  cases action with
  | error => simp [bind, Except.bind]
  | ok value => simp [bind, Except.bind]

namespace Term

mutual

/-- What has a script holds no quoted data. -/
theorem isUnquoted_of_ofExpression : ∀ (expression : Expression) {term : Term},
    ofExpression expression = .ok term → expression.isUnquoted = true
  | .literal _, _, _ => rfl
  | .quoted _, _, h => by cases h
  | .conditional predicate consequent alternative, _, h => by
    obtain ⟨test, whenTrue, whenFalse, htest, htrue, hfalse, -⟩ := ofExpression_conditional.1 h
    simp only [Expression.isUnquoted, isUnquoted_of_ofExpression predicate htest,
      isUnquoted_of_ofExpression consequent htrue, isUnquoted_of_ofExpression alternative hfalse,
      Bool.and_true]
  | .lambda formals body, _, h => by
    obtain ⟨steps, result, hbody, -⟩ := ofExpression_lambda.1 h
    exact areUnquoted_of_ofExpressions body hbody
  | .application head arguments, _, h => by
    obtain ⟨headTerm, terms, hhead, harguments, -⟩ := ofExpression_application.1 h
    simp only [Expression.isUnquoted, isUnquoted_of_ofExpression head hhead,
      areUnquoted_of_ofExpressions arguments harguments, Bool.and_true]

/-- Expressions that compile hold no quoted data. -/
theorem areUnquoted_of_ofExpressions : ∀ (row : List Expression) {terms : List Term},
    ofExpressions row = .ok terms → Expression.areUnquoted row = true
  | [], _, _ => rfl
  | expression :: row, _, h => by
    obtain ⟨term, rest, hterm, hrest, -⟩ := ofExpressions_cons.1 h
    simp only [Expression.areUnquoted, isUnquoted_of_ofExpression expression hterm,
      areUnquoted_of_ofExpressions row hrest, Bool.and_true]

end

/-- A function with a body has a term. -/
theorem functionTerm_ne_error {parameters : List String} {terms : List Term} (h : terms ≠ [])
    (reason : Unsupported) : functionTerm parameters terms ≠ .error reason := by
  rw [functionTerm, List.getLast?_eq_some_getLast h]
  nofun

mutual

/-- A well-formed expression without a term lacks it because of quoted data. -/
theorem eq_quotedDatum_of_ofExpression : ∀ (expression : Expression),
    expression.isWellFormed = true → ∀ {reason : Unsupported},
      ofExpression expression = .error reason → reason = .quotedDatum
  | .literal _, _, _, h => by cases h
  | .quoted _, _, _, h => by
    cases h
    rfl
  | .conditional predicate consequent alternative, hwell, _, h => by
    simp only [Expression.isWellFormed, Bool.and_eq_true] at hwell
    simp only [ofExpression, bind_eq_error_iff] at h
    rcases h with h | ⟨test, -, h | ⟨whenTrue, -, h | ⟨whenFalse, -, h⟩⟩⟩
    · exact eq_quotedDatum_of_ofExpression predicate hwell.1.1 h
    · exact eq_quotedDatum_of_ofExpression consequent hwell.1.2 h
    · exact eq_quotedDatum_of_ofExpression alternative hwell.2 h
    · cases h
  | .lambda formals body, hwell, reason, h => by
    simp only [Expression.isWellFormed, Bool.and_eq_true, Bool.not_eq_true',
      List.isEmpty_eq_false_iff] at hwell
    simp only [ofExpression, bind_eq_error_iff] at h
    rcases h with h | ⟨terms, hterms, h⟩
    · exact eq_quotedDatum_of_ofExpressions body hwell.2 h
    · obtain ⟨first, further, rfl⟩ := List.exists_cons_of_ne_nil hwell.1.2
      obtain ⟨term, rest, -, -, rfl⟩ := ofExpressions_cons.1 hterms
      exact absurd h (functionTerm_ne_error (List.cons_ne_nil term rest) reason)
  | .application head arguments, hwell, _, h => by
    simp only [Expression.isWellFormed, Bool.and_eq_true] at hwell
    simp only [ofExpression, bind_eq_error_iff] at h
    rcases h with h | ⟨headTerm, -, h | ⟨terms, -, h⟩⟩
    · exact eq_quotedDatum_of_ofExpression head hwell.1 h
    · exact eq_quotedDatum_of_ofExpressions arguments hwell.2 h
    · cases h

/-- Well-formed expressions are refused for quoted data only. -/
theorem eq_quotedDatum_of_ofExpressions : ∀ (row : List Expression),
    Expression.areWellFormed row = true → ∀ {reason : Unsupported},
      ofExpressions row = .error reason → reason = .quotedDatum
  | [], _, _, h => by cases h
  | expression :: row, hwell, _, h => by
    simp only [Expression.areWellFormed, Bool.and_eq_true] at hwell
    simp only [ofExpressions, bind_eq_error_iff] at h
    rcases h with h | ⟨term, -, h | ⟨rest, -, h⟩⟩
    · exact eq_quotedDatum_of_ofExpression expression hwell.1 h
    · exact eq_quotedDatum_of_ofExpressions row hwell.2 h
    · cases h

end

end Term

namespace Statement

variable {declared : List String} {form : Form} {program : Program} {reason : Unsupported}

/-- A well-formed form without a statement lacks it because of quoted data. -/
theorem eq_quotedDatum_of_ofForm (hwell : form.isWellFormed = true)
    (h : ofForm declared form = .error reason) : reason = .quotedDatum := by
  cases form with
  | definition name value =>
    simp only [Form.isWellFormed, Bool.and_eq_true] at hwell
    rw [ofForm, bind_eq_error_iff] at h
    rcases h with h | ⟨term, -, h⟩
    · exact Term.eq_quotedDatum_of_ofExpression value hwell.2 h
    · dsimp only at h
      split at h <;> cases h
  | expression whole =>
    rw [ofForm, bind_eq_error_iff] at h
    rcases h with h | ⟨term, -, h⟩
    · exact Term.eq_quotedDatum_of_ofExpression whole hwell h
    · cases h

/-- A program with statements holds no quoted data. -/
theorem isUnquoted_of_ofProgram {statements : List Statement}
    (h : (ofProgram declared program).1 = .ok statements) : program.isUnquoted = true := by
  induction program generalizing declared statements with
  | nil => rfl
  | cons form forms ih =>
    obtain ⟨statement, after, rest, hform, hrest, -⟩ := ofProgram_cons.1 h
    have hfirst : form.isUnquoted = true := by
      cases form with
      | definition name value =>
        obtain ⟨term, hterm, -⟩ := ofForm_definition.1 hform
        exact Term.isUnquoted_of_ofExpression value hterm
      | expression whole =>
        obtain ⟨term, hterm, -⟩ := ofForm_expression.1 hform
        exact Term.isUnquoted_of_ofExpression whole hterm
    have hfurther := ih hrest
    rw [Program.isUnquoted] at hfurther ⊢
    rw [List.all_cons, hfirst, hfurther, Bool.and_true]

/-- A well-formed program has no statements exactly if quoted data is among its parts, and that is
the reason then. -/
theorem ofProgram_eq_error_iff (hwell : program.isWellFormed = true) (declared : List String) :
    (ofProgram declared program).1 = .error reason ↔
      reason = .quotedDatum ∧ ∃ datum, .quoted datum ∈ program.parts := by
  constructor
  · intro h
    obtain ⟨first, form, rest, -, rfl, -, hform, -⟩ := ofProgram_eq_error h
    have hmem : form ∈ first ++ form :: rest := by simp
    refine ⟨eq_quotedDatum_of_ofForm (List.all_eq_true.1 hwell form hmem) (hform declared), ?_⟩
    by_contra hnone
    obtain ⟨statements, hstatements, -⟩ :=
      ofProgram_legal hwell (Program.isUnquoted_iff.2 (not_exists.1 hnone)) declared
    rw [hstatements] at h
    cases h
  · rintro ⟨rfl, datum, hdatum⟩
    cases h : (ofProgram declared program).1 with
    | ok statements =>
      exact absurd hdatum (Program.isUnquoted_iff.1 (isUnquoted_of_ofProgram h) datum)
    | error reason =>
      obtain ⟨first, form, rest, -, rfl, -, hform, -⟩ := ofProgram_eq_error h
      have hmem : form ∈ first ++ form :: rest := by simp
      rw [eq_quotedDatum_of_ofForm (List.all_eq_true.1 hwell form hmem) (hform declared)]

end Statement

/-! ## The word for nothing -/

/-- The word that a script has in place of a token without a constant. -/
def Piece.null : Piece :=
  .word "null".toList

/-- The word for nothing is no mark. -/
theorem Piece.null_ne_mark (c : Char) : Piece.null ≠ .mark c :=
  nofun

/-- No legal name is the word for nothing. -/
theorem Name.IsLegal.ne_null {name : String} (h : Name.IsLegal name) :
    Piece.null ≠ .word name.toList := by
  intro heq
  have hname : "null" = name := String.toList_inj.1 (Piece.word.inj heq)
  have hreserved : "null" ∈ Name.reserved := by decide
  exact h.free (hname ▸ hreserved)

/-- A piece of a separated row is a comma or belongs to one of the row. -/
theorem of_mem_separated {row : List (List Piece)} {piece : Piece} (h : piece ∈ separated row) :
    piece = .mark ',' ∨ ∃ pieces ∈ row, piece ∈ pieces := by
  fun_induction separated row with
  | case1 => cases h
  | case2 pieces => exact .inr ⟨pieces, List.mem_singleton_self pieces, h⟩
  | case3 pieces row hne ih =>
    rcases List.mem_append.1 h with h | h
    · exact .inr ⟨pieces, List.mem_cons_self, h⟩
    · rcases List.mem_cons.1 h with h | h
      · exact .inl h
      · refine (ih h).imp_right fun hlater => ?_
        obtain ⟨later, hlater, hpiece⟩ := hlater
        exact ⟨later, List.mem_cons_of_mem pieces hlater, hpiece⟩

namespace Term

/-- A piece of the steps is a semicolon or belongs to one of the terms. -/
theorem of_mem_stepPieces {terms : List Term} {piece : Piece} (h : piece ∈ stepPieces terms) :
    piece = .mark ';' ∨ ∃ term ∈ terms, piece ∈ term.pieces := by
  induction terms with
  | nil => cases h
  | cons term terms ih =>
    rcases List.mem_append.1 h with h | h
    · exact .inr ⟨term, List.mem_cons_self, h⟩
    · rcases List.mem_cons.1 h with h | h
      · exact .inl h
      · refine (ih h).imp_right fun hlater => ?_
        obtain ⟨later, hlater, hpiece⟩ := hlater
        exact ⟨later, List.mem_cons_of_mem term hlater, hpiece⟩

/-- The pieces in a row are those of one of the terms. -/
theorem of_mem_rowPieces {terms : List Term} {pieces : List Piece} (h : pieces ∈ rowPieces terms) :
    ∃ term ∈ terms, pieces = term.pieces := by
  induction terms with
  | nil => cases h
  | cons term terms ih =>
    rcases List.mem_cons.1 h with h | h
    · exact ⟨term, List.mem_cons_self, h⟩
    · obtain ⟨later, hlater, hpieces⟩ := ih h
      exact ⟨later, List.mem_cons_of_mem term hlater, hpieces⟩

/-- The names of well-formed formals are no words of another meaning. -/
theorem null_not_mem_parameters {formals : List Token} (h : formals.all Token.isName = true) :
    Piece.null ∉ separated ((parameterNames formals).map fun name => [.word name.toList]) := by
  intro hmem
  rcases of_mem_separated hmem with heq | ⟨pieces, hpieces, hmem⟩
  · cases heq
  · obtain ⟨name, hname, rfl⟩ := List.mem_map.1 hpieces
    obtain ⟨formal, hformal, rfl⟩ := List.mem_map.1 hname
    have hlegal := Name.isLegal_ofIdentifier
      (Token.isName_iff.1 (List.all_eq_true.1 h formal hformal)).2.2
    exact hlegal.ne_null (List.mem_singleton.1 hmem)

/-- A well-formed atom is never compiled to the word for nothing. -/
theorem null_not_mem_ofToken {token : Token} (h : token.isWellFormed = true) :
    Piece.null ∉ (ofToken token).pieces := by
  rcases Token.isWellFormed_cases h with ⟨hkind, -, htext⟩ | ⟨constant, hkind, hconstant, hrange⟩
  · rw [ofToken_identifier hkind]
    exact fun hmem => (Name.isLegal_ofIdentifier htext).ne_null (List.mem_singleton.1 hmem)
  · rw [ofToken_literal (hkind ▸ constant.kind_ne_identifier) hconstant]
    cases constant with
    | number n =>
      have hn : 0 ≤ n.toInt := by simpa [Constant.isWritable] using hrange
      exact fun hmem => toList_numberText_ne hn "null" (by decide)
        (Piece.word.inj (List.mem_singleton.1 hmem)).symm
    | boolean b => cases b <;> decide
    | character c => simp [ofConstant, pieces, Piece.null]
    | string s => simp [ofConstant, pieces, Piece.null]

mutual

/-- The word for nothing is not in the term of a well-formed expression. -/
theorem null_not_mem_pieces : ∀ (expression : Expression), expression.isWellFormed = true →
    ∀ {term : Term}, ofExpression expression = .ok term → Piece.null ∉ term.pieces
  | .literal _, hwell, _, h => by
    cases h
    exact null_not_mem_ofToken hwell
  | .quoted _, _, _, h => by cases h
  | .conditional predicate consequent alternative, hwell, _, h => by
    simp only [Expression.isWellFormed, Bool.and_eq_true] at hwell
    obtain ⟨test, whenTrue, whenFalse, htest, htrue, hfalse, rfl⟩ := ofExpression_conditional.1 h
    simp [pieces, Piece.null_ne_mark, null_not_mem_pieces predicate hwell.1.1 htest,
      null_not_mem_pieces consequent hwell.1.2 htrue,
      null_not_mem_pieces alternative hwell.2 hfalse]
  | .lambda formals body, hwell, _, h => by
    simp only [Expression.isWellFormed, Bool.and_eq_true] at hwell
    obtain ⟨steps, result, hbody, rfl⟩ := ofExpression_lambda.1 h
    have hterms := null_not_mem_row body hwell.2 hbody
    have hsteps : Piece.null ∉ stepPieces steps := by
      intro hmem
      rcases of_mem_stepPieces hmem with heq | ⟨term, hterm, hmem⟩
      · cases heq
      · exact hterms term (List.mem_append_left _ hterm) hmem
    have hresult : Piece.null ∉ result.pieces := hterms result (by simp)
    have hfunction : Piece.null ≠ .word "function".toList := by decide
    have hreturn : Piece.null ≠ .word "return".toList := by decide
    simp only [pieces, List.mem_cons, List.mem_append, Piece.null_ne_mark, hfunction, hreturn,
      null_not_mem_parameters hwell.1.1, hsteps, hresult, List.not_mem_nil, or_self,
      not_false_eq_true]
  | .application head arguments, hwell, _, h => by
    simp only [Expression.isWellFormed, Bool.and_eq_true] at hwell
    obtain ⟨headTerm, terms, hhead, harguments, rfl⟩ := ofExpression_application.1 h
    have hrow : Piece.null ∉ separated (rowPieces terms) := by
      intro hmem
      rcases of_mem_separated hmem with heq | ⟨_, hpieces, hmem⟩
      · cases heq
      · obtain ⟨term, hterm, rfl⟩ := of_mem_rowPieces hpieces
        exact null_not_mem_row arguments hwell.2 harguments term hterm hmem
    simp [pieces, Piece.null_ne_mark, null_not_mem_pieces head hwell.1 hhead, hrow]

/-- Nor is it in those of a row. -/
theorem null_not_mem_row : ∀ (row : List Expression), Expression.areWellFormed row = true →
    ∀ {terms : List Term}, ofExpressions row = .ok terms →
      ∀ term ∈ terms, Piece.null ∉ term.pieces
  | [], _, _, h => by
    cases h
    nofun
  | expression :: row, hwell, _, h => by
    simp only [Expression.areWellFormed, Bool.and_eq_true] at hwell
    obtain ⟨term, rest, hterm, hrest, rfl⟩ := ofExpressions_cons.1 h
    exact List.forall_mem_cons.2
      ⟨null_not_mem_pieces expression hwell.1 hterm, null_not_mem_row row hwell.2 hrest⟩

end

end Term

namespace Statement

variable {declared after : List String} {form : Form} {program : Program} {statement : Statement}

/-- The word for nothing is not in the statement of a well-formed form. -/
theorem null_not_mem_pieces_of_ofForm (hwell : form.isWellFormed = true)
    (h : ofForm declared form = .ok (statement, after)) : Piece.null ∉ statement.pieces := by
  cases form with
  | definition name value =>
    simp only [Form.isWellFormed, Bool.and_eq_true] at hwell
    obtain ⟨term, hterm, hstatement⟩ := eq_of_ofForm_definition h
    have hname := (Name.isLegal_ofIdentifier (Token.isName_iff.1 hwell.1).2.2).ne_null
    have hvalue := Term.null_not_mem_pieces value hwell.2 hterm
    have hlet : Piece.null ≠ .word "let".toList := by decide
    rcases hstatement with rfl | rfl <;>
      simp only [pieces, List.mem_cons, List.mem_append, Piece.null_ne_mark, hlet, hname, hvalue,
        List.not_mem_nil, or_self, not_false_eq_true]
  | expression whole =>
    obtain ⟨term, hterm, heq⟩ := ofForm_expression.1 h
    cases heq
    simp [pieces, Piece.null_ne_mark, Term.null_not_mem_pieces whole hwell hterm]

/-- Nor is it in those of a well-formed program. -/
theorem null_not_mem_pieces_of_ofProgram {statements : List Statement}
    (hwell : program.isWellFormed = true) (h : (ofProgram declared program).1 = .ok statements) :
    ∀ statement ∈ statements, Piece.null ∉ statement.pieces := by
  induction program generalizing declared statements with
  | nil =>
    cases h
    nofun
  | cons form forms ih =>
    obtain ⟨statement, after, rest, hform, hrest, rfl⟩ := ofProgram_cons.1 h
    simp only [Program.isWellFormed, List.all_cons, Bool.and_eq_true] at hwell
    exact List.forall_mem_cons.2
      ⟨null_not_mem_pieces_of_ofForm hwell.1 hform, ih hwell.2 hrest⟩

end Statement

namespace Compiler

variable {compiler : Compiler} {program : Program}

/-- Behind the opening, the script of a well-formed program is free of the word for nothing. -/
theorem null_not_mem_script (hwell : program.isWellFormed = true) {text : String}
    (h : (compiler.compile program).1 = .ok text) :
    ∃ script, text = lines compiler.opening ++ script ∧ Piece.null ∉ cut script.toList := by
  obtain ⟨statements, hstatements, rfl⟩ := compile_eq_ok_iff.1 h
  obtain ⟨_, hlegal, hall⟩ := Statement.ofProgram_legal hwell
    (Statement.isUnquoted_of_ofProgram hstatements) compiler.openingNames
  rw [hstatements] at hlegal
  cases hlegal
  refine ⟨_, rfl, ?_⟩
  rw [cut_lines statements hall, List.mem_flatMap]
  rintro ⟨statement, hmem, hnull⟩
  exact Statement.null_not_mem_pieces_of_ofProgram hwell hstatements statement hmem hnull

end Compiler

end Script

end MiniScheme
