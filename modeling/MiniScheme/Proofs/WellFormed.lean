import MiniScheme.Proofs.Acceptance
import MiniScheme.Proofs.Identifiers

/-!
# Well-formed programs

The types of programs admit more than a source can hold.  In a well-formed program a leaf is an
identifier, or a literal with a constant of its kind that is no negative number; formals and
defined names are identifiers, and no function lacks a body.

Main results:

- Theorem `Lexeme.isWellFormed_of_item`: what the scanner makes of a lexeme is well formed.
- Theorem `readSource_isWellFormed`: every form that is read from a source is well formed, also
  beside errors.
-/

namespace MiniScheme

/-! ## Definitions -/

/-- The kind of the literals that have a constant. -/
def Constant.kind : Constant → TokenKind
  | number _ => .number
  | boolean _ => .boolean
  | character _ => .character
  | string _ => .string

/-- Whether a constant can be written: there are no literals for negative numbers. -/
def Constant.isWritable : Constant → Bool
  | number n => 0 ≤ n.toInt
  | _ => true

/-- Whether a token is an identifier, or a literal with a constant of its kind. -/
def Token.isWellFormed (token : Token) : Bool :=
  match token.constant with
  | none => token.kind = .identifier && isIdentifierText token.text.toList
  | some constant => token.kind = constant.kind && constant.isWritable

/-- Whether a token is an identifier. -/
def Token.isName (token : Token) : Bool :=
  token.kind = .identifier && token.isWellFormed

mutual

/-- Whether every atom in a datum is well formed. -/
def Datum.isWellFormed : Datum → Bool
  | .atom token => token.isWellFormed
  | .list items => Datum.areWellFormed items

/-- Whether every atom in a row of data is well formed. -/
def Datum.areWellFormed : List Datum → Bool
  | [] => true
  | datum :: row => datum.isWellFormed && Datum.areWellFormed row

end

mutual

/-- Whether every leaf in an expression is well formed, and every function has a body. -/
def Expression.isWellFormed : Expression → Bool
  | .literal token => token.isWellFormed
  | .quoted datum => datum.isWellFormed
  | .conditional predicate consequent alternative =>
    predicate.isWellFormed && consequent.isWellFormed && alternative.isWellFormed
  | .lambda formals body =>
    formals.all Token.isName && !body.isEmpty && Expression.areWellFormed body
  | .application head arguments => head.isWellFormed && Expression.areWellFormed arguments

/-- Whether so are the expressions of a row. -/
def Expression.areWellFormed : List Expression → Bool
  | [] => true
  | expression :: row => expression.isWellFormed && Expression.areWellFormed row

end

/-- Whether a form is well formed. -/
def Form.isWellFormed : Form → Bool
  | definition name value => name.isName && value.isWellFormed
  | expression whole => whole.isWellFormed

/-- Whether every form of a program is well formed. -/
def Program.isWellFormed (program : Program) : Bool :=
  program.all Form.isWellFormed

/-- No literal is an identifier. -/
theorem Constant.kind_ne_identifier (constant : Constant) : constant.kind ≠ .identifier := by
  cases constant <;> nofun

/-- A well-formed token is an identifier without a constant, or a literal with one that can be
written. -/
theorem Token.isWellFormed_cases {token : Token} (h : token.isWellFormed = true) :
    (token.kind = .identifier ∧ token.constant = none ∧
        isIdentifierText token.text.toList = true) ∨
      ∃ constant, token.kind = constant.kind ∧ token.constant = some constant ∧
        constant.isWritable = true := by
  unfold isWellFormed at h
  split at h
  next hconstant =>
    rw [Bool.and_eq_true, decide_eq_true_eq] at h
    exact .inl ⟨h.1, hconstant, h.2⟩
  next constant hconstant =>
    rw [Bool.and_eq_true, decide_eq_true_eq] at h
    exact .inr ⟨constant, h.1, hconstant, h.2⟩

/-- Every well-formed token is an expression and a datum by itself. -/
theorem Token.isAtom_of_isWellFormed {token : Token} (h : token.isWellFormed = true) :
    token.kind.isAtom = true := by
  rcases isWellFormed_cases h with ⟨hkind, -⟩ | ⟨constant, hkind, -⟩
  · rw [hkind]
    rfl
  · rw [hkind]
    cases constant <;> rfl

/-- A name is an identifier without a constant. -/
theorem Token.isName_iff {token : Token} :
    token.isName = true ↔ token.kind = .identifier ∧ token.constant = none ∧
      isIdentifierText token.text.toList = true := by
  rw [isName, Bool.and_eq_true, decide_eq_true_eq]
  constructor
  · rintro ⟨hkind, h⟩
    rcases isWellFormed_cases h with hname | ⟨constant, hother, -⟩
    · exact hname
    · exact absurd (hother.symm.trans hkind) constant.kind_ne_identifier
  · rintro ⟨hkind, hconstant, htext⟩
    exact ⟨hkind, by simp [isWellFormed, hkind, hconstant, htext]⟩

/-! ## Tokens that are read -/

/-- The constant of a literal that is read goes with its kind. -/
theorem Lexeme.isWellFormed_of_reading {c : Char} {text : List Char} {kind : TokenKind}
    {constant : Option Constant} (h : (read c text).reading = .token kind constant)
    (hatom : kind.isAtom = true) (position : Position) :
    Token.isWellFormed ⟨kind, String.ofList (read c text).text, constant, position⟩ = true := by
  by_cases hkind : kind = .identifier
  · subst hkind
    obtain ⟨hshape, rfl⟩ := isIdentifierText_of_reading h
    simpa [Token.isWellFormed] using hshape
  · revert h
    fun_cases read c text with
    | case4 =>
      fun_cases sharp text <;> simp <;> rintro rfl rfl <;>
        first | rfl | simp [TokenKind.isAtom] at hatom
    | case5 =>
      rcases doubleQuote_cases text with ⟨rest, -, h⟩ | h <;> simp [h]
      rintro rfl rfl
      rfl
    | case6 =>
      simp only [number]
      split
      next hrange =>
        intro h
        cases h
        simp [Token.isWellFormed, Constant.kind, Constant.isWritable,
          Int64.toInt_ofNat_of_lt hrange]
      next => simp
    | case7 =>
      simp only [word]
      split <;> simp
      · rintro rfl rfl
        simp [TokenKind.isAtom] at hatom
      · rintro rfl
        exact absurd rfl hkind
    | case8 =>
      simp only [dotted]
      split <;> simp
      rintro rfl
      exact absurd rfl hkind
    | _ =>
      intro h
      cases h <;> simp [TokenKind.isAtom] at hatom

/-- What the scanner makes of a lexeme is well formed, if it is an atom. -/
theorem Lexeme.isWellFormed_of_item {c : Char} {text : List Char} {position : Position}
    {token : Token} (h : (read c text).item position = .ok token)
    (hatom : token.kind.isAtom = true) : token.isWellFormed = true := by
  unfold item at h
  split at h
  next kind constant hreading =>
    cases h
    exact isWellFormed_of_reading hreading hatom position
  next => cases h

/-- Every item is what the scanner makes of a lexeme. -/
theorem Cursor.exists_read_of_mem_items {cursor : Cursor} {item : Item}
    (h : item ∈ cursor.items) :
    ∃ c text position, item = (Lexeme.read c text).item position := by
  fun_induction items cursor with
  | case1 => simp at h
  | case2 cursor hend ih =>
    rcases List.mem_cons.1 h with rfl | h
    · obtain ⟨c, text, hrest⟩ := List.exists_cons_of_ne_nil (mt cursor.isEnd_next.2 hend)
      exact ⟨c, text, cursor.pastGap.position, by rw [next_of_pastGap_cons hrest]⟩
    · exact ih h

/-! ## Trees -/

/-- Whether the atoms in a row of tokens are well formed. -/
def AtomsWellFormed (tokens : List Token) : Prop :=
  ∀ token ∈ tokens, token.kind.isAtom = true → token.isWellFormed = true

/-- The atoms of a row are well formed when the first token and those behind it are. -/
theorem atomsWellFormed_cons {token : Token} {tokens : List Token} :
    AtomsWellFormed (token :: tokens) ↔
      (token.kind.isAtom = true → token.isWellFormed = true) ∧ AtomsWellFormed tokens :=
  List.forall_mem_cons

/-- The atoms of two rows are well formed together when they are in each. -/
theorem atomsWellFormed_append {first second : List Token} :
    AtomsWellFormed (first ++ second) ↔ AtomsWellFormed first ∧ AtomsWellFormed second :=
  List.forall_mem_append

mutual

/-- The datum of a derivation is well formed if the atoms among its tokens are. -/
theorem DatumTree.isWellFormed : ∀ (tree : DatumTree), AtomsWellFormed tree.tokens →
    tree.datum.isWellFormed = true
  | .atom token, h => h token.1 List.mem_cons_self token.2
  | .list _ items _, h => by
    simp only [tokens, atomsWellFormed_cons, atomsWellFormed_append] at h
    exact rowIsWellFormed items h.2.1

/-- A row of data read from well-formed atoms is well formed. -/
theorem DatumTree.rowIsWellFormed : ∀ (trees : List DatumTree),
    AtomsWellFormed (DatumTree.rowTokens trees) →
    Datum.areWellFormed (DatumTree.rowData trees) = true
  | [], _ => rfl
  | tree :: trees, h => by
    rw [rowTokens, atomsWellFormed_append] at h
    rw [rowData, Datum.areWellFormed, tree.isWellFormed h.1, rowIsWellFormed trees h.2]
    rfl

end

/-- A row of identifiers is well formed if the atoms among its tokens are. -/
theorem Terminal.all_isName (names : List (Terminal .identifier))
    (h : AtomsWellFormed (tokens names)) : (tokens names).all Token.isName = true := by
  rw [List.all_eq_true]
  intro token htoken
  obtain ⟨name, -, rfl⟩ := List.mem_map.1 htoken
  have hatom : name.1.kind.isAtom = true := by rw [name.2]; rfl
  simp [Token.isName, name.2, h name.1 htoken hatom]

mutual

/-- The expression of a derivation is well formed if the atoms among its tokens are. -/
theorem ExpressionTree.isWellFormed : ∀ (tree : ExpressionTree), AtomsWellFormed tree.tokens →
    tree.expression.isWellFormed = true
  | .atom token, h => h token.1 List.mem_cons_self token.2
  | .marked _ datum, h => datum.isWellFormed (atomsWellFormed_cons.1 h).2
  | .quoted _ _ datum _, h => by
    simp only [tokens, atomsWellFormed_cons, atomsWellFormed_append] at h
    exact datum.isWellFormed h.2.2.1
  | .conditional _ _ predicate consequent alternative _, h => by
    simp only [tokens, atomsWellFormed_cons, atomsWellFormed_append] at h
    obtain ⟨-, -, hpredicate, hconsequent, halternative, -⟩ := h
    simp only [expression, Expression.isWellFormed, predicate.isWellFormed hpredicate,
      consequent.isWellFormed hconsequent, alternative.isWellFormed halternative, Bool.and_true]
  | .lambda _ _ _ formals _ first further _, h => by
    simp only [tokens, atomsWellFormed_cons, atomsWellFormed_append] at h
    obtain ⟨-, -, -, hformals, -, hfirst, hfurther, -⟩ := h
    simp [expression, Expression.isWellFormed, Expression.areWellFormed,
      Terminal.all_isName formals hformals, first.isWellFormed hfirst,
      rowIsWellFormed further hfurther]
  | .application _ head arguments _, h => by
    simp only [tokens, atomsWellFormed_cons, atomsWellFormed_append] at h
    simp only [expression, Expression.isWellFormed, head.isWellFormed h.2.1,
      rowIsWellFormed arguments h.2.2.1, Bool.and_true]

/-- A row of expressions read from well-formed atoms is well formed. -/
theorem ExpressionTree.rowIsWellFormed : ∀ (trees : List ExpressionTree),
    AtomsWellFormed (ExpressionTree.rowTokens trees) →
    Expression.areWellFormed (ExpressionTree.rowExpressions trees) = true
  | [], _ => rfl
  | tree :: trees, h => by
    rw [rowTokens, atomsWellFormed_append] at h
    rw [rowExpressions, Expression.areWellFormed, tree.isWellFormed h.1,
      rowIsWellFormed trees h.2]
    rfl

end

/-- The form of a derivation is well formed if the atoms among its tokens are. -/
theorem FormTree.isWellFormed (tree : FormTree) (h : AtomsWellFormed tree.tokens) :
    tree.form.isWellFormed = true := by
  cases tree with
  | definition _ _ name value _ =>
    simp only [tokens, atomsWellFormed_cons, atomsWellFormed_append] at h
    obtain ⟨-, -, hname, hvalue, -⟩ := h
    have hatom : name.1.kind.isAtom = true := by rw [name.2]; rfl
    simp [form, Form.isWellFormed, Token.isName, name.2, hname hatom, value.isWellFormed hvalue]
  | expression tree => exact tree.isWellFormed h

/-! ## Forms that are read -/

/-- The atoms among the items of a source are well formed. -/
theorem Cursor.atomsWellFormed (cursor : Cursor) {tokens : List Token}
    (h : ∀ token ∈ tokens, .ok token ∈ cursor.items) : AtomsWellFormed tokens := by
  intro token htoken hatom
  obtain ⟨c, text, position, hitem⟩ := exists_read_of_mem_items (h token htoken)
  exact Lexeme.isWellFormed_of_item hitem.symm hatom

/-- The forms that stretches make are those of their derivations. -/
theorem Stretch.exists_tree_of_mem_forms {stretches : List Stretch} {form : Form}
    (h : form ∈ Outcome.forms (stretches.map outcome)) :
    ∃ tree : FormTree, Stretch.form tree ∈ stretches ∧ form = tree.form := by
  induction stretches with
  | nil => simp [Outcome.forms] at h
  | cons stretch stretches ih =>
    have hlater : form ∈ Outcome.forms (stretches.map outcome) →
        ∃ tree : FormTree, Stretch.form tree ∈ stretch :: stretches ∧ form = tree.form := by
      intro hlater
      obtain ⟨tree, htree, rfl⟩ := ih hlater
      exact ⟨tree, List.mem_cons_of_mem _ htree, rfl⟩
    cases stretch with
    | discarded items error => exact hlater h
    | form tree =>
      rw [List.map_cons, outcome, Outcome.forms_ok, List.mem_cons] at h
      rcases h with rfl | h
      · exact ⟨tree, List.mem_cons_self, rfl⟩
      · exact hlater h

/-- Every form that is read from a source is well formed, also beside errors. -/
theorem readSource_isWellFormed (source : String) :
    Program.isWellFormed (readSource source).1 = true := by
  obtain ⟨stretches, -, hitems, houtcomes⟩ := (Cursor.ofSource source).exists_stretches
  rw [readSource_eq_outcomes, ← houtcomes, Program.isWellFormed, List.all_eq_true]
  intro form hform
  obtain ⟨tree, htree, rfl⟩ := Stretch.exists_tree_of_mem_forms hform
  apply tree.isWellFormed
  apply (Cursor.ofSource source).atomsWellFormed
  intro token htoken
  rw [← hitems, List.mem_flatMap]
  exact ⟨.form tree, htree, List.mem_map_of_mem htoken⟩

/-- Every program that a source is accepted as is well formed. -/
theorem parse_isWellFormed {source : String} {program : Program}
    (h : parse source = .ok program) : program.isWellFormed = true := by
  have hread := readSource_isWellFormed source
  rwa [(parse_eq_ok_iff source program).1 h] at hread

end MiniScheme
