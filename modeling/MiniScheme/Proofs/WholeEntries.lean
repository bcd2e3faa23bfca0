import MiniScheme.Proofs.Acceptance
import MiniScheme.Proofs.EntryBalance

/-!
# A whole program is never kept back

The console goes by parentheses and quotes alone, and what it runs is a program.  The tokens of
every derivation open as many groups as they close, and a program has no lexical errors, so that
a text which is a program leaves nothing open, in whatever lines it is entered.

Main results:

- Theorem `FormTree.tokenBalance_tokens`: a form closes what it opens.
- Theorem `EntryBuffer.push_of_parse_ok`: the line that makes the entry a program finishes it.
-/

namespace MiniScheme

/-! ## Derivations close what they open -/

/-- The balances of two rows of items add up. -/
theorem groupBalance_append (first second : List Item) :
    groupBalance (first ++ second) = groupBalance first + groupBalance second := by
  unfold groupBalance
  rw [List.countP_append, List.countP_append]
  omega

/-- What tokens add to the balance. -/
def tokenBalance (tokens : List Token) : Int :=
  groupBalance (tokens.map .ok)

/-- No tokens are in balance. -/
@[simp]
theorem tokenBalance_nil : tokenBalance [] = 0 :=
  rfl

/-- A token adds its weight to the balance. -/
@[simp]
theorem tokenBalance_cons (token : Token) (tokens : List Token) :
    tokenBalance (token :: tokens) = token.kind.weight + tokenBalance tokens :=
  groupBalance_cons _ _

/-- The balances of two rows of tokens add up. -/
@[simp]
theorem tokenBalance_append (first second : List Token) :
    tokenBalance (first ++ second) = tokenBalance first + tokenBalance second := by
  rw [tokenBalance, List.map_append, groupBalance_append]
  rfl

/-- An atom neither opens nor closes a group. -/
theorem AtomToken.weight_eq (token : AtomToken) : token.1.kind.weight = 0 := by
  obtain ⟨token, hatom⟩ := token
  cases hkind : token.kind <;> simp_all [TokenKind.isAtom]

/-- Terminals that open and close nothing are in balance. -/
theorem Terminal.tokenBalance_tokens {kind : TokenKind} (hkind : kind.weight = 0)
    (terminals : List (Terminal kind)) : tokenBalance (tokens terminals) = 0 := by
  induction terminals with
  | nil => rfl
  | cons terminal terminals ih =>
    rw [tokens, List.map_cons, tokenBalance_cons, terminal.2, hkind, Int.zero_add]
    exact ih

namespace DatumTree

mutual

/-- A datum closes what it opens. -/
theorem tokenBalance_tokens : ∀ tree : DatumTree, tokenBalance tree.tokens = 0
  | .atom token => by simpa [tokens] using token.weight_eq
  | .list opening items closing => by
    have hitems := tokenBalance_rowTokens items
    simp [tokens, opening.2, closing.2, hitems]

/-- Data close what they open. -/
theorem tokenBalance_rowTokens : ∀ trees : List DatumTree, tokenBalance (rowTokens trees) = 0
  | [] => rfl
  | tree :: trees => by
    rw [rowTokens, tokenBalance_append, tokenBalance_tokens tree, tokenBalance_rowTokens trees,
      Int.add_zero]

end

end DatumTree

namespace ExpressionTree

mutual

/-- An expression closes what it opens. -/
theorem tokenBalance_tokens : ∀ tree : ExpressionTree, tokenBalance tree.tokens = 0
  | .atom token => by simpa [tokens] using token.weight_eq
  | .marked mark datum => by simp [tokens, mark.2, datum.tokenBalance_tokens]
  | .quoted opening word datum closing => by
    simp [tokens, opening.2, word.2, closing.2, datum.tokenBalance_tokens]
  | .conditional opening word predicate consequent alternative closing => by
    have hpredicate := tokenBalance_tokens predicate
    have hconsequent := tokenBalance_tokens consequent
    have halternative := tokenBalance_tokens alternative
    simp [tokens, opening.2, word.2, closing.2, hpredicate, hconsequent, halternative]
  | .lambda opening word formalsOpening formals formalsClosing first further closing => by
    have hformals := Terminal.tokenBalance_tokens rfl formals
    have hfirst := tokenBalance_tokens first
    have hfurther := tokenBalance_rowTokens further
    simp [tokens, opening.2, word.2, formalsOpening.2, formalsClosing.2, closing.2, hformals,
      hfirst, hfurther]
  | .application opening head arguments closing => by
    have hhead := tokenBalance_tokens head
    have harguments := tokenBalance_rowTokens arguments
    simp [tokens, opening.2, closing.2, hhead, harguments]

/-- Expressions close what they open. -/
theorem tokenBalance_rowTokens :
    ∀ trees : List ExpressionTree, tokenBalance (rowTokens trees) = 0
  | [] => rfl
  | tree :: trees => by
    rw [rowTokens, tokenBalance_append, tokenBalance_tokens tree, tokenBalance_rowTokens trees,
      Int.add_zero]

end

end ExpressionTree

namespace FormTree

/-- A form closes what it opens. -/
theorem tokenBalance_tokens (tree : FormTree) : tokenBalance tree.tokens = 0 := by
  cases tree with
  | definition opening word name value closing =>
    simp [tokens, opening.2, word.2, name.2, closing.2, value.tokenBalance_tokens]
  | expression tree => exact tree.tokenBalance_tokens

/-- Forms close what they open. -/
theorem tokenBalance_flatMap (trees : List FormTree) :
    tokenBalance (trees.flatMap tokens) = 0 := by
  induction trees with
  | nil => rfl
  | cons tree trees ih =>
    rw [List.flatMap_cons, tokenBalance_append, tree.tokenBalance_tokens, ih, Int.add_zero]

end FormTree

/-- Tokens end in no string that nothing closes. -/
theorem endsInString_tokens (tokens : List Token) : endsInString (tokens.map .ok) = false := by
  rw [endsInString, List.getLast?_map]
  cases tokens.getLast? <;> rfl

/-! ## Entries that are programs -/

/-- A source that is a program is derived. -/
theorem exists_derives_of_parse_ok {source : String} {program : Program}
    (h : parse source = .ok program) : ∃ trees, Derives source trees := by
  rw [parse_eq_ok_iff] at h
  obtain ⟨stretches, -, hitems, houtcomes⟩ := (Cursor.ofSource source).exists_stretches
  rw [readSource_eq_outcomes, ← houtcomes, Prod.mk.injEq] at h
  obtain ⟨trees, htrees, -⟩ := Stretch.exists_trees h.2
  exact ⟨trees, hitems.symm.trans htrees⟩

namespace EntryBuffer

/-- A program leaves nothing open. -/
theorem not_hasOpenItems_of_parse_ok {buffer : EntryBuffer} {program : Program}
    (h : parse buffer.text = .ok program) : ¬buffer.HasOpenItems := by
  obtain ⟨trees, hderives⟩ := exists_derives_of_parse_ok h
  have hbalance : groupBalance buffer.items = 0 := by
    rw [items, hderives]
    exact FormTree.tokenBalance_flatMap trees
  have hstring : endsInString buffer.items = false := by
    rw [items, hderives]
    exact endsInString_tokens _
  simp [HasOpenItems, hbalance, hstring]

/-- A buffer with lines goes on exactly where its items leave something open. -/
theorem Consistent.isOpen_iff {buffer : EntryBuffer} (h : buffer.Consistent)
    (hne : buffer.lines ≠ []) : buffer.balance.isOpen = true ↔ buffer.HasOpenItems := by
  rw [h.balance_eq_items hne]
  simp [Balance.isOpen, HasOpenItems]

/-- The line that makes the entry a program finishes it, whatever has been pushed or cleared
before: the text of all its lines is returned, unless it is blank and dropped, and the buffer is
empty and has nothing open. -/
theorem push_of_parse_ok (operations : List Operation) (line : Line) {program : Program}
    (h : parse ((run operations).add line.text).text = .ok program) :
    let text := ((run operations).add line.text).text
    let after := ((run operations).push line.text).2
    ((run operations).push line.text).1 =
        (if Blank.isBlankText text.toList then none else some text) ∧
      after.isEmpty = true ∧ after.depth = 0 ∧ after.balance.inString = false := by
  have hconsistent := (consistent_run operations).add line
  have hopen : ((run operations).add line.text).balance.isOpen = false := by
    rw [← Bool.not_eq_true, hconsistent.isOpen_iff (by simp [add])]
    exact not_hasOpenItems_of_parse_ok h
  have hafter : ((run operations).push line.text).2 = empty := by
    rw [push_eq, hopen]
    rfl
  refine ⟨?_, ?_⟩
  · simp only [push, hopen, Bool.false_eq_true, if_false]
    split <;> rfl
  · rw [hafter]
    exact ⟨rfl, rfl, rfl⟩

/-- The first line here leaves a string open within a group, and it has parentheses in a character
literal, in the string and after a backslash; the second one closes both and ends with a
comment. -/
theorem push_of_parse_ok_string :
    let first : Line := ⟨"(f #\\( \"a\\\"(", by decide⟩
    let second : Line := ⟨"b)\" '(x)) ; (", by decide⟩
    let whole := "(f #\\( \"a\\\"(\nb)\" '(x)) ; ("
    (run [.push first]).lines = [first.text] ∧ (parse whole).isOk = true ∧
      ((run [.push first]).push second.text).1 = some whole ∧
      ((run [.push first]).push second.text).2.isEmpty = true := by
  intro first second whole
  have htext : ((run [.push first]).add second.text).text = whole := by decide +kernel
  have hok : (parse whole).isOk = true := by decide +kernel
  have hblank : Blank.isBlankText whole.toList = false := by decide +kernel
  obtain ⟨program, hparse⟩ : ∃ program, parse whole = .ok program := by
    cases hresult : parse whole with
    | error errors =>
      rw [hresult] at hok
      cases hok
    | ok program => exact ⟨program, rfl⟩
  have hpush := push_of_parse_ok [.push first] second (htext ▸ hparse)
  simp only [htext, hblank] at hpush
  exact ⟨by decide +kernel, hok, hpush.1, hpush.2.1⟩

end EntryBuffer

end MiniScheme
