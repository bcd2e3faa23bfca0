import MiniScheme.Proofs.Acceptance
import MiniScheme.Proofs.Layout
import MiniScheme.Proofs.QuotedData
import MiniScheme.Session

/-!
# Printed data are read back

The text of a value is a datum if the value is built from numbers that are not negative, booleans,
symbols that are named by identifiers, and lists.  A source that quotes this text is read as one
expression without errors, and running it gives the value back: the same up to cells where its
symbols are the entries of the environment, and the same up to symbols elsewhere.

Main results:

- Theorem `Value.items_text`: the text of such a value has the tokens of a datum that stands for
  it, whatever follows.
- Theorem `run_quoted_text`: running the quoted text gives the value back.
-/

namespace MiniScheme

open CharClass

/-! ## Values that are written as data -/

mutual

/-- A value is written as a datum: a number that is not negative, a boolean, a symbol that is named
by an identifier, or a list of such values. -/
def Value.IsData : Value → Prop
  | .number n => 0 ≤ n.toInt
  | .boolean _ => True
  | .symbol symbol => IsIdentifier symbol.name
  | .list cells => cells.IsData
  | .nil | .character _ | .string _ | .function _ => False

/-- So are the values of a list. -/
def Cells.IsData : Cells → Prop
  | .empty => True
  | .cell _ head tail => head.IsData ∧ tail.IsData

end

/-! ## Reading what is printed -/

/-- A character that is a token by itself is read so whatever follows. -/
theorem Cursor.items_of_single {c : Char} {kind : TokenKind} (hcomment : c ≠ ';')
    (hspace : isSpace c = false) (hread : ∀ rest, Lexeme.read c rest = ⟨[c], .token kind none⟩)
    (rest : List Char) (position : Position) :
    items ⟨c :: rest, position⟩ =
      .ok ⟨kind, String.ofList [c], none, position⟩ :: items ⟨rest, position.advance [c]⟩ := by
  have hsingle : Lexeme.read c ([] ++ rest) = ⟨[c], .token kind none⟩ := hread rest
  exact items_of_read hcomment hspace hsingle position

/-- An opening parenthesis is the first item, wherever it is. -/
theorem Cursor.items_open (rest : List Char) (position : Position) :
    items ⟨'(' :: rest, position⟩ =
      .ok ⟨.openParen, "(", none, position⟩ :: items ⟨rest, position.advance ['(']⟩ :=
  items_of_single (by decide) (by decide) (fun _ => rfl) rest position

/-- A closing parenthesis is the first item, wherever it is. -/
theorem Cursor.items_close (rest : List Char) (position : Position) :
    items ⟨')' :: rest, position⟩ =
      .ok ⟨.closeParen, ")", none, position⟩ :: items ⟨rest, position.advance [')']⟩ :=
  items_of_single (by decide) (by decide) (fun _ => rfl) rest position

/-- A quote mark is the first item, wherever it is. -/
theorem Cursor.items_mark (rest : List Char) (position : Position) :
    items ⟨'\'' :: rest, position⟩ =
      .ok ⟨.quoteMark, "'", none, position⟩ :: items ⟨rest, position.advance ['\'']⟩ :=
  items_of_single (by decide) (by decide) (fun _ => rfl) rest position

/-- A space is no item. -/
theorem Cursor.items_space (rest : List Char) (position : Position) :
    items ⟨' ' :: rest, position⟩ = items ⟨rest, position.advance [' ']⟩ :=
  items_gap (.space (by decide) .nil) rest position

/-- An atom is read as a datum that stands for what its token stands for. -/
theorem Reads.exists_datumTree {means : String → Symbol → Prop} {piece : List Char}
    {kind : TokenKind} {constant : Option Constant} {value : Value}
    (h : Reads piece kind constant) (hkind : kind.isAtom = true)
    (hvalue : ∀ token : Token, token.kind = kind → token.constant = constant →
      token.text = String.ofList piece → (Datum.atom token).StandsFor means value)
    {rest : List Char} (hrest : Stops isSubsequent rest) (position : Position) :
    ∃ (tree : DatumTree) (after : Position),
      Cursor.items ⟨piece ++ rest, position⟩ =
        tree.tokens.map .ok ++ Cursor.items ⟨rest, after⟩ ∧
      tree.datum.StandsFor means value :=
  ⟨.atom ⟨⟨kind, String.ofList piece, constant, position⟩, hkind⟩, _,
    h.items_append hrest position, hvalue _ rfl rfl rfl⟩

/-- The text of a number that is not negative is read as that number. -/
theorem reads_numberText {n : Int64} (h : 0 ≤ n.toInt) :
    Reads (Number.text n).toList .number (some (.number n)) := by
  have hrange : decimalValue (Nat.toDigits 10 n.toInt.toNat) < 0x8000000000000000 := by
    have hlt := n.toInt_lt
    rw [decimalValue_toDigits]
    omega
  have hback : Int64.ofNat n.toInt.toNat = n :=
    Int64.ofNat_toNatClampNeg n (Int64.le_iff_toInt_le.2 h)
  have hreads := reads_number Nat.toDigits_ne_nil (fun _ => isDigit_of_mem_toDigits) hrange
  rwa [decimalValue_toDigits, hback, ← toList_numberText h] at hreads

mutual

/-- The text of a value that is written as a datum has the tokens of a datum that stands for the
value, if nothing that follows goes on with it. -/
theorem Value.items_text : ∀ (value : Value), value.IsData → ∀ {rest : List Char},
    Stops isSubsequent rest → ∀ position : Position, ∃ (tree : DatumTree) (after : Position),
      Cursor.items ⟨value.text.toList ++ rest, position⟩ =
        tree.tokens.map .ok ++ Cursor.items ⟨rest, after⟩ ∧
      tree.datum.StandsFor (fun name symbol => symbol.name = name) value
  | .number n, h, rest, hrest, position => by
    apply (reads_numberText h).exists_datumTree rfl _ hrest position
    rintro ⟨_, text, _, place⟩ rfl rfl -
    exact .literal (by simp)
  | .boolean b, _, rest, hrest, position => by
    apply (reads_boolean b).exists_datumTree rfl _ hrest position
    rintro ⟨_, text, _, place⟩ rfl rfl -
    exact .literal (by simp)
  | .symbol symbol, h, rest, hrest, position => by
    apply (reads_identifier (isIdentifier_iff.1 h)).exists_datumTree rfl _ hrest position
    intro token hkind _ htext
    exact .identifier hkind (by rw [htext, String.ofList_toList])
  | .list cells, h, rest, hrest, position => by
    have hclose : Stops isSubsequent (')' :: rest) := stops_cons.2 (by decide)
    obtain ⟨trees, after, hitems, hcells⟩ :=
      cells.items_texts h hclose (position.advance ['('])
    refine ⟨.list ⟨⟨.openParen, "(", none, position⟩, rfl⟩ trees
      ⟨⟨.closeParen, ")", none, after⟩, rfl⟩, after.advance [')'], ?_, .list hcells⟩
    have htext : (Value.list cells).text.toList ++ rest =
        '(' :: ((" ".intercalate cells.texts).toList ++ ')' :: rest) := by
      simp [Value.text]
    rw [htext, Cursor.items_open, hitems, Cursor.items_close]
    simp [DatumTree.tokens]

/-- The text of a list of data, with spaces in it, is read as data that stand for the list. -/
theorem Cells.items_texts : ∀ (cells : Cells), cells.IsData → ∀ {rest : List Char},
    Stops isSubsequent rest → ∀ position : Position,
      ∃ (trees : List DatumTree) (after : Position),
        Cursor.items ⟨(" ".intercalate cells.texts).toList ++ rest, position⟩ =
          (DatumTree.rowTokens trees).map .ok ++ Cursor.items ⟨rest, after⟩ ∧
        Datum.RowStandsFor (fun name symbol => symbol.name = name) (DatumTree.rowData trees) cells
  | .empty, _, rest, _, position => ⟨[], position, rfl, .empty⟩
  | .cell _ head .empty, h, rest, hrest, position => by
    obtain ⟨tree, after, hitems, hhead⟩ := head.items_text h.1 hrest position
    refine ⟨[tree], after, ?_, .cell hhead .empty⟩
    simpa [Cells.texts, DatumTree.rowTokens] using hitems
  | .cell _ head (.cell identity second tail), h, rest, hrest, position => by
    have hspace : Stops isSubsequent
        (' ' :: ((" ".intercalate (Cells.cell identity second tail).texts).toList ++ rest)) :=
      stops_cons.2 (by decide)
    obtain ⟨tree, middle, hitems, hhead⟩ := head.items_text h.1 hspace position
    obtain ⟨trees, after, hitems', htail⟩ :=
      (Cells.cell identity second tail).items_texts h.2 hrest (middle.advance [' '])
    refine ⟨tree :: trees, after, ?_, .cell hhead htail⟩
    have htext : (" ".intercalate (head.text :: (Cells.cell identity second tail).texts)).toList ++
        rest = head.text.toList ++
          ' ' :: ((" ".intercalate (Cells.cell identity second tail).texts).toList ++ rest) := by
      simp [Cells.texts, String.intercalate_cons_cons]
    rw [Cells.texts, htext, hitems, Cursor.items_space, hitems']
    simp [DatumTree.rowTokens]

end

/-- The quoted text of a value that is written as a datum is read as one quotation, without
errors. -/
theorem readSource_quoted_text {value : Value} (h : value.IsData) :
    ∃ datum : Datum, readSource ("'" ++ value.text) = ([.expression (.quoted datum)], []) ∧
      datum.StandsFor (fun name symbol => symbol.name = name) value := by
  obtain ⟨tree, after, hitems, hvalue⟩ :=
    value.items_text h (stops_nil _) (Position.start.advance ['\''])
  refine ⟨tree.datum, ?_, hvalue⟩
  have hderives : Derives ("'" ++ value.text)
      [.expression (.marked ⟨⟨.quoteMark, "'", none, .start⟩, rfl⟩ tree)] := by
    have htext : ("'" ++ value.text).toList = '\'' :: (value.text.toList ++ []) := by simp
    rw [Derives, Cursor.ofSource, htext, Cursor.items_mark, hitems, Cursor.items_of_rest_nil rfl]
    simp [FormTree.tokens, ExpressionTree.tokens]
  exact hderives.readSource_eq

/-! ## Running what is printed -/

/-- A source that is one quotation gives what is quoted. -/
theorem run_quotation {source : String} {datum : Datum}
    (h : readSource source = ([.expression (.quoted datum)], [])) (fuel : Nat) (id : EnvironmentId)
    (store : Store) : (run (fuel + 1) id source).runOn store =
      (.ok ((quoteDatum id datum).run store).1, ((quoteDatum id datum).run store).2) := by
  rw [run_eq, h]
  rfl

/-- Running the quoted text of a value that is written as a datum gives a value of the same shape with
the same literals, and with the entry for its name in the place of each symbol.  It changes no
binding, and removes and replaces no entry.  The text is the same again if entries stand under their
names; and where the symbols in the value are the entries for their names already, the result is
equal to the value, and no environment changes. -/
theorem run_quoted_text {value : Value} (h : value.IsData) {store : Store} {id : EnvironmentId}
    (hid : id < store.environments.size) (fuel : Nat) :
    ∃ result after, (run (fuel + 1) id ("'" ++ value.text)).runOn store = (.ok result, after) ∧
      store.KeepsAllBindings after ∧ store.KeepsSymbols after ∧
      value.SameShape (fun symbol symbol' =>
        (after.environment id).symbol? symbol.name = some symbol') result ∧
      (store.Named → result.text = value.text ∧ after.Named) ∧
      ((∀ symbol ∈ value.symbols, (store.environment id).symbol? symbol.name = some symbol) →
        result.equal value = true ∧ result.text = value.text ∧
          after.environments = store.environments) := by
  obtain ⟨datum, hread, hvalue⟩ := readSource_quoted_text h
  obtain ⟨hgrows, hresult⟩ := quoteDatum_quotes datum hid
  have hshape := (hvalue.sameShape hresult).mono fun symbol symbol' hnames =>
    show ((((quoteDatum id datum).run store).2).environment id).symbol? symbol.name =
        some symbol' by
      obtain ⟨name, rfl, hentry⟩ := hnames
      exact hentry
  refine ⟨_, _, run_quotation hread fuel id store,
    keepsAllBindings_evaluate (fuel + 1) id (.quoted datum) store, hgrows.keeps, hshape, ?_, ?_⟩
  · intro hnamed
    refine ⟨(hshape.text_eq fun symbol symbol' hentry => ?_).symm, hgrows.named hnamed⟩
    exact (hgrows.named hnamed hentry).symm
  · intro hinterned
    have hquotes : (store.environment id).Quotes datum value :=
      hvalue.mono fun hsymbol hname => hname ▸ hinterned _ hsymbol
    have hlater : (((quoteDatum id datum).run store).2.environment id).Quotes datum value :=
      hquotes.mono fun _ hentry => hgrows.keeps.symbol?_eq hentry
    have hsame := (hresult.sameShape hlater).mono fun symbol symbol' hentries =>
      show symbol = symbol' by
        obtain ⟨name, hentry, hentry'⟩ := hentries
        exact Option.some.inj (hentry.symm.trans hentry')
    refine ⟨hsame.equal fun _ _ heq => heq, hsame.text_eq ?_,
      (sameSymbols_quoteDatum hquotes).environments⟩
    rintro symbol _ rfl
    rfl

/-- A symbol that is an entry comes back as itself, in the same lists as before. -/
theorem run_quoted_text_nested :
    let store := ((run 2 0 "'a").runOn (Store.allocateGlobal.run (.initial 0)).2).2
    let value := Value.list (.cell 90 (.symbol ⟨"a", 0⟩) (.cell 91
      (.list (.cell 92 (.boolean true) (.cell 93 (.list .empty) .empty)))
      (.cell 94 (.number 12) .empty)))
    value.IsData ∧ 0 < store.environments.size ∧ value.text = "(a (#t ()) 12)" ∧
      ∃ result after, (run 2 0 "'(a (#t ()) 12)").runOn store = (.ok result, after) ∧
        result.equal value = true ∧ result.text = value.text ∧
          after.environments = store.environments := by
  intro store value
  have hnumber : (0 : Int) ≤ (12 : Int64).toInt := by decide
  have hdata : value.IsData :=
    ⟨isIdentifier_iff.2 (by decide), ⟨trivial, trivial, trivial⟩, hnumber, trivial⟩
  have hsize : 0 < store.environments.size := by decide +kernel
  have htext : value.text = "(a (#t ()) 12)" := by decide +kernel
  obtain ⟨result, after, hrun, -, -, -, -, hback⟩ := run_quoted_text hdata hsize 1
  have hinterned : ∀ symbol ∈ value.symbols,
      (store.environment 0).symbol? symbol.name = some symbol := by
    decide +kernel
  rw [htext] at hrun
  exact ⟨hdata, hsize, htext, result, after, hrun, hback hinterned⟩

end MiniScheme
