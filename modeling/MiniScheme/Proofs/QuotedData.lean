import MiniScheme.Proofs.Interning
import Mathlib.Data.List.Forall2
import MiniScheme.Value.Text

/-!
# Quoted data

What data stand for depends on what identifiers stand for.  Quoting them in an environment interns
their identifiers, so that these stand for entries of the environment.

Main results:

- Theorem `Datum.StandsFor.sameShape`: two values that the same data stand for differ only in their
  symbols.
- Theorem `quoteDatum_quotes`: the value of quoted data has an entry of the environment in place of
  each identifier.
- Theorem `sameSymbols_quoteDatum`: quoting data whose identifiers have been interned makes no
  symbols.
-/

namespace MiniScheme

/-! ## What data stand for -/

mutual

/-- The data stand for the value if identifiers can stand for symbols as given: a literal stands for
its value, and a list for a list of what its items stand for. -/
inductive Datum.StandsFor (means : String → Symbol → Prop) : Datum → Value → Prop
  | identifier {token : Token} {symbol : Symbol} (h : token.kind = .identifier)
    (hmeans : means token.text symbol) : StandsFor means (.atom token) (.symbol symbol)
  | literal {token : Token} (h : token.kind ≠ .identifier) :
    StandsFor means (.atom token) (.ofLiteral token)
  | list {items : List Datum} {cells : Cells} (h : Datum.RowStandsFor means items cells) :
    StandsFor means (.list items) (.list cells)

/-- Each of the data stands for the value in its place of the list. -/
inductive Datum.RowStandsFor (means : String → Symbol → Prop) : List Datum → Cells → Prop
  | empty : RowStandsFor means [] .empty
  | cell {item : Datum} {items : List Datum} {identity : Nat} {head : Value} {tail : Cells}
    (hhead : item.StandsFor means head) (htail : RowStandsFor means items tail) :
    RowStandsFor means (item :: items) (.cell identity head tail)

end

/-- The data stand for the value where identifiers stand for the entries of the environment. -/
abbrev Environment.Quotes (environment : Environment) : Datum → Value → Prop :=
  Datum.StandsFor fun name symbol => environment.symbol? name = some symbol

mutual

/-- Values that are alike up to symbols: the same literals in lists of the same shape, with related
symbols in the places of symbols. -/
inductive Value.SameShape (related : Symbol → Symbol → Prop) : Value → Value → Prop
  | symbol {symbol symbol' : Symbol} (h : related symbol symbol') :
    Value.SameShape related (.symbol symbol) (.symbol symbol')
  | literal (token : Token) : Value.SameShape related (.ofLiteral token) (.ofLiteral token)
  | list {cells cells' : Cells} (h : cells.SameShape related cells') :
    Value.SameShape related (.list cells) (.list cells')

/-- Lists of values that are alike up to symbols. -/
inductive Cells.SameShape (related : Symbol → Symbol → Prop) : Cells → Cells → Prop
  | empty : Cells.SameShape related .empty .empty
  | cell {identity identity' : Nat} {head head' : Value} {tail tail' : Cells}
    (hhead : head.SameShape related head') (htail : tail.SameShape related tail') :
    Cells.SameShape related (.cell identity head tail) (.cell identity' head' tail')

end

section

variable {means means' : String → Symbol → Prop} {related related' : Symbol → Symbol → Prop}

mutual

/-- What data stand for depends only on the symbols that there are in it. -/
theorem Datum.StandsFor.mono : ∀ {datum : Datum} {value : Value}, datum.StandsFor means value →
    (∀ {name symbol}, symbol ∈ value.symbols → means name symbol → means' name symbol) →
      datum.StandsFor means' value
  | _, _, .identifier hkind hmeans, h => .identifier hkind (h (List.mem_singleton.2 rfl) hmeans)
  | _, _, .literal hkind, _ => .literal hkind
  | _, _, .list hrow, h => .list (hrow.mono h)

/-- A row of data stands for a list in any wider sense of what its names mean. -/
theorem Datum.RowStandsFor.mono : ∀ {items : List Datum} {cells : Cells},
    Datum.RowStandsFor means items cells →
    (∀ {name symbol}, symbol ∈ cells.symbols → means name symbol → means' name symbol) →
      Datum.RowStandsFor means' items cells
  | _, _, .empty, _ => .empty
  | _, _, .cell hhead htail, h =>
    .cell (hhead.mono fun hsymbol => h (List.mem_append_left _ hsymbol))
      (htail.mono fun hsymbol => h (List.mem_append_right _ hsymbol))

end

mutual

/-- Each symbol in a value is what an identifier stands for. -/
theorem Datum.StandsFor.exists_name : ∀ {datum : Datum} {value : Value},
    datum.StandsFor means value → ∀ symbol ∈ value.symbols, ∃ name, means name symbol
  | _, _, .identifier _ hmeans, _, hsymbol => List.mem_singleton.1 hsymbol ▸ ⟨_, hmeans⟩
  | _, _, .literal _, _, hsymbol => by simp at hsymbol
  | _, _, .list hrow, symbol, hsymbol => hrow.exists_name symbol hsymbol

/-- A symbol in a list that data stand for is what some name means. -/
theorem Datum.RowStandsFor.exists_name : ∀ {items : List Datum} {cells : Cells},
    Datum.RowStandsFor means items cells → ∀ symbol ∈ cells.symbols, ∃ name, means name symbol
  | _, _, .empty, _, hsymbol => by cases hsymbol
  | _, _, .cell hhead htail, symbol, hsymbol => by
    rcases List.mem_append.1 hsymbol with hsymbol | hsymbol
    · exact hhead.exists_name symbol hsymbol
    · exact htail.exists_name symbol hsymbol

end

mutual

/-- Two values that the same data stand for are alike up to symbols. -/
theorem Datum.StandsFor.sameShape : ∀ {datum : Datum} {value value' : Value},
    datum.StandsFor means value → datum.StandsFor means' value' →
      value.SameShape (fun symbol symbol' => ∃ name, means name symbol ∧ means' name symbol') value'
  | _, _, _, .identifier hkind hmeans, hother => by
    cases hother with
    | identifier _ hmeans' => exact .symbol ⟨_, hmeans, hmeans'⟩
    | literal hkind' => exact absurd hkind hkind'
  | _, _, _, .literal hkind, hother => by
    cases hother with
    | identifier hkind' _ => exact absurd hkind' hkind
    | literal => exact .literal _
  | _, _, _, .list hrow, .list hrow' => .list (hrow.sameShape hrow')

/-- Lists that the same data stand for have the same shape. -/
theorem Datum.RowStandsFor.sameShape : ∀ {items : List Datum} {cells cells' : Cells},
    Datum.RowStandsFor means items cells → Datum.RowStandsFor means' items cells' →
      cells.SameShape (fun symbol symbol' => ∃ name, means name symbol ∧ means' name symbol') cells'
  | _, _, _, .empty, .empty => .empty
  | _, _, _, .cell hhead htail, .cell hhead' htail' =>
    .cell (hhead.sameShape hhead') (htail.sameShape htail')

end

/-- Data stand for a list of the values that they stand for one by one. -/
theorem Datum.RowStandsFor.ofList (identity : Nat) {items : List Datum} {values : List Value}
    (h : List.Forall₂ (Datum.StandsFor means) items values) :
    Datum.RowStandsFor means items (.ofList identity values) := by
  induction h generalizing identity with
  | nil => exact .empty
  | cons hitem _ ih => exact .cell hitem (ih (identity + 1))

mutual

/-- Values of the same shape are so in any wider sense of their symbols. -/
theorem Value.SameShape.mono (h : ∀ symbol symbol', related symbol symbol' →
    related' symbol symbol') : ∀ {value value' : Value}, value.SameShape related value' →
      value.SameShape related' value'
  | _, _, .symbol hsymbol => .symbol (h _ _ hsymbol)
  | _, _, .literal token => .literal token
  | _, _, .list hcells => .list (hcells.mono h)

/-- Lists of the same shape are so in any wider sense of their symbols. -/
theorem Cells.SameShape.mono (h : ∀ symbol symbol', related symbol symbol' →
    related' symbol symbol') : ∀ {cells cells' : Cells}, cells.SameShape related cells' →
      cells.SameShape related' cells'
  | _, _, .empty => .empty
  | _, _, .cell hhead htail => .cell (hhead.mono h) (htail.mono h)

end

/-- The constant of a literal is equal to itself. -/
theorem Value.equal_ofLiteral_self (token : Token) :
    (ofLiteral token).equal (ofLiteral token) = true := by
  unfold ofLiteral
  split
  next constant _ => cases constant <;> simp [ofConstant, equal]
  next => rfl

mutual

/-- Values of one shape with the same symbols are equal. -/
theorem Value.SameShape.equal (h : ∀ symbol symbol', related symbol symbol' → symbol = symbol') :
    ∀ {value value' : Value}, value.SameShape related value' → value.equal value' = true
  | _, _, .symbol hsymbol => by simp [Value.equal, h _ _ hsymbol]
  | _, _, .literal token => Value.equal_ofLiteral_self token
  | _, _, .list hcells => hcells.equal h

/-- Lists of the same shape with equal symbols are equal. -/
theorem Cells.SameShape.equal (h : ∀ symbol symbol', related symbol symbol' → symbol = symbol') :
    ∀ {cells cells' : Cells}, cells.SameShape related cells' → cells.equal cells' = true
  | _, _, .empty => rfl
  | _, _, .cell hhead htail => by
    rw [Cells.equal, hhead.equal h, htail.equal h]
    rfl

end

mutual

/-- Values of one shape with symbols of the same names have the same text. -/
theorem Value.SameShape.text_eq
    (h : ∀ symbol symbol', related symbol symbol' → symbol.name = symbol'.name) :
    ∀ {value value' : Value}, value.SameShape related value' → value.text = value'.text
  | _, _, .symbol hsymbol => by rw [Value.text, Value.text, h _ _ hsymbol]
  | _, _, .literal _ => rfl
  | _, _, .list hcells => by rw [Value.text, Value.text, hcells.texts_eq h]

/-- Lists of the same shape with symbols of the same names have the same texts. -/
theorem Cells.SameShape.texts_eq
    (h : ∀ symbol symbol', related symbol symbol' → symbol.name = symbol'.name) :
    ∀ {cells cells' : Cells}, cells.SameShape related cells' → cells.texts = cells'.texts
  | _, _, .empty => rfl
  | _, _, .cell hhead htail => by rw [Cells.texts, Cells.texts, hhead.text_eq h, htail.texts_eq h]

end

end

/-- The symbols in a value of quoted data are entries. -/
theorem Environment.Quotes.holds {store : Store} {id : EnvironmentId} {datum : Datum} {value : Value}
    (h : (store.environment id).Quotes datum value) : store.Holds value := by
  intro symbol hsymbol
  obtain ⟨name, hentry⟩ := h.exists_name symbol hsymbol
  exact ⟨id, name, hentry⟩

/-! ## Quoting -/

/-- A quoted identifier is the symbol of its name. -/
theorem quoteDatum_identifier {token : Token} (h : token.kind = .identifier) (id : EnvironmentId)
    (store : Store) : (quoteDatum id (.atom token)).run store =
      (.symbol ((Store.intern id token.text).run store).1,
        ((Store.intern id token.text).run store).2) := by
  rw [quoteDatum, if_pos h]
  rfl

/-- A quoted literal is its constant. -/
theorem quoteDatum_literal {token : Token} (h : token.kind ≠ .identifier) (id : EnvironmentId)
    (store : Store) : (quoteDatum id (.atom token)).run store = (.ofLiteral token, store) := by
  rw [quoteDatum, if_neg h]
  rfl

/-- The cells of a quoted list are made when its values have been. -/
theorem quoteDatum_list (items : List Datum) (id : EnvironmentId) (store : Store) :
    (quoteDatum id (.list items)).run store =
      let values := (quoteItems id items).run store
      (.list (.ofList values.2.nextObject values.1),
        { values.2 with nextObject := values.2.nextObject + values.1.length }) := by
  rw [quoteDatum]
  rfl

/-- Data are quoted one after the other, each in the store that the one before it left. -/
theorem quoteItems_cons (item : Datum) (items : List Datum) (id : EnvironmentId) (store : Store) :
    (quoteItems id (item :: items)).run store =
      let value := (quoteDatum id item).run store
      let values := (quoteItems id items).run value.2
      (value.1 :: values.1, values.2) := by
  rw [quoteItems]
  rfl

mutual

/-- Quoting interns the identifiers in the data. -/
theorem quoteDatum_quotes {id : EnvironmentId} : ∀ (datum : Datum) {store : Store},
    id < store.environments.size →
      store.Grows ((quoteDatum id datum).run store).2 ∧
        (((quoteDatum id datum).run store).2.environment id).Quotes datum
          ((quoteDatum id datum).run store).1
  | .atom token, store, hid => by
    by_cases hkind : token.kind = .identifier
    · obtain ⟨hgrows, hentry⟩ := Store.intern_grows hid token.text
      rw [quoteDatum_identifier hkind]
      exact ⟨hgrows, .identifier hkind hentry⟩
    · rw [quoteDatum_literal hkind]
      exact ⟨refl_of _ store, .literal hkind⟩
  | .list items, store, hid => by
    obtain ⟨hgrows, hvalues⟩ := quoteItems_quotes items hid
    rw [quoteDatum_list]
    refine ⟨trans_of _ hgrows ?_, .list (.ofList _ hvalues)⟩
    exact Store.SameSymbols.grows ⟨rfl, rfl⟩

/-- Quoting a row of data gives values that the data stand for, by the symbols there are then. -/
theorem quoteItems_quotes {id : EnvironmentId} : ∀ (items : List Datum) {store : Store},
    id < store.environments.size →
      store.Grows ((quoteItems id items).run store).2 ∧
        List.Forall₂ (((quoteItems id items).run store).2.environment id).Quotes items
          ((quoteItems id items).run store).1
  | [], store, _ => ⟨refl_of _ store, .nil⟩
  | item :: items, store, hid => by
    obtain ⟨hgrows, hvalue⟩ := quoteDatum_quotes item hid
    obtain ⟨hgrows', hvalues⟩ := quoteItems_quotes items (hgrows.keeps.lt_size hid)
    rw [quoteItems_cons]
    have hlater := hvalue.mono fun _ hentry => hgrows'.keeps.symbol?_eq hentry
    exact ⟨trans_of _ hgrows hgrows', .cons hlater hvalues⟩

end

mutual

/-- Quoting data whose identifiers have been interned makes nothing but cells. -/
theorem sameSymbols_quoteDatum {id : EnvironmentId} :
    ∀ {datum : Datum} {value : Value} {store : Store}, (store.environment id).Quotes datum value →
      store.SameSymbols ((quoteDatum id datum).run store).2
  | _, _, store, .identifier hkind hentry => by
    rw [quoteDatum_identifier hkind, Store.intern_of_some hentry]
    exact refl_of _ store
  | _, _, store, .literal hkind => by
    rw [quoteDatum_literal hkind]
    exact refl_of _ store
  | _, _, _, .list hrow => by
    rw [quoteDatum_list]
    refine trans_of _ (sameSymbols_quoteItems hrow) ?_
    exact ⟨rfl, rfl⟩

/-- Quoting a row of data changes nothing where all its names have symbols. -/
theorem sameSymbols_quoteItems {id : EnvironmentId} :
    ∀ {items : List Datum} {cells : Cells} {store : Store},
      Datum.RowStandsFor (fun name symbol => (store.environment id).symbol? name = some symbol)
        items cells → store.SameSymbols ((quoteItems id items).run store).2
  | _, _, store, .empty => refl_of _ store
  | item :: _, _, store, .cell hhead htail => by
    have hfirst := sameSymbols_quoteDatum hhead
    have hrest := htail.mono fun _ hentry => hfirst.grows.keeps.symbol?_eq hentry
    rw [quoteItems_cons]
    exact trans_of _ hfirst (sameSymbols_quoteItems hrest)

end

end MiniScheme
