import MiniScheme.Proofs.Frame

/-!
# Interning

Symbols are made in one place only, where a name is quoted in an environment that has no symbol
for it, and the new symbol becomes the entry for that name.  So every symbol that occurs anywhere
is an entry of some environment, and an entry is never removed or replaced.

Main results:

- Theorem `Store.KeepsSymbols.grows`: tables and bindings that are made of others stay coherent.
- Theorem `Store.grows_mint`: interning a new name keeps all entries, and its symbol differs from
  all others.
-/

namespace MiniScheme

/-! ## The symbols in a value -/

mutual

/-- The symbols that occur in a value. -/
def Value.symbols : Value → List Symbol
  | .symbol symbol => [symbol]
  | .list cells => cells.symbols
  | .nil | .number _ | .boolean _ | .character _ | .string _ | .function _ => []

/-- The symbols that occur in a list. -/
def Cells.symbols : Cells → List Symbol
  | .empty => []
  | .cell _ head tail => head.symbols ++ tail.symbols

end

/-- That the symbols in a value have a property is hereditary. -/
theorem Value.hereditary_symbols (property : Symbol → Prop) :
    Hereditary fun value => ∀ symbol ∈ value.symbols, property symbol where
  nil := by simp [symbols]
  number _ := by simp [symbols]
  boolean _ := by simp [symbols]
  empty := by simp [symbols, Cells.symbols]
  cell _ _ _ := by simp only [symbols, Cells.symbols, List.forall_mem_append]

/-- There are no symbols in the constant of a literal. -/
@[simp]
theorem Value.symbols_ofLiteral (token : Token) : (ofLiteral token).symbols = [] := by
  unfold ofLiteral
  split
  next constant _ => cases constant <;> rfl
  next => rfl

/-! ## Tables of symbols -/

namespace Store

/-- The symbol is the entry for some name in some environment. -/
def Knows (store : Store) (symbol : Symbol) : Prop :=
  ∃ id name, (store.environment id).symbol? name = some symbol

/-- All symbols in a value are entries. -/
def Holds (store : Store) (value : Value) : Prop :=
  ∀ symbol ∈ value.symbols, store.Knows symbol

/-- No entry has been removed or replaced, in no environment, and no identity of a symbol has
become free again. -/
structure KeepsSymbols (before after : Store) : Prop where
  size_le : before.environments.size ≤ after.environments.size
  nextSymbol_le : before.nextSymbol ≤ after.nextSymbol
  symbol?_eq : ∀ {id : EnvironmentId} {name : String} {symbol : Symbol},
    (before.environment id).symbol? name = some symbol →
      (after.environment id).symbol? name = some symbol

instance : IsPreorder Store KeepsSymbols where
  refl _ := ⟨Nat.le_refl _, Nat.le_refl _, id⟩
  trans _ _ _ hfirst hsecond :=
    ⟨Nat.le_trans hfirst.size_le hsecond.size_le,
      Nat.le_trans hfirst.nextSymbol_le hsecond.nextSymbol_le,
      fun h => hsecond.symbol?_eq (hfirst.symbol?_eq h)⟩

/-- Every entry stands under the name of its symbol. -/
def Named (store : Store) : Prop :=
  ∀ {id : EnvironmentId} {name : String} {symbol : Symbol},
    (store.environment id).symbol? name = some symbol → symbol.name = name

/-- Entries stand under their names, symbols with one identity have one name, no identity is still
to come, and all symbols in bindings are entries. -/
structure Coherent (store : Store) : Prop where
  named : store.Named
  identity_lt : ∀ {symbol : Symbol}, store.Knows symbol → symbol.identity < store.nextSymbol
  name_inj : ∀ {symbol symbol' : Symbol}, store.Knows symbol → store.Knows symbol' →
    symbol.identity = symbol'.identity → symbol.name = symbol'.name
  holds : ∀ {id : EnvironmentId} {name : String} {value : Value},
    (store.environment id).get? name = some value → store.Holds value

/-- What evaluation does to tables of symbols. -/
structure Grows (before after : Store) : Prop where
  keeps : before.KeepsSymbols after
  named : before.Named → after.Named
  coherent : before.Coherent → after.Coherent

instance : IsPreorder Store Grows where
  refl _ := ⟨refl_of _ _, id, id⟩
  trans _ _ _ hfirst hsecond :=
    ⟨trans_of _ hfirst.keeps hsecond.keeps, fun h => hsecond.named (hfirst.named h),
      fun h => hsecond.coherent (hfirst.coherent h)⟩

variable {before after store : Store}

/-- A symbol that is known stays known. -/
theorem KeepsSymbols.knows (h : before.KeepsSymbols after) {symbol : Symbol}
    (hsymbol : before.Knows symbol) : after.Knows symbol := by
  obtain ⟨id, name, hentry⟩ := hsymbol
  exact ⟨id, name, h.symbol?_eq hentry⟩

/-- A value that is held stays held. -/
theorem KeepsSymbols.holds (h : before.KeepsSymbols after) {value : Value}
    (hvalue : before.Holds value) : after.Holds value :=
  fun symbol hsymbol => h.knows (hvalue symbol hsymbol)

/-- An environment that is there stays there. -/
theorem KeepsSymbols.lt_size (h : before.KeepsSymbols after) {id : EnvironmentId}
    (hid : id < before.environments.size) : id < after.environments.size :=
  Nat.lt_of_lt_of_le hid h.size_le

/-- A value that is made from others holds their symbols. -/
theorem Holds.of_isMadeFrom {arguments : List Value} {value : Value}
    (harguments : ∀ argument ∈ arguments, store.Holds argument)
    (hvalue : value.IsMadeFrom arguments) : store.Holds value :=
  hvalue _ (Value.hereditary_symbols store.Knows) harguments

/-- Tables and bindings that come from others keep what there is to say about those. -/
theorem KeepsSymbols.grows (h : before.KeepsSymbols after)
    (hentries : ∀ {id : EnvironmentId} {name : String} {symbol : Symbol},
      (after.environment id).symbol? name = some symbol →
        ∃ id', (before.environment id').symbol? name = some symbol)
    (hvalues : before.Coherent → ∀ {id : EnvironmentId} {name : String} {value : Value},
      (after.environment id).get? name = some value → before.Holds value) :
    before.Grows after := by
  have hknows : ∀ {symbol : Symbol}, after.Knows symbol → before.Knows symbol := by
    rintro symbol ⟨id, name, hentry⟩
    obtain ⟨id', hentry'⟩ := hentries hentry
    exact ⟨id', name, hentry'⟩
  have hnamed : before.Named → after.Named := by
    intro hnamed id name symbol hentry
    obtain ⟨id', hentry'⟩ := hentries hentry
    exact hnamed hentry'
  refine ⟨h, hnamed, fun hcoherent => ⟨hnamed hcoherent.named, ?_, ?_, ?_⟩⟩
  · intro symbol hsymbol
    exact Nat.lt_of_lt_of_le (hcoherent.identity_lt (hknows hsymbol)) h.nextSymbol_le
  · intro symbol symbol' hsymbol hsymbol'
    exact hcoherent.name_inj (hknows hsymbol) (hknows hsymbol')
  · intro id name value hvalue
    exact h.holds (hvalues hcoherent hvalue)

/-- Something happens elsewhere in the store. -/
theorem SameSymbols.grows (h : before.SameSymbols after) : before.Grows after := by
  have henvironment : after.environment = before.environment := by
    funext id
    rw [environment, h.environments, environment]
  have hkeeps : before.KeepsSymbols after :=
    ⟨Nat.le_of_eq (by rw [h.environments]), Nat.le_of_eq h.nextSymbol.symm,
      fun hentry => by rwa [henvironment]⟩
  apply hkeeps.grows
  · intro id name symbol hentry
    rw [henvironment] at hentry
    exact ⟨id, hentry⟩
  · intro hcoherent id name value hvalue
    rw [henvironment] at hvalue
    exact hcoherent.holds hvalue

/-- An environment is changed, if it is there at all. -/
theorem environment_update_cases (store : Store) (id other : EnvironmentId)
    (change : Environment → Environment) :
    (store.update id change).environment other = store.environment other ∨
      other = id ∧ (store.update id change).environment other = change (store.environment other) := by
  by_cases hother : other = id
  · subst hother
    rcases Nat.lt_or_ge other store.environments.size with hsize | hsize
    · exact .inr ⟨rfl, environment_update_self store other change hsize⟩
    · left
      simp [environment, update, hsize]
  · exact .inl (environment_update_of_ne store change hother)

/-- A definition changes no table. -/
theorem grows_define (store : Store) (id : EnvironmentId) (name : String) {value : Value}
    (h : store.Holds value) : store.Grows (store.update id (·.define name value)) := by
  have hsymbols : ∀ other, ((store.update id (·.define name value)).environment other).symbols =
      (store.environment other).symbols := by
    intro other
    rcases store.environment_update_cases id other (·.define name value) with heq | ⟨-, heq⟩
    · rw [heq]
    · rw [heq]
      rfl
  have hkeeps : store.KeepsSymbols (store.update id (·.define name value)) :=
    ⟨Nat.le_of_eq (size_update store id _).symm, Nat.le_refl _,
      fun hentry => by rwa [Environment.symbol?, hsymbols]⟩
  apply hkeeps.grows
  · intro other name' symbol hentry
    rw [Environment.symbol?, hsymbols] at hentry
    exact ⟨other, hentry⟩
  · intro hcoherent other name' bound hbound
    rcases store.environment_update_cases id other (·.define name value) with heq | ⟨-, heq⟩
    · rw [heq] at hbound
      exact hcoherent.holds hbound
    · rw [heq, Environment.get?, Environment.define, Table.get?_insert] at hbound
      split at hbound
      · cases hbound
        exact h
      · exact hcoherent.holds hbound

/-- One environment is new, if any. -/
theorem environment_allocate_cases (store : Store) (new : Environment) (other : EnvironmentId) :
    ((allocate new).run store).2.environment other = store.environment other ∨
      ((allocate new).run store).2.environment other = new := by
  rcases Nat.lt_trichotomy other store.environments.size with hlt | rfl | hgt
  · exact .inl (environment_allocate store new hlt)
  · exact .inr (environment_allocate_self store new)
  · left
    have hnone : ((allocate new).run store).2.environments.size ≤ other := by
      rw [size_allocate]
      exact hgt
    rw [environment, environment, Array.getElem?_eq_none hnone,
      Array.getElem?_eq_none (Nat.le_of_lt hgt)]

/-- A new environment grows the store if its symbols are those of another one and its bindings
hold nothing new. -/
theorem grows_allocate (store : Store) (id : EnvironmentId) {new : Environment}
    (hsymbols : ∀ {name symbol}, new.symbol? name = some symbol →
      (store.environment id).symbol? name = some symbol)
    (hvalues : store.Coherent → ∀ {name value}, new.get? name = some value → store.Holds value) :
    store.Grows ((allocate new).run store).2 := by
  have hkeeps : store.KeepsSymbols ((allocate new).run store).2 := by
    refine ⟨by simp, Nat.le_refl _, fun {other name symbol} hentry => ?_⟩
    rcases Nat.lt_or_ge other store.environments.size with hlt | hge
    · rwa [environment_allocate store new hlt]
    · rw [environment, Array.getElem?_eq_none hge] at hentry
      cases hentry
  apply hkeeps.grows
  · intro other name symbol hentry
    rcases store.environment_allocate_cases new other with heq | heq
    · exact ⟨other, heq ▸ hentry⟩
    · exact ⟨id, hsymbols (heq ▸ hentry)⟩
  · intro hcoherent other name value hvalue
    rcases store.environment_allocate_cases new other with heq | heq
    · exact hcoherent.holds (heq ▸ hvalue)
    · exact hvalues hcoherent (heq ▸ hvalue)

/-- In the environment of a call the symbols are those of the environment that the closure was
made in. -/
theorem symbol?_enterCall (store : Store) (captured : EnvironmentId) (formals : List String)
    (arguments : List Value) (name : String) :
    ((store.enterCall captured formals arguments).environment store.environments.size).symbol?
      name = (store.environment captured).symbol? name := by
  rw [enterCall, environment_allocate_self]
  rfl

/-- The environment of a call brings no symbols of its own. -/
theorem grows_enterCall (captured : EnvironmentId) (formals : List String) {arguments : List Value}
    (h : ∀ argument ∈ arguments, store.Holds argument) :
    store.Grows (store.enterCall captured formals arguments) := by
  apply grows_allocate store captured
  · exact id
  · intro hcoherent name value hvalue
    rcases Table.get?_insertAll_eq_some hvalue with hargument | hbound
    · exact h value (List.of_mem_zip hargument).2
    · exact hcoherent.holds hbound

/-! ## New symbols -/

/-- The store after a new symbol has been made for a name in an environment. -/
def mint (store : Store) (id : EnvironmentId) (name : String) : Store :=
  { store with nextSymbol := store.nextSymbol + 1 }.update id
    (·.addSymbol ⟨name, store.nextSymbol⟩)

/-- Interning a name gives its symbol, or makes one if there is none. -/
theorem run_intern (id : EnvironmentId) (name : String) (store : Store) :
    (intern id name).run store =
      (((store.environment id).symbol? name).getD ⟨name, store.nextSymbol⟩,
        if ((store.environment id).symbol? name).isSome then store else store.mint id name) := by
  simp only [intern, StateT.run_bind, StateT.run_get, pure_bind]
  cases (store.environment id).symbol? name <;> rfl

/-- A name with a symbol is interned to it, and nothing changes. -/
theorem intern_of_some {id : EnvironmentId} {name : String} {symbol : Symbol}
    (h : (store.environment id).symbol? name = some symbol) :
    (intern id name).run store = (symbol, store) := by
  simp [run_intern, h]

/-- A name without a symbol is interned to a new one. -/
theorem intern_of_none {id : EnvironmentId} {name : String}
    (h : (store.environment id).symbol? name = none) :
    (intern id name).run store = (⟨name, store.nextSymbol⟩, store.mint id name) := by
  simp [run_intern, h]

/-- A new symbol is found under its name. -/
theorem symbol?_mint_self {id : EnvironmentId} (hid : id < store.environments.size)
    (name : String) :
    ((store.mint id name).environment id).symbol? name = some ⟨name, store.nextSymbol⟩ := by
  have hmade : (store.mint id name).environment id =
      (store.environment id).addSymbol ⟨name, store.nextSymbol⟩ :=
    environment_update_self { store with nextSymbol := store.nextSymbol + 1 } id _ hid
  rw [hmade, Environment.symbol?, Environment.addSymbol, Table.get?_insert_self]

/-- Making a symbol changes at most the environment it is made in, which has the symbol then. -/
theorem environment_mint_cases (store : Store) (id : EnvironmentId) (name : String)
    (other : EnvironmentId) :
    (store.mint id name).environment other = store.environment other ∨
      other = id ∧ (store.mint id name).environment other =
        (store.environment other).addSymbol ⟨name, store.nextSymbol⟩ :=
  environment_update_cases { store with nextSymbol := store.nextSymbol + 1 } id other _

/-- The only entry that is new is that of the new symbol. -/
theorem symbol?_mint_cases {id other : EnvironmentId} {name name' : String} {symbol : Symbol}
    (h : ((store.mint id name).environment other).symbol? name' = some symbol) :
    (store.environment other).symbol? name' = some symbol ∨
      name' = name ∧ symbol = ⟨name, store.nextSymbol⟩ := by
  rcases store.environment_mint_cases id name other with heq | ⟨-, heq⟩
  · exact .inl (heq ▸ h)
  · rw [heq, Environment.symbol?, Environment.addSymbol, Table.get?_insert] at h
    split at h
    next hname =>
      cases h
      exact .inr ⟨hname, rfl⟩
    next => exact .inl h

/-- Whatever is known after a symbol was made was known before, or it is the new one. -/
theorem knows_mint_cases {id : EnvironmentId} {name : String} {symbol : Symbol}
    (h : (store.mint id name).Knows symbol) :
    store.Knows symbol ∨ symbol = ⟨name, store.nextSymbol⟩ := by
  obtain ⟨other, name', hentry⟩ := h
  rcases symbol?_mint_cases hentry with hold | ⟨-, hnew⟩
  · exact .inl ⟨other, name', hold⟩
  · exact .inr hnew

/-- Making a symbol for a name that has none keeps all entries, and the new identity differs from
those before. -/
theorem grows_mint {id : EnvironmentId} {name : String}
    (h : (store.environment id).symbol? name = none) : store.Grows (store.mint id name) := by
  have hkeeps : store.KeepsSymbols (store.mint id name) := by
    refine ⟨Nat.le_of_eq (size_update _ id _).symm, Nat.le_succ _,
      fun {other name' symbol} hentry => ?_⟩
    rcases store.environment_mint_cases id name other with heq | ⟨rfl, heq⟩
    · rwa [heq]
    · have hname : name' ≠ name := by
        rintro rfl
        rw [h] at hentry
        cases hentry
      rw [heq, Environment.symbol?, Environment.addSymbol, Table.get?_insert_of_ne _ _ hname]
      exact hentry
  have hnamed : store.Named → (store.mint id name).Named := by
    intro hnamed other name' symbol hentry
    rcases symbol?_mint_cases hentry with hold | ⟨rfl, rfl⟩
    · exact hnamed hold
    · rfl
  refine ⟨hkeeps, hnamed, fun hcoherent => ⟨hnamed hcoherent.named, ?_, ?_, ?_⟩⟩
  · intro symbol hsymbol
    rcases knows_mint_cases hsymbol with hold | rfl
    · exact Nat.lt_succ_of_lt (hcoherent.identity_lt hold)
    · exact Nat.lt_succ_self _
  · intro symbol symbol' hsymbol hsymbol' heq
    rcases knows_mint_cases hsymbol with hold | rfl <;>
      rcases knows_mint_cases hsymbol' with hold' | rfl
    · exact hcoherent.name_inj hold hold' heq
    · exact absurd heq (Nat.ne_of_lt (hcoherent.identity_lt hold))
    · exact absurd heq.symm (Nat.ne_of_lt (hcoherent.identity_lt hold'))
    · rfl
  · intro other name' value hvalue
    rcases store.environment_mint_cases id name other with heq | ⟨-, heq⟩ <;> rw [heq] at hvalue
    · exact hkeeps.holds (hcoherent.holds hvalue)
    · exact hkeeps.holds (hcoherent.holds hvalue)

/-- A name is interned where there is none for it. -/
theorem intern_grows {id : EnvironmentId}
    (hid : id < store.environments.size) (name : String) :
    store.Grows ((intern id name).run store).2 ∧
      (((intern id name).run store).2.environment id).symbol? name =
        some ((intern id name).run store).1 := by
  cases hentry : (store.environment id).symbol? name with
  | some symbol =>
    rw [intern_of_some hentry]
    exact ⟨refl_of _ store, hentry⟩
  | none =>
    rw [intern_of_none hentry]
    exact ⟨grows_mint hentry, symbol?_mint_self hid name⟩

end Store

end MiniScheme
