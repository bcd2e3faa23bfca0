import MiniScheme.Environment
import MiniScheme.Proofs.Variation
import MiniScheme.Value.Equality
import Mathlib.Order.Defs.Unbundled

/-!
# Corresponding values

The same things can have different identities in two stores, a left one and a right one.  A
world says which symbol, which cell or function, and which environment on the left stands for
which one on the right, and for each environment on the left which of its names stand for names
in the one on the right.  Values correspond in a world if they are the same up to what stands
for each other, and environments if they have corresponding values.

Main results:

- Theorem `Value.Matches.isEq_eq`: values that correspond to other values are the same if those
  are, in a world that is one to one.
- Theorem `Value.Matches.text`: the texts of corresponding values differ in formals only.
- Theorem `Environment.Matches.enter`: the environments of two calls correspond.
-/

namespace MiniScheme

/-! ## Worlds -/

/-- Which number on the left stands for which number on the right. -/
abbrev Pairing :=
  Nat → Nat → Prop

/-- As many numbers from one on as from another one on are paired in order. -/
def Pairing.InOrder (pairing : Pairing) (first first' count : Nat) : Prop :=
  ∀ k < count, pairing (first + k) (first' + k)

section

variable {pairing : Pairing} {first first' count : Nat}

/-- Of numbers that are paired in order the first ones are paired. -/
theorem Pairing.InOrder.head (h : pairing.InOrder first first' (count + 1)) :
    pairing first first' :=
  h 0 (Nat.zero_lt_succ count)

/-- Of numbers that are paired in order the others are paired in order. -/
theorem Pairing.InOrder.tail (h : pairing.InOrder first first' (count + 1)) :
    pairing.InOrder (first + 1) (first' + 1) count := by
  intro k hk
  have hnext := h (k + 1) (Nat.succ_lt_succ hk)
  rwa [Nat.add_comm k 1, ← Nat.add_assoc, ← Nat.add_assoc] at hnext

end

/-- What on the left stands for what on the right. -/
structure World where
  /-- The identities of symbols. -/
  symbols : Pairing
  /-- The identities of cells and functions. -/
  objects : Pairing
  /-- The environments. -/
  environments : Pairing
  /-- The names in an environment on the left. -/
  scope : EnvironmentId → Scope

/-- Whatever corresponds in one world does so in the other. -/
structure World.Within (before after : World) : Prop where
  symbols : ∀ {a b}, before.symbols a b → after.symbols a b
  objects : ∀ {a b}, before.objects a b → after.objects a b
  environments : ∀ {a b}, before.environments a b → after.environments a b
  scope : ∀ {a b}, before.environments a b → after.scope a = before.scope a

instance : IsPreorder World World.Within where
  refl _ := ⟨id, id, id, fun _ => rfl⟩
  trans _ _ _ hfirst hsecond :=
    ⟨hsecond.symbols ∘ hfirst.symbols, hsecond.objects ∘ hfirst.objects,
      hsecond.environments ∘ hfirst.environments,
      fun hpair => (hsecond.scope (hfirst.environments hpair)).trans (hfirst.scope hpair)⟩

/-! ## Values -/

/-- Whether a procedure asks for the time. -/
def Procedure.readsClock : Procedure → Bool
  | counted _ inner => inner.readsClock
  | general .time => true
  | numeric _ | boolean _ | general _ => false

/-- Symbols of the same name that stand for each other. -/
structure Symbol.Matches (world : World) (left right : Symbol) : Prop where
  name : left.name = right.name
  identity : world.symbols left.identity right.identity

/-- Functions that stand for each other: the same primitive function, or closures of code that is
alike, in environments that stand for each other. -/
inductive Function.Matches (variation : Variation) (world : World) : Function → Function → Prop
  | primitive {identity identity' : Nat} {name : String} {procedure : Procedure}
    (object : world.objects identity identity')
    (timed : procedure.readsClock = true → variation.timed) :
    Matches variation world (.primitive identity name procedure)
      (.primitive identity' name procedure)
  | closure {identity identity' : Nat} {formals formals' : List String}
    {body body' : List Expression} {id id' : EnvironmentId}
    (object : world.objects identity identity') (environment : world.environments id id')
    (lambdas : variation.lambdas formals body formals' body')
    (length : formals.length = formals'.length)
    (row : Expression.AlikeRow variation ((world.scope id).enter formals formals') body body') :
    Matches variation world (.closure identity formals body id)
      (.closure identity' formals' body' id')

mutual

/-- Values with the same contents up to what stands for each other. -/
inductive Value.Matches (variation : Variation) (world : World) : Value → Value → Prop
  | nil : Value.Matches variation world .nil .nil
  | number (n : Int64) : Value.Matches variation world (.number n) (.number n)
  | boolean (b : Bool) : Value.Matches variation world (.boolean b) (.boolean b)
  | character (c : Char) : Value.Matches variation world (.character c) (.character c)
  | string (s : String) : Value.Matches variation world (.string s) (.string s)
  | symbol {left right : Symbol} (symbol : left.Matches world right) :
    Value.Matches variation world (.symbol left) (.symbol right)
  | list {left right : Cells} (cells : Cells.Matches variation world left right) :
    Value.Matches variation world (.list left) (.list right)
  | function {left right : Function} (function : left.Matches variation world right) :
    Value.Matches variation world (.function left) (.function right)

/-- Lists with the same contents up to what stands for each other. -/
inductive Cells.Matches (variation : Variation) (world : World) : Cells → Cells → Prop
  | empty : Cells.Matches variation world .empty .empty
  | cell {identity identity' : Nat} {head head' : Value} {tail tail' : Cells}
    (object : world.objects identity identity') (first : head.Matches variation world head')
    (rest : Cells.Matches variation world tail tail') :
    Cells.Matches variation world (.cell identity head tail) (.cell identity' head' tail')

end

variable {variation : Variation} {world : World}

/-- Symbols that correspond do so in a later world. -/
theorem Symbol.Matches.mono {after : World} (h : world.Within after) {left right : Symbol}
    (hsymbol : left.Matches world right) : left.Matches after right :=
  ⟨hsymbol.name, h.symbols hsymbol.identity⟩

/-- Functions that correspond do so in a later world. -/
theorem Function.Matches.mono {after : World} (h : world.Within after) {left right : Function}
    (hfunction : left.Matches variation world right) : left.Matches variation after right := by
  cases hfunction with
  | primitive object timed => exact .primitive (h.objects object) timed
  | closure object environment lambdas length row =>
    rw [← h.scope environment] at row
    exact .closure (h.objects object) (h.environments environment) lambdas length row

mutual

/-- Values that correspond do so in a later world. -/
theorem Value.Matches.mono {after : World} (h : world.Within after) {left right : Value} :
    left.Matches variation world right → left.Matches variation after right
  | .nil => .nil
  | .number n => .number n
  | .boolean b => .boolean b
  | .character c => .character c
  | .string s => .string s
  | .symbol symbol => .symbol (symbol.mono h)
  | .list cells => .list (cells.mono h)
  | .function function => .function (function.mono h)

/-- Lists that correspond do so in a later world. -/
theorem Cells.Matches.mono {after : World} (h : world.Within after) {left right : Cells} :
    left.Matches variation world right → left.Matches variation after right
  | .empty => .empty
  | .cell object first rest => .cell (h.objects object) (first.mono h) (rest.mono h)

end

/-! ## What values have in common -/

namespace Value.Matches

variable {left right : Value}

/-- Values that correspond are of one kind. -/
theorem kind_eq (h : left.Matches variation world right) : left.kind = right.kind := by
  cases h <;> rfl

/-- Values that correspond are the same number, if one is a number. -/
theorem number?_eq (h : left.Matches variation world right) : left.number? = right.number? := by
  cases h <;> rfl

/-- Values that correspond are the same boolean, if one is a boolean. -/
theorem boolean?_eq (h : left.Matches variation world right) :
    left.boolean? = right.boolean? := by
  cases h <;> rfl

/-- A literal stands for itself. -/
theorem ofLiteral {token token' : Token} (h : token.constant = token'.constant) :
    (ofLiteral token).Matches variation world (Value.ofLiteral token') := by
  unfold Value.ofLiteral
  rw [h]
  cases token'.constant with
  | none => exact .nil
  | some constant =>
    cases constant with
    | number n => exact .number n
    | boolean b => exact .boolean b
    | character c => exact .character c
    | string s => exact .string s

end Value.Matches

/-- Everything stands for itself. -/
structure World.Diagonal (world : World) : Prop where
  symbols : ∀ {a b}, world.symbols a b → a = b
  objects : ∀ {a b}, world.objects a b → a = b
  environments : ∀ {a b}, world.environments a b → a = b

/-- In a world where everything stands for itself symbols that correspond are equal. -/
theorem Symbol.Matches.eq (h : world.Diagonal) {left right : Symbol}
    (hsymbol : left.Matches world right) : left = right := by
  cases left
  cases right
  exact congrArg₂ Symbol.mk hsymbol.name (h.symbols hsymbol.identity)

/-- In a world where everything stands for itself functions that correspond are equal. -/
theorem Function.Matches.eq {timed : Prop} (h : world.Diagonal) {left right : Function}
    (hfunction : left.Matches (.sameCode timed) world right) : left = right := by
  cases hfunction with
  | primitive object _ => rw [h.objects object]
  | closure object environment lambdas _ _ =>
    rw [h.objects object, h.environments environment, lambdas.1, lambdas.2]

mutual

/-- Values of the same code are the same if everything stands for itself. -/
theorem Value.Matches.eq {timed : Prop} (h : world.Diagonal) {left right : Value} :
    left.Matches (.sameCode timed) world right → left = right
  | .nil | .number _ | .boolean _ | .character _ | .string _ => rfl
  | .symbol symbol => by rw [symbol.eq h]
  | .list cells => by rw [cells.eq h]
  | .function function => by rw [function.eq h]

/-- In a world where everything stands for itself lists that correspond are equal. -/
theorem Cells.Matches.eq {timed : Prop} (h : world.Diagonal) {left right : Cells} :
    left.Matches (.sameCode timed) world right → left = right
  | .empty => rfl
  | .cell object first rest => by rw [h.objects object, first.eq h, rest.eq h]

end

/-- Nothing on either side stands for two things of the other. -/
structure World.OneToOne (world : World) : Prop where
  symbols : ∀ {a b c d}, world.symbols a b → world.symbols c d → (a = c ↔ b = d)
  objects : ∀ {a b c d}, world.objects a b → world.objects c d → (a = c ↔ b = d)
  environments : ∀ {a b c d}, world.environments a b → world.environments c d → (a = c ↔ b = d)

/-- Whether two functions are the same one is the same on both sides. -/
theorem Function.Matches.same_eq (h : world.OneToOne) {f f' g g' : Function}
    (hf : f.Matches variation world f') (hg : g.Matches variation world g') :
    f.same g = f'.same g' := by
  cases hf with
  | primitive hfirst _ =>
    cases hg with
    | primitive hsecond _ => simp [same, h.objects hfirst hsecond]
    | closure => rfl
  | closure hfirst =>
    cases hg with
    | primitive => rfl
    | closure hsecond => simp [same, h.objects hfirst hsecond]

/-- Whether two lists are the same one is the same on both sides. -/
theorem Cells.Matches.same_eq (h : world.OneToOne) {c c' d d' : Cells}
    (hc : c.Matches variation world c') (hd : d.Matches variation world d') :
    c.same d = c'.same d' := by
  cases hc with
  | empty => cases hd <;> rfl
  | cell hfirst _ _ =>
    cases hd with
    | empty => rfl
    | cell hsecond _ _ => simp [same, h.objects hfirst hsecond]

mutual

/-- Corresponding values are equal to corresponding values. -/
theorem Value.Matches.equal_eq (h : world.OneToOne) {v v' w w' : Value} :
    v.Matches variation world v' → w.Matches variation world w' → v.equal w = v'.equal w'
  | .nil, hw | .number _, hw | .boolean _, hw | .character _, hw | .string _, hw => by
    cases hw <;> rfl
  | .symbol hsymbol, hw => by
    cases hw with
    | symbol hother => simp [Value.equal, h.symbols hsymbol.identity hother.identity]
    | _ => rfl
  | .list hcells, hw => by
    cases hw with
    | list hother =>
      rw [Value.equal, Value.equal]
      exact hcells.equal_eq h hother
    | _ => rfl
  | .function hfunction, hw => by
    cases hw with
    | function hother =>
      rw [Value.equal, Value.equal]
      exact hfunction.same_eq h hother
    | _ => rfl

/-- Whether two lists are equal is the same on both sides. -/
theorem Cells.Matches.equal_eq (h : world.OneToOne) {c c' d d' : Cells} :
    c.Matches variation world c' → d.Matches variation world d' → c.equal d = c'.equal d'
  | .empty, hd => by
    cases hd <;> rfl
  | .cell _ hfirst hrest, hd => by
    cases hd with
    | empty => rfl
    | cell _ hhead htail =>
      rw [Cells.equal, Cells.equal, hfirst.equal_eq h hhead, hrest.equal_eq h htail]

end

/-- They are indistinguishable from corresponding values, too. -/
theorem Value.Matches.isEq_eq (h : world.OneToOne) {v v' w w' : Value}
    (hv : v.Matches variation world v') (hw : w.Matches variation world w') :
    v.isEq w = v'.isEq w' := by
  have hequal := hv.equal_eq h hw
  cases hv with
  | list hcells =>
    cases hw with
    | list hother => exact hcells.same_eq h hother
    | _ => exact hequal
  | _ => exact hequal

mutual

/-- The texts of corresponding values differ in formals only. -/
theorem Value.Matches.text {v v' : Value} :
    v.Matches variation world v' → TextAlike variation v.text v'.text
  | .nil | .number _ | .boolean _ | .character _ | .string _ => .same _
  | .symbol hsymbol => by
    rw [Value.text, Value.text, hsymbol.name]
    exact .same _
  | .list hcells => .append (.append (.same _) (.intercalate _ hcells.texts)) (.same _)
  | .function (.primitive _ _) => .same _
  | .function (.closure _ _ hlambdas _ _) => by
    rw [Value.text, Value.text]
    exact .display hlambdas

/-- The texts of lists that correspond are alike. -/
theorem Cells.Matches.texts {c c' : Cells} :
    c.Matches variation world c' → List.Forall₂ (TextAlike variation) c.texts c'.texts
  | .empty => .nil
  | .cell _ hfirst hrest => .cons hfirst.text hrest.texts

end

/-- A new list of corresponding values corresponds if its cells do. -/
theorem Cells.Matches.ofList {values values' : List Value} {first first' : Nat}
    (hvalues : List.Forall₂ (Value.Matches variation world) values values')
    (hobjects : world.objects.InOrder first first' values.length) :
    (ofList first values).Matches variation world (Cells.ofList first' values') := by
  induction hvalues generalizing first first' with
  | nil => exact .empty
  | cons hvalue _ ih => exact .cell hobjects.head hvalue (ih hobjects.tail)

/-! ## Tables -/

namespace Table

variable {α β : Type} {related stronger : α → β → Prop} {scope : Scope} {left : Table α}
  {right : Table β}

/-- Names that stand for each other have related entries, or none and are the same. -/
def Agree (related : α → β → Prop) (scope : Scope) (left : Table α) (right : Table β) : Prop :=
  ∀ name other, scope name other →
    Option.Rel related (left.get? name) (right.get? other) ∧ (left.get? name = none → name = other)

/-- Empty tables agree. -/
theorem agree_empty (h : ∀ name other, scope name other → name = other) :
    Agree related scope (empty : Table α) (empty : Table β) :=
  fun name other hscope => ⟨.none, fun _ => h name other hscope⟩

/-- Tables that agree do so in any wider sense of their entries. -/
theorem Agree.mono (h : Agree stronger scope left right)
    (hrelated : ∀ entry other, stronger entry other → related entry other) :
    Agree related scope left right := by
  intro name other hscope
  refine (h name other hscope).imp_left fun hentries => ?_
  revert hentries
  generalize left.get? name = found, right.get? other = found'
  rintro (hentry | _)
  · exact .some (hrelated _ _ hentry)
  · exact .none

/-- Tables that agree on more names agree on fewer. -/
theorem Agree.of_scope {wider : Scope} (h : Agree related wider left right)
    (hscope : ∀ name other, scope name other → wider name other) :
    Agree related scope left right :=
  fun name other hname => h name other (hscope name other hname)

/-- Entries for two names make these stand for each other. -/
theorem Agree.insert (h : Agree related scope left right) (name other : String) {entry : α}
    {entry' : β} (hentry : related entry entry') :
    Agree related (scope.bind name other) (left.insert name entry) (right.insert other entry') := by
  rintro found found' (⟨rfl, rfl⟩ | ⟨hname, hother, hscope⟩)
  · rw [get?_insert_self, get?_insert_self]
    exact ⟨.some hentry, fun hnone => nomatch hnone⟩
  · rw [get?_insert_of_ne _ _ hname, get?_insert_of_ne _ _ hother]
    exact h found found' hscope

/-- Entries for names that stand for nothing change nothing. -/
theorem Agree.insert_hidden (h : Agree related scope left right) {name : String}
    (hname : ∀ found found', scope found found' → found ≠ name ∧ found' ≠ name) (entry : α)
    (entry' : β) : Agree related scope (left.insert name entry) (right.insert name entry') := by
  intro found found' hscope
  have hne := hname found found' hscope
  rw [get?_insert_of_ne _ _ hne.1, get?_insert_of_ne _ _ hne.2]
  exact h found found' hscope

/-- Where every name stands for itself, entries for the same name change nothing. -/
theorem Agree.insert_same (h : Agree related scope left right)
    (hscope : ∀ found found', scope found found' → found = found') (name : String) {entry : α}
    {entry' : β} (hentry : related entry entry') :
    Agree related scope (left.insert name entry) (right.insert name entry') := by
  apply (h.insert name name hentry).of_scope
  intro found found' hfound
  cases hscope found found' hfound
  by_cases hname : found = name
  · exact .inl ⟨hname, hname⟩
  · exact .inr ⟨hname, hname, hfound⟩

/-- Entries for rows of names make these stand for each other. -/
theorem Agree.insertAll (h : Agree related scope left right) {names others : List String}
    {entries : List α} {entries' : List β} (hentries : List.Forall₂ related entries entries')
    (hnames : names.length ≤ entries.length) (hlength : names.length = others.length) :
    Agree related (scope.enter names others) (left.insertAll (names.zip entries))
      (right.insertAll (others.zip entries')) := by
  induction names generalizing scope left right others entries entries' with
  | nil =>
    cases List.eq_nil_of_length_eq_zero hlength.symm
    exact h
  | cons name names ih =>
    cases others with
    | nil => cases hlength
    | cons other others =>
      cases hentries with
      | nil => cases hnames
      | cons hentry hentries =>
        exact ih (h.insert name other hentry) hentries (Nat.le_of_succ_le_succ hnames)
          (Nat.succ.inj hlength)

end Table

/-! ## Environments -/

/-- Environments in which names that stand for each other are bound to corresponding values, and
names are interned as corresponding symbols. -/
structure Environment.Matches (variation : Variation) (world : World) (scope : Scope)
    (left right : Environment) : Prop where
  bindings : Table.Agree (Value.Matches variation world) scope left.bindings right.bindings
  symbols : Table.Agree (Symbol.Matches world) Eq left.symbols right.symbols

namespace Environment.Matches

variable {scope : Scope} {left right : Environment}

/-- Environments that correspond do so in a later world. -/
theorem mono {after : World} (h : world.Within after)
    (henvironment : left.Matches variation world scope right) :
    left.Matches variation after scope right where
  bindings := henvironment.bindings.mono fun _ _ hvalue => hvalue.mono h
  symbols := henvironment.symbols.mono fun _ _ hsymbol => hsymbol.mono h

/-- The environments of two calls correspond, with their formals standing for each other. -/
theorem enter (h : left.Matches variation world scope right) {formals formals' : List String}
    {arguments arguments' : List Value}
    (harguments : List.Forall₂ (Value.Matches variation world) arguments arguments')
    (hcount : formals.length ≤ arguments.length) (hlength : formals.length = formals'.length) :
    (left.enter formals arguments).Matches variation world (scope.enter formals formals')
      (right.enter formals' arguments') where
  bindings := h.bindings.insertAll harguments hcount hlength
  symbols := h.symbols

/-- A definition on both sides keeps two environments in correspondence. -/
theorem define (h : left.Matches variation world scope right)
    (hscope : ∀ name other, scope name other → name = other) (name : String)
    {value value' : Value} (hvalue : value.Matches variation world value') :
    (left.define name value).Matches variation world scope (right.define name value') where
  bindings := h.bindings.insert_same hscope name hvalue
  symbols := h.symbols

/-- A symbol on both sides keeps two environments in correspondence. -/
theorem addSymbol (h : left.Matches variation world scope right) {symbol symbol' : Symbol}
    (hsymbol : symbol.Matches world symbol') :
    (left.addSymbol symbol).Matches variation world scope (right.addSymbol symbol') where
  bindings := h.bindings
  symbols := by
    unfold Environment.addSymbol
    rw [hsymbol.name]
    exact h.symbols.insert_same (fun _ _ heq => heq) symbol'.name hsymbol

end Environment.Matches

end MiniScheme
