import Mathlib.Data.Set.Basic
import MiniScheme.Proofs.Interning

/-!
# What has been made

Symbols, cells and functions are made with identities that nothing else has been made with.  A
census of a store is an account of all values that have been made, whether anything still refers to
them or not: an identity has one bearer in it, and the identities that are still to come have none.
Whatever is made is added to the census, and nothing is ever taken from it.

Main results:

- Theorem `Store.Census.extend`: new values with identities of their own can be added.
- Theorem `Action.Counts.bind`: two actions in turn count what they make if each does.
-/

namespace MiniScheme

/-! ## Identities -/

/-- An identity of a symbol, or one of a cell or a function. -/
inductive Identity
  | symbol (number : Nat)
  | object (number : Nat)
deriving DecidableEq

/-- The identity of a value, if it has one besides its contents. -/
def Value.identity? : Value → Option Identity
  | .symbol ⟨_, identity⟩ => some (.symbol identity)
  | .list (.cell identity _ _) => some (.object identity)
  | .function (.primitive identity _ _) => some (.object identity)
  | .function (.closure identity _ _ _) => some (.object identity)
  | .nil | .number _ | .boolean _ | .character _ | .string _ | .list .empty => none

/-- The constant of a literal has no identity. -/
@[simp]
theorem Value.identity?_ofLiteral (token : Token) : (ofLiteral token).identity? = none := by
  unfold ofLiteral
  split
  next constant _ => cases constant <;> rfl
  next => rfl

namespace Store

/-- The identity has been used. -/
def Used (store : Store) : Identity → Prop
  | .symbol number => number < store.nextSymbol
  | .object number => number < store.nextObject

/-- All identities that have been used stay so. -/
theorem Used.mono {before after : Store} (hsymbol : before.nextSymbol ≤ after.nextSymbol)
    (hobject : before.nextObject ≤ after.nextObject) {identity : Identity}
    (h : before.Used identity) : after.Used identity := by
  cases identity with
  | symbol number => exact Nat.lt_of_lt_of_le h hsymbol
  | object number => exact Nat.lt_of_lt_of_le h hobject

end Store

/-! ## Censuses -/

/-- What an environment holds is known. -/
structure Environment.Within (environment : Environment) (known : Set Value) : Prop where
  bindings : ∀ {name value}, environment.get? name = some value → value ∈ known
  symbols : ∀ {name symbol}, environment.symbol? name = some symbol → .symbol symbol ∈ known

/-- An account of the values that have been made: it has all values without identities, the parts
of the lists in it, and whatever is in the environments; and each identity in it has been used for
one value. -/
structure Store.Census (store : Store) (known : Set Value) : Prop where
  plain : ∀ {value}, value.identity? = none → value ∈ known
  parts : ∀ {identity head tail}, .list (.cell identity head tail) ∈ known →
    head ∈ known ∧ .list tail ∈ known
  environments : ∀ id, (store.environment id).Within known
  used : ∀ {value identity}, value ∈ known → value.identity? = some identity → store.Used identity
  unique : ∀ {value other identity}, value ∈ known → other ∈ known →
    value.identity? = some identity → other.identity? = some identity → value = other

namespace Environment

variable {environment : Environment} {known later : Set Value}

/-- What is known stays known when there is more. -/
theorem Within.mono (h : environment.Within known) (hlater : known ⊆ later) :
    environment.Within later :=
  ⟨fun hvalue => hlater (h.bindings hvalue), fun hsymbol => hlater (h.symbols hsymbol)⟩

/-- An empty environment holds nothing that is not known. -/
theorem within_empty (known : Set Value) : empty.Within known :=
  ⟨nofun, nofun⟩

/-- A binding to a known value may be added. -/
theorem Within.define (h : environment.Within known) (name : String) {value : Value}
    (hvalue : value ∈ known) : (environment.define name value).Within known := by
  refine ⟨fun {other bound} hbound => ?_, h.symbols⟩
  rw [get?, Environment.define, Table.get?_insert] at hbound
  split at hbound
  · cases hbound
    exact hvalue
  · exact h.bindings hbound

/-- A symbol that is known may be added. -/
theorem Within.addSymbol (h : environment.Within known) {symbol : Symbol}
    (hsymbol : .symbol symbol ∈ known) : (environment.addSymbol symbol).Within known := by
  refine ⟨h.bindings, fun {name found} hfound => ?_⟩
  rw [symbol?, Environment.addSymbol, Table.get?_insert] at hfound
  split at hfound
  · cases hfound
    exact hsymbol
  · exact h.symbols hfound

/-- A call binds its formals to known arguments. -/
theorem Within.enter (h : environment.Within known) (formals : List String)
    {arguments : List Value} (harguments : ∀ argument ∈ arguments, argument ∈ known) :
    (environment.enter formals arguments).Within known := by
  refine ⟨fun {name value} hvalue => ?_, h.symbols⟩
  rcases Table.get?_insertAll_eq_some hvalue with hargument | hbound
  · exact harguments value (List.of_mem_zip hargument).2
  · exact h.bindings hbound

end Environment

namespace Store

variable {store before after : Store} {known made : Set Value}

/-- New values with identities of their own can be added to a census, with the environments that
hold them. -/
theorem Census.extend (h : before.Census known)
    (hsymbol : before.nextSymbol ≤ after.nextSymbol)
    (hobject : before.nextObject ≤ after.nextObject)
    (hmade : ∀ value ∈ made, ∃ identity, value.identity? = some identity ∧
      ¬before.Used identity ∧ after.Used identity)
    (hunique : ∀ value ∈ made, ∀ other ∈ made, value.identity? = other.identity? → value = other)
    (hparts : ∀ identity head tail, .list (.cell identity head tail) ∈ made →
      head ∈ known ∪ made ∧ .list tail ∈ known ∪ made)
    (henvironments : ∀ id, (after.environment id).Within (known ∪ made)) :
    after.Census (known ∪ made) where
  plain hvalue := .inl (h.plain hvalue)
  parts := by
    rintro identity head tail (hknown | hnew)
    · obtain ⟨hhead, htail⟩ := h.parts hknown
      exact ⟨.inl hhead, .inl htail⟩
    · exact hparts identity head tail hnew
  environments := henvironments
  used := by
    rintro value identity (hknown | hnew) hidentity
    · exact (h.used hknown hidentity).mono hsymbol hobject
    · obtain ⟨identity', hidentity', -, hused⟩ := hmade value hnew
      cases hidentity.symm.trans hidentity'
      exact hused
  unique := by
    -- an old value and a new one differ in their identities
    have hne {value other : Value} {identity : Identity} (hknown : value ∈ known)
        (hnew : other ∈ made) (hvalue : value.identity? = some identity)
        (hother : other.identity? = some identity) : False := by
      obtain ⟨identity', hidentity', hunused, -⟩ := hmade other hnew
      cases hother.symm.trans hidentity'
      exact hunused (h.used hknown hvalue)
    rintro value other identity (hvalue | hvalue) (hother | hother) hidentity hidentity'
    · exact h.unique hvalue hother hidentity hidentity'
    · exact (hne hvalue hother hidentity hidentity').elim
    · exact (hne hother hvalue hidentity' hidentity).elim
    · exact hunique value hvalue other hother (hidentity.trans hidentity'.symm)

/-- Nothing need be added if nothing has been made. -/
theorem Census.of_within (h : before.Census known)
    (hsymbol : before.nextSymbol ≤ after.nextSymbol)
    (hobject : before.nextObject ≤ after.nextObject)
    (henvironments : ∀ id, (after.environment id).Within known) : after.Census known where
  plain := h.plain
  parts := h.parts
  environments := henvironments
  used hvalue hidentity := (h.used hvalue hidentity).mono hsymbol hobject
  unique := h.unique

/-- A store with the same environments has the same census. -/
theorem Census.of_same (h : before.Census known) (hsame : before.SameSymbols after)
    (hobject : before.nextObject ≤ after.nextObject) : after.Census known := by
  refine h.of_within (Nat.le_of_eq hsame.nextSymbol.symm) hobject fun id => ?_
  rw [environment, hsame.environments]
  exact h.environments id

/-- A change that only brings in known values keeps the census. -/
theorem Census.update (h : store.Census known) (id : EnvironmentId)
    {change : Environment → Environment}
    (hchange : ∀ environment : Environment, environment.Within known →
      (change environment).Within known) : (store.update id change).Census known := by
  refine h.of_within (Nat.le_refl _) (Nat.le_refl _) fun other => ?_
  rcases store.environment_update_cases id other change with heq | ⟨-, heq⟩
  · exact heq ▸ h.environments other
  · exact heq ▸ hchange _ (h.environments other)

/-- A new environment of known values keeps the census. -/
theorem Census.allocate (h : store.Census known) {new : Environment} (hnew : new.Within known) :
    ((Store.allocate new).run store).2.Census known := by
  refine h.of_within (Nat.le_refl _) (Nat.le_refl _) fun other => ?_
  rcases store.environment_allocate_cases new other with heq | heq
  · rw [heq]
    exact h.environments other
  · rw [heq]
    exact hnew

/-- The environment of a call of known arguments keeps the census. -/
theorem Census.enterCall (h : store.Census known) (captured : EnvironmentId)
    (formals : List String) {arguments : List Value}
    (harguments : ∀ argument ∈ arguments, argument ∈ known) :
    (store.enterCall captured formals arguments).Census known :=
  h.allocate ((h.environments captured).enter formals harguments)

/-- One value with an identity of its own is added.  If it is a cell, its parts are known. -/
theorem Census.insert (h : before.Census known) {value : Value} {identity : Identity}
    (hidentity : value.identity? = some identity)
    (hcell : ∀ identity head tail, value = .list (.cell identity head tail) →
      head ∈ known ∧ .list tail ∈ known)
    (hsymbol : before.nextSymbol ≤ after.nextSymbol)
    (hobject : before.nextObject ≤ after.nextObject)
    (hunused : ¬before.Used identity) (hused : after.Used identity)
    (henvironments : ∀ id, (after.environment id).Within (known ∪ {value})) :
    after.Census (known ∪ {value}) := by
  apply h.extend hsymbol hobject
  · rintro _ rfl
    exact ⟨identity, hidentity, hunused, hused⟩
  · rintro _ rfl _ rfl -
    rfl
  · rintro identity head tail hvalue
    obtain ⟨hhead, htail⟩ := hcell identity head tail hvalue.symm
    exact ⟨.inl hhead, .inl htail⟩
  · exact henvironments

/-- Nothing has been made in the beginning, but what has no identity is there. -/
theorem census_initial (clock : Clock) :
    (initial clock).Census {value | value.identity? = none} where
  plain := id
  parts := nofun
  environments _ := Environment.within_empty _
  used hvalue hidentity := by
    cases hvalue.symm.trans hidentity
  unique hvalue _ hidentity _ := by
    cases hvalue.symm.trans hidentity

/-! ## New values -/

/-- A new symbol is added, whether or not it becomes an entry. -/
theorem Census.freshSymbol (h : store.Census known) (name : String) :
    ((Store.freshSymbol name).run store).2.Census (known ∪ {.symbol ⟨name, store.nextSymbol⟩}) := by
  refine h.insert rfl ?_ (Nat.le_succ _) (Nat.le_refl _) (Nat.lt_irrefl store.nextSymbol)
    (Nat.lt_succ_self store.nextSymbol) ?_
  · rintro identity head tail ⟨⟩
  · exact fun id => (h.environments id).mono Set.subset_union_left

/-- A symbol that is made is added. -/
theorem Census.mint (h : store.Census known) (id : EnvironmentId) (name : String) :
    (store.mint id name).Census (known ∪ {.symbol ⟨name, store.nextSymbol⟩}) :=
  (h.freshSymbol name).update id fun _ hwithin => hwithin.addSymbol (.inr rfl)

/-- The store after some identities for cells and functions have been used. -/
def useObjects (store : Store) (count : Nat) : Store :=
  { store with nextObject := store.nextObject + count }

/-- A new function is added. -/
theorem Census.function (h : store.Census known) {function : Function}
    (hidentity : (Value.function function).identity? = some (.object store.nextObject)) :
    (store.useObjects 1).Census (known ∪ {.function function}) := by
  refine h.insert hidentity ?_ (Nat.le_refl _) (Nat.le_succ _) (Nat.lt_irrefl store.nextObject)
    (Nat.lt_succ_self store.nextObject) ?_
  · rintro identity head tail ⟨⟩
  · exact fun id => (h.environments id).mono Set.subset_union_left

/-- A new cell is added in front of a list. -/
theorem Census.cons (h : store.Census known) {head : Value} {tail : Cells} (hhead : head ∈ known)
    (htail : .list tail ∈ known) :
    (store.useObjects 1).Census (known ∪ {.list (.cell store.nextObject head tail)}) := by
  refine h.insert rfl ?_ (Nat.le_refl _) (Nat.le_succ _) (Nat.lt_irrefl store.nextObject)
    (Nat.lt_succ_self store.nextObject) ?_
  · rintro identity head tail ⟨⟩
    exact ⟨hhead, htail⟩
  · exact fun id => (h.environments id).mono Set.subset_union_left

/-- The ends of a new list of values. -/
def newLists (store : Store) (values : List Value) : Set Value :=
  {value | ∃ index < values.length,
    value = .list (.ofList (store.nextObject + index) (values.drop index))}

/-- The end of a new list from any place on is known once the list is, and the empty one before. -/
theorem list_mem_newLists (store : Store) {known : Set Value} (hempty : .list .empty ∈ known)
    (values : List Value) (index : Nat) :
    .list (.ofList (store.nextObject + index) (values.drop index)) ∈
      known ∪ store.newLists values := by
  rcases Nat.lt_or_ge index values.length with hlt | hge
  · exact .inr ⟨index, hlt, rfl⟩
  · rw [List.drop_eq_nil_of_le hge]
    exact .inl hempty

/-- A new list is added with all its ends. -/
theorem Census.list (h : store.Census known) {values : List Value}
    (hvalues : ∀ value ∈ values, value ∈ known) :
    (store.useObjects values.length).Census (known ∪ store.newLists values) := by
  have hcell {index : Nat} (hindex : index < values.length) :
      Cells.ofList (store.nextObject + index) (values.drop index) =
        .cell (store.nextObject + index) values[index]
          (.ofList (store.nextObject + (index + 1)) (values.drop (index + 1))) := by
    rw [List.drop_eq_getElem_cons hindex]
    rfl
  refine h.extend (Nat.le_refl _) (Nat.le_add_right _ _) ?_ ?_ ?_ ?_
  · rintro _ ⟨index, hindex, rfl⟩
    rw [hcell hindex]
    exact ⟨_, rfl, Nat.not_lt.2 (Nat.le_add_right _ _), Nat.add_lt_add_left hindex _⟩
  · rintro _ ⟨index, hindex, rfl⟩ _ ⟨index', hindex', rfl⟩ hidentity
    rw [hcell hindex, hcell hindex'] at hidentity
    have heq : index = index' := by simpa [Value.identity?] using hidentity
    rw [heq]
  · rintro identity head tail ⟨index, hindex, hlist⟩
    rw [hcell hindex] at hlist
    cases hlist
    refine ⟨.inl (hvalues _ (List.getElem_mem hindex)), ?_⟩
    exact store.list_mem_newLists (h.plain rfl) values (index + 1)
  · exact fun id => (h.environments id).mono Set.subset_union_left

/-- The functions of a new environment of the primitive functions. -/
def newPrimitives (store : Store) : Set Value :=
  {value | ∃ index name procedure, primitives[index]? = some (name, procedure) ∧
    value = .function (.primitive (store.nextObject + index) name procedure)}

/-- The primitive functions of a new environment are added. -/
theorem Census.allocateGlobal (h : store.Census known) :
    (Store.allocateGlobal.run store).2.Census (known ∪ store.newPrimitives) := by
  have hmade : (store.useObjects primitives.length).Census (known ∪ store.newPrimitives) := by
    refine h.extend (Nat.le_refl _) (Nat.le_add_right _ _) ?_ ?_ ?_ ?_
    · rintro _ ⟨index, name, procedure, hindex, rfl⟩
      have hlt := (List.getElem?_eq_some_iff.1 hindex).1
      exact ⟨_, rfl, Nat.not_lt.2 (Nat.le_add_right _ _), Nat.add_lt_add_left hlt _⟩
    · rintro _ ⟨index, name, procedure, hindex, rfl⟩ _ ⟨index', name', procedure', hindex', rfl⟩ heq
      obtain rfl : index = index' := by simpa [Value.identity?] using heq
      cases hindex.symm.trans hindex'
      rfl
    · rintro identity head tail ⟨index, name, procedure, -, ⟨⟩⟩
    · exact fun id => (h.environments id).mono Set.subset_union_left
  refine hmade.allocate ⟨fun {name value} hvalue => ?_, nofun⟩
  rcases Table.get?_insertAll_eq_some hvalue with hprimitive | hempty
  · obtain ⟨index, procedure, hindex, rfl⟩ :=
      Environment.getElem?_of_mem_primitiveBindings hprimitive
    exact .inr ⟨index, name, procedure, hindex, rfl⟩
  · cases hempty

end Store

/-! ## Actions -/

namespace Action

variable {ε α β γ : Type} {known : Set Value} {store : Store}

/-- An action counts what it makes: the census of the store can be extended to one of the store that
it leaves, where the value that it ends with is good. -/
def Counts (good : α → Set Value → Prop) (action : Action ε α) (known : Set Value)
    (store : Store) : Prop :=
  ∃ later, known ⊆ later ∧ (action.runOn store).2.Census later ∧
    ∀ value, (action.runOn store).1 = .ok value → good value later

/-- An action that counts what it makes and ends with a value that is known then. -/
abbrev CountsValue (action : Action ε Value) (known : Set Value) (store : Store) : Prop :=
  action.Counts (· ∈ ·) known store

namespace Counts

variable {good : α → Set Value → Prop}

/-- Giving a value makes nothing. -/
theorem pure (h : store.Census known) {value : α} (hgood : good value known) :
    Counts good (Pure.pure value : Action ε α) known store := by
  refine ⟨known, subset_rfl, h, ?_⟩
  rintro _ ⟨⟩
  exact hgood

/-- Failing makes nothing. -/
theorem fail (h : store.Census known) {error : ε} :
    Counts good (Action.fail error) known store := by
  refine ⟨known, subset_rfl, h, ?_⟩
  rintro _ ⟨⟩

/-- Going on too long makes nothing. -/
theorem exhausted (h : store.Census known) :
    Counts good (Action.exhausted : Action ε α) known store := by
  refine ⟨known, subset_rfl, h, ?_⟩
  rintro _ ⟨⟩

/-- A result that is known makes nothing. -/
theorem ofExcept (h : store.Census known) {result : Except ε α}
    (hgood : ∀ value, result = .ok value → good value known) :
    Counts good (Action.ofExcept result) known store := by
  cases result with
  | ok value => exact pure h (hgood value rfl)
  | error error => exact fail h

/-- Work on the store alone cannot fail. -/
theorem lift {action : StateM Store α} {later : Set Value} (hlater : known ⊆ later)
    (h : (action.run store).2.Census later) (hgood : good (action.run store).1 later) :
    Counts good (liftM action : Action ε α) known store := by
  refine ⟨later, hlater, h, ?_⟩
  rintro _ ⟨⟩
  exact hgood

/-- The second of two actions goes on with the census that the first one leaves. -/
theorem bind (between : α → Set Value → Prop) {good : β → Set Value → Prop} {first : Action ε α}
    {next : α → Action ε β} (h : first.Counts between known store)
    (hnext : ∀ value later after, known ⊆ later → after.Census later → between value later →
      (next value).Counts good later after) : (first >>= next).Counts good known store := by
  obtain ⟨middle, hmiddle, hcensus, hvalue⟩ := h
  have hrun := runOn_bind first next store
  cases hfirst : first.runOn store with
  | mk result after =>
    rw [hfirst] at hrun hcensus hvalue
    cases result with
    | ok value =>
      obtain ⟨later, hlater, hrest⟩ := hnext value middle after hmiddle hcensus (hvalue value rfl)
      refine ⟨later, hmiddle.trans hlater, ?_⟩
      rwa [hrun]
    | error stop =>
      refine ⟨middle, hmiddle, ?_⟩
      rw [hrun]
      exact ⟨hcensus, nofun⟩

/-- A row of actions finds values that are all known in the end. -/
theorem mapM {action : γ → Action ε Value} (items : List γ) (h : store.Census known)
    (hitem : ∀ item ∈ items, ∀ later after, known ⊆ later → after.Census later →
      (action item).CountsValue later after) :
    Counts (fun values later => ∀ value ∈ values, value ∈ later) (items.mapM action) known
      store := by
  induction items generalizing known store with
  | nil => exact pure h (by simp)
  | cons item items ih =>
    rw [List.mapM_cons]
    apply bind (· ∈ ·) (hitem item List.mem_cons_self known store subset_rfl h)
    intro value middle after hmiddle hcensus hvalue
    apply bind _ (ih hcensus fun other hother later last hlater =>
      hitem other (List.mem_cons_of_mem item hother) later last (hmiddle.trans hlater))
    intro values later last hlater hlast hvalues
    exact pure hlast (List.forall_mem_cons.2 ⟨hlater hvalue, hvalues⟩)

/-- The last of a row of values is known if each of them is. -/
theorem foldlM {action : Value → γ → Action ε Value} (items : List γ) {first : Value}
    (h : store.Census known) (hfirst : first ∈ known)
    (hitem : ∀ item ∈ items, ∀ value later after, known ⊆ later → after.Census later →
      value ∈ later → (action value item).CountsValue later after) :
    CountsValue (items.foldlM action first) known store := by
  induction items generalizing first known store with
  | nil => exact pure h hfirst
  | cons item items ih =>
    rw [List.foldlM_cons]
    apply bind (· ∈ ·) (hitem item List.mem_cons_self first known store subset_rfl h hfirst)
    intro value middle after hmiddle hcensus hvalue
    exact ih hcensus hvalue fun other hother value later last hlater =>
      hitem other (List.mem_cons_of_mem item hother) value later last (hmiddle.trans hlater)

end Counts

end Action

end MiniScheme
