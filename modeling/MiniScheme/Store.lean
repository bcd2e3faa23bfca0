import MiniScheme.Environment

/-!
# The store

Whatever evaluation can change is in the store: the environments by number, the next free
identities, the lines printed so far, and the clock, which is looked at again each time the time
is asked for.

Main results:

- Theorem `environment_update_of_ne`: a change to one environment leaves the others alone.
- Theorem `environment_allocate`: a new environment has a number of its own.
-/

namespace MiniScheme

/-! ## The clock -/

/-- A clock: what it reads each time it is looked at, in milliseconds, and how often it has been
looked at. -/
structure Clock where
  readings : Nat → Int64
  looks : Nat

namespace Clock

/-- A clock that always reads the same. -/
def still (time : Int64) : Clock :=
  ⟨fun _ => time, 0⟩

instance : Coe Int64 Clock :=
  ⟨still⟩

instance (time : Nat) : OfNat Clock time :=
  ⟨still (Int64.ofNat time)⟩

/-- What the clock reads when it is looked at next. -/
def reading (clock : Clock) : Int64 :=
  clock.readings clock.looks

/-- The clock after one more look. -/
def next (clock : Clock) : Clock :=
  { clock with looks := clock.looks + 1 }

end Clock

/-! ## Stores -/

/-- The state of evaluation. -/
structure Store where
  environments : Array Environment
  nextSymbol : Nat
  nextObject : Nat
  printed : Array String
  clock : Clock

namespace Store

/-- The store before anything happened, with a clock. -/
def initial (clock : Clock) : Store :=
  ⟨#[], 0, 0, #[], clock⟩

/-- Look at the clock. -/
def readClock : StateM Store Int64 :=
  modifyGet fun store => (store.clock.reading, { store with clock := store.clock.next })

/-! ## Identities -/

/-- The first of some identities for cells and functions that have not been used. -/
def freshObjects (count : Nat) : StateM Store Nat :=
  modifyGet fun store => (store.nextObject, { store with nextObject := store.nextObject + count })

/-- A symbol that differs from all others. -/
def freshSymbol (name : String) : StateM Store Symbol :=
  modifyGet fun store =>
    (⟨name, store.nextSymbol⟩, { store with nextSymbol := store.nextSymbol + 1 })

/-! ## Environments -/

/-- The environment with a number; there is nothing in one that was never made. -/
def environment (store : Store) (id : EnvironmentId) : Environment :=
  store.environments[id]?.getD .empty

/-- Change one environment. -/
def update (id : EnvironmentId) (change : Environment → Environment) (store : Store) : Store :=
  { store with environments := store.environments.modify id change }

/-- Make an environment and give it the next number. -/
def allocate (environment : Environment) : StateM Store EnvironmentId :=
  modifyGet fun store =>
    (store.environments.size,
      { store with environments := store.environments.push environment })

/-- Make an environment with the primitive functions. -/
def allocateGlobal : StateM Store EnvironmentId := do
  allocate (.global (← freshObjects primitives.length))

/-- Make a child of an environment, as a copy of it. -/
def allocateChild (id : EnvironmentId) : StateM Store EnvironmentId := do
  allocate ((← get).environment id)

/-- The value bound to a name in an environment. -/
def lookup (id : EnvironmentId) (name : String) : StateM Store (Option Value) := do
  return ((← get).environment id).get? name

/-- Bind a value to a name in an environment. -/
def define (id : EnvironmentId) (name : String) (value : Value) : StateM Store Unit :=
  modify (update id (·.define name value))

/-- A change to an environment that is there is made. -/
@[simp]
theorem environment_update_self (store : Store) (id : EnvironmentId)
    (change : Environment → Environment) (h : id < store.environments.size) :
    (store.update id change).environment id = change (store.environment id) := by
  simp [environment, update, Array.getElem_modify_self, h]

/-- A change to one environment leaves the others alone. -/
theorem environment_update_of_ne (store : Store) {id other : EnvironmentId}
    (change : Environment → Environment) (h : other ≠ id) :
    (store.update id change).environment other = store.environment other := by
  simp [environment, update, Array.getElem?_modify, h.symm]

/-- A new environment has a number of its own and leaves the others alone. -/
theorem environment_allocate (store : Store) (new : Environment) {id : EnvironmentId}
    (h : id < store.environments.size) :
    ((allocate new).run store).2.environment id = store.environment id := by
  have : id ≠ store.environments.size := Nat.ne_of_lt h
  simp [allocate, environment, modifyGet, MonadStateOf.modifyGet, StateT.modifyGet, StateT.run,
    Array.getElem?_push, this, pure]

/-- A new environment is found under its number. -/
@[simp]
theorem environment_allocate_self (store : Store) (new : Environment) :
    ((allocate new).run store).2.environment store.environments.size = new := by
  change (store.environments.push new)[store.environments.size]?.getD .empty = new
  simp

/-- One environment is made at a time. -/
@[simp]
theorem size_allocate (store : Store) (new : Environment) :
    ((allocate new).run store).2.environments.size = store.environments.size + 1 :=
  Array.size_push new

/-- A change to an environment makes no other. -/
@[simp]
theorem size_update (store : Store) (id : EnvironmentId) (change : Environment → Environment) :
    (store.update id change).environments.size = store.environments.size := by
  simp [update]

/-! ## Symbols -/

/-- Intern a name as a new symbol, even if it has one. -/
def renewSymbol (id : EnvironmentId) (name : String) : StateM Store Symbol := do
  let symbol ← freshSymbol name
  modify (update id (·.addSymbol symbol))
  return symbol

/-- The symbol of a name, which is made if the environment has none. -/
def intern (id : EnvironmentId) (name : String) : StateM Store Symbol := do
  match ((← get).environment id).symbol? name with
  | some symbol => return symbol
  | none => renewSymbol id name

/-! ## Lists and functions -/

/-- A list with a value in front of another list. -/
def cons (head : Value) (tail : Cells) : StateM Store Cells :=
  return .cell (← freshObjects 1) head tail

/-- A new list of values. -/
def list (values : List Value) : StateM Store Cells :=
  return .ofList (← freshObjects values.length) values

/-- A new closure. -/
def closure (formals : List String) (body : List Expression) (id : EnvironmentId) :
    StateM Store Function :=
  return .closure (← freshObjects 1) formals body id

/-! ## Printing -/

/-- Print a line. -/
def print (line : String) : StateM Store Unit :=
  modify fun store => { store with printed := store.printed.push line }

/-- What has been printed, each line with its end. -/
def output (store : Store) : String :=
  String.join (store.printed.toList.map (· ++ "\n"))

/-- What has been printed since the last time. -/
def takeOutput : StateM Store String :=
  modifyGet fun store => (store.output, { store with printed := #[] })

end Store

end MiniScheme
