import MiniScheme.Evaluation.Basic
import MiniScheme.Form.Reader

/-!
# Reading by rules

A form can also be read with a rule for each construct, where a rule calls the rules of its parts.
What a parenthesis opens is told by the token behind it, so that both are read and handed back, and
the rule that is chosen reads them again.  A counter says how many groups are open.  It is raised
by a rule that takes an opening parenthesis and lowered by one that takes a closing parenthesis, and
a lexical error behind an opening parenthesis raises it as well, since then no rule takes this.

The rules keep books on what they do: which items have been taken and not handed back, and what the
stream and the counters were at each moment.  Nothing depends on the books.  Fuel bounds how deep
rules call each other and how long their rows are, and nothing else.

Main definitions:

- `State`: the stream and the counter of open groups, with the books.
- `expression`, `datum` and `nextForm`: the rules.
- `parseForm` and `parse`: reading one form, and reading all of them.
- `Rule.Ends`: how following a rule ends, with one lemma for each way to put rules together.
-/

namespace MiniScheme

/-- Whether an item is a token of a kind. -/
def Item.hasKind (kind : TokenKind) : Item → Bool
  | .ok token => token.kind = kind
  | .error _ => false

namespace Descent

/-! ## States -/

/-- What is noted in the books. -/
inductive Moment
  /-- An item has been taken from the stream or handed back to it.  These items have been taken
  since the beginning of the source and not handed back, the latest first. -/
  | moved (stream : TokenStream) (kept : List Item)
  /-- A counter of open groups is about to be lowered by one. -/
  | lowering (count : Nat)
  /-- A form has failed: the stream before and after it, the counter, and the items that have been
  taken for the form and not handed back. -/
  | failed (before after : TokenStream) (depth : Nat) (own : List Item)

/-- What rules work on.  The items that have been taken and not handed back are those since the
form began and those before it, the latest first. -/
structure State where
  stream : TokenStream
  depth : Nat
  own : List Item
  earlier : List Item
  moments : List Moment

namespace State

/-- The state at the beginning of a source. -/
def ofSource (source : String) : State :=
  ⟨.ofSource source, 0, [], [], [.moved (.ofSource source) []]⟩

/-- The items that have been taken since the beginning of the source and not handed back. -/
def kept (state : State) : List Item :=
  state.own ++ state.earlier

/-- The state with one more moment in the books. -/
def note (state : State) (moment : Moment) : State :=
  { state with moments := moment :: state.moments }

/-- The state with its stream in the books. -/
def noteStream (state : State) : State :=
  state.note (.moved state.stream state.kept)

/-- The state after the next item. -/
def read (state : State) : State :=
  { state with
    stream := state.stream.next.2
    own := state.stream.next.1 :: state.own }.noteStream

/-- The state with the token handed back that was taken last. -/
def unread (state : State) (token : Token) : State :=
  { state with
    stream := state.stream.handBack token
    own := state.own.tail }.noteStream

/-- One more group is open. -/
def raise (state : State) : State :=
  { state with depth := state.depth + 1 }

/-- One group less is open; the counter does not go below zero. -/
def lower (state : State) : State :=
  { state with depth := state.depth - 1 }.note (.lowering state.depth)

/-- A form begins. -/
def begin (state : State) : State :=
  { state with depth := 0, own := [], earlier := state.kept }

/-- The state with the form that has failed in the books. -/
def noteFailure (state : State) (before : TokenStream) : State :=
  state.note (.failed before state.stream state.depth state.own)

/-- A form is given up. -/
def giveUp (state : State) : State :=
  { state with depth := 0 }

end State

/-! ## Rules -/

/-- Work on a state that may end with an error. -/
abbrev Rule (α : Type) :=
  ExceptT (Stop SyntaxError) (StateM State) α

variable {α : Type}

/-- Follow a rule in a state: how it ended, and the state then. -/
def Rule.on (rule : Rule α) (state : State) : Except (Stop SyntaxError) α × State :=
  (ExceptT.run rule).run state

/-- End with an error. -/
def fail (error : SyntaxError) : Rule α :=
  throw (.failed error)

/-- End for want of fuel. -/
def exhausted : Rule α :=
  throw .exhausted

/-- Follow a rule, and have its error as a value. -/
def attempt (rule : Rule α) : Rule (Except SyntaxError α) :=
  tryCatch (do return .ok (← rule)) fun
    | .failed error => return .error error
    | .exhausted => exhausted

/-- Take the next item. -/
def read : Rule Item := do
  let state ← get
  set state.read
  return state.stream.next.1

/-- Take the next token. -/
def next : Rule Token := do
  match ← read with
  | .ok token => return token
  | .error error => fail (.lexical error)

/-- Hand back the token that was taken last. -/
def unread (token : Token) : Rule Unit :=
  modify (·.unread token)

/-- Fail at the token that was taken last. -/
def unexpected (token : Token) : Rule α := do
  unread token
  fail (.unexpected token)

/-- Take a token of a kind. -/
def expect (kind : TokenKind) : Rule Token := do
  let token ← next
  if token.kind = kind then
    match kind with
    | .openParen => modify State.raise
    | .closeParen => modify State.lower
    | _ => pure ()
    return token
  else
    unread token
    fail (.expected kind token)

/-- Take a token if it is of a kind. -/
def nextOfKind (kind : TokenKind) : Rule (Option Token) := do
  let token ← next
  if token.kind = kind then return some token
  else
    unread token
    return none

/-- Look at the next token. -/
def peek : Rule TokenKind := do
  let token ← next
  unread token
  return token.kind

/-- Take the token behind an opening parenthesis that has been taken.  If there is none the
parenthesis counts as open. -/
def secondToken : Rule Token := do
  match ← read with
  | .ok token => return token
  | .error error =>
    modify State.raise
    fail (.lexical error)

/-- Look at the token behind an opening parenthesis that has been taken, and hand back both. -/
def peekBehind (opening : Token) : Rule TokenKind := do
  let token ← secondToken
  unread token
  unread opening
  return token.kind

/-- Follow a rule for as long as it finds something. -/
def many (rule : Rule (Option α)) : Nat → Rule (List α)
  | 0 => exhausted
  | fuel + 1 => do
    match ← rule with
    | none => return []
    | some value => return value :: (← many rule fuel)

/-! ## Data -/

section Data

variable (fuel : Nat) (datum : Rule Datum)

/-- A datum, if one starts here. -/
def nextDatum : Rule (Option Datum) := do
  if (← peek).startsDatum then return some (← datum)
  else return none

/-- A list of data. -/
def list : Rule Datum := do
  let _ ← expect .openParen
  let items ← many (nextDatum datum) fuel
  let _ ← expect .closeParen
  return .list items

/-- A datum, with a rule for the data in it. -/
def datumWith : Rule Datum := do
  let token ← next
  match token.kind with
  | .openParen =>
    unread token
    list fuel datum
  | kind => if kind.isAtom then return .atom token else unexpected token

end Data

/-- A datum. -/
def datum : Nat → Rule Datum
  | 0 => exhausted
  | fuel + 1 => datumWith fuel (datum fuel)

/-! ## Expressions -/

section Expressions

variable (fuel : Nat) (expression : Rule Expression) (datum : Rule Datum)

/-- An expression, if one starts here. -/
def nextExpression : Rule (Option Expression) := do
  if (← peek).startsExpression then return some (← expression)
  else return none

/-- A head and its arguments. -/
def application : Rule Expression := do
  let _ ← expect .openParen
  let head ← expression
  let arguments ← many (nextExpression expression) fuel
  let _ ← expect .closeParen
  return .application head arguments

/-- A conditional with both of its cases. -/
def conditional : Rule Expression := do
  let _ ← expect .openParen
  let _ ← expect (.keyword .conditional)
  let predicate ← expression
  let consequent ← expression
  let alternative ← expression
  let _ ← expect .closeParen
  return .conditional predicate consequent alternative

/-- The formals of a function. -/
def formals : Rule (List Token) := do
  let _ ← expect .openParen
  let names ← many (nextOfKind .identifier) fuel
  let _ ← expect .closeParen
  return names

/-- The body of a function, which is not empty. -/
def body : Rule (List Expression) := do
  let first ← expression
  let others ← many (nextExpression expression) fuel
  return first :: others

/-- A function. -/
def lambda : Rule Expression := do
  let _ ← expect .openParen
  let _ ← expect (.keyword .lambda)
  let names ← formals fuel
  let expressions ← body fuel expression
  let _ ← expect .closeParen
  return .lambda names expressions

/-- A datum behind a quote mark. -/
def quoted : Rule Expression := do
  let _ ← expect .quoteMark
  return .quoted (← datum)

/-- A datum behind the word that quotes it. -/
def quoteForm : Rule Expression := do
  let _ ← expect .openParen
  let _ ← expect (.keyword .quote)
  let datum ← datum
  let _ ← expect .closeParen
  return .quoted datum

/-- An expression, with rules for the expressions and data in it. -/
def expressionWith : Rule Expression := do
  let token ← next
  match token.kind with
  | .quoteMark =>
    unread token
    quoted datum
  | .openParen =>
    match ← peekBehind token with
    | .keyword .lambda => lambda fuel expression
    | .keyword .conditional => conditional expression
    | .keyword .quote => quoteForm datum
    | _ => application fuel expression
  | kind => if kind.isAtom then return .literal token else unexpected token

end Expressions

/-- An expression. -/
def expression : Nat → Rule Expression
  | 0 => exhausted
  | fuel + 1 => expressionWith fuel (expression fuel) (datum fuel)

/-! ## Forms -/

/-- A definition. -/
def definition (fuel : Nat) : Rule Form := do
  let _ ← expect .openParen
  let _ ← expect (.keyword .define)
  let name ← expect .identifier
  let value ← expression fuel
  let _ ← expect .closeParen
  return .definition name value

/-- A form, if one starts here. -/
def nextForm (fuel : Nat) : Rule (Option Form) := do
  let token ← next
  if token.kind = .openParen then
    match ← peekBehind token with
    | .keyword .define => return some (← definition fuel)
    | _ => return some (.expression (← expression fuel))
  else
    unread token
    return (← nextExpression (expression fuel)).map .expression

/-- A form, or nothing at the end of the source. -/
def formOrEnd (fuel : Nat) : Rule (Option Form) := do
  match ← nextForm fuel with
  | some form => return some form
  | none =>
    let token ← next
    if token.kind = .endOfSource then return none
    else unexpected token

/-- Read one form, or nothing at the end of the source. -/
def parseForm (fuel : Nat) : Rule (Option Form) := do
  let before ← get
  set before.begin
  match ← attempt (formOrEnd fuel) with
  | .ok form? => return form?
  | .error error =>
    modify (·.noteFailure before.stream)
    fail error

/-! ## Recovery -/

/-- Skip the rest of some groups: up to the parenthesis that closes the last of them, or up to the
end of the source. -/
def skip : Nat → Nat → Rule Unit
  | 0, _ => exhausted
  | fuel + 1, opened => do
    match ← read with
    | .error _ => skip fuel opened
    | .ok token =>
      match token.kind with
      | .openParen | .openVector => skip fuel (opened + 1)
      | .closeParen =>
        modify (·.note (.lowering opened))
        if opened - 1 = 0 then return () else skip fuel (opened - 1)
      | .endOfSource => unread token
      | _ => skip fuel opened

/-- Skip the rest of a form that failed with some groups open. -/
def synchronize (fuel opened : Nat) (lexical : Bool) : Rule Unit := do
  if opened = 0 then
    if lexical then return ()
    else
      match ← read with
      | .ok token => if token.kind.isOpening then skip fuel 1 else return ()
      | .error _ => return ()
  else skip fuel opened

/-- Whether a form failed because of a lexical error. -/
def isLexical : SyntaxError → Bool
  | .lexical _ => true
  | _ => false

/-- Give up the form that failed with an error. -/
def recover (fuel : Nat) (error : SyntaxError) : Rule Unit := do
  let state ← get
  set state.giveUp
  synchronize fuel state.depth (isLexical error)

/-- Read all forms: those that are well formed, and the errors of the others. -/
def parse (fuel : Nat) : Nat → Rule (Program × List SyntaxError)
  | 0 => exhausted
  | rounds + 1 => do
    match ← attempt (parseForm fuel) with
    | .ok (some form) =>
      let (forms, errors) ← parse fuel rounds
      return (form :: forms, errors)
    | .ok none => return ([], [])
    | .error error =>
      recover fuel error
      let (forms, errors) ← parse fuel rounds
      return (forms, error :: errors)

/-! ## How rules end -/

/-- Following a rule ends with a value or with an error, and then holds what is said of it. -/
def Rule.Ends (rule : Rule α) (state : State) (done : α → State → Prop)
    (failed : SyntaxError → State → Prop) : Prop :=
  match rule.on state with
  | (.ok value, after) => done value after
  | (.error (.failed error), after) => failed error after
  | (.error .exhausted, _) => False

section Ends

variable {β : Type} {state : State} {done : α → State → Prop} {failed : SyntaxError → State → Prop}

/-- A rule that ends in some way ends in any wider one. -/
theorem Rule.Ends.mono {rule : Rule α} {done' : α → State → Prop}
    {failed' : SyntaxError → State → Prop} (h : rule.Ends state done failed)
    (hdone : ∀ value after, done value after → done' value after)
    (hfailed : ∀ error after, failed error after → failed' error after) :
    rule.Ends state done' failed' := by
  unfold Ends at *
  split at h
  next => exact hdone _ _ h
  next => exact hfailed _ _ h
  next => exact h.elim

/-- Giving a value ends with it at once. -/
theorem ends_pure {value : α} (h : done value state) : Rule.Ends (pure value) state done failed :=
  h

/-- Failing ends with the error at once. -/
theorem ends_fail {error : SyntaxError} (h : failed error state) :
    (fail error : Rule α).Ends state done failed :=
  h

/-- A change of the state ends in the changed state. -/
theorem ends_modify {done : Unit → State → Prop} {change : State → State}
    (h : done () (change state)) : Rule.Ends (modify change) state done failed :=
  h

/-- What changes a state by what it was may be followed from there. -/
theorem ends_get {rule : State → Rule α} (h : (rule state).Ends state done failed) :
    Rule.Ends (do let state ← get; rule state) state done failed :=
  h

/-- Setting the state ends in it. -/
theorem ends_set {done : Unit → State → Prop} {after : State} (h : done () after) :
    Rule.Ends (set after) state done failed :=
  h

/-- Handing a token back ends with the token in front. -/
theorem ends_unread {done : Unit → State → Prop} {token : Token}
    (h : done () (state.unread token)) : (unread token).Ends state done failed :=
  h

/-- Reading ends with the next item and the state behind it. -/
theorem ends_read {done : Item → State → Prop} (h : done state.stream.next.1 state.read) :
    read.Ends state done failed :=
  h

/-- A rule that follows another starts where that one ends, and not at all if it fails. -/
theorem on_bind (first : Rule α) (next : α → Rule β) (state : State) :
    (first >>= next).on state =
      match first.on state with
      | (.ok value, after) => (next value).on after
      | (.error stop, after) => (.error stop, after) := by
  unfold Rule.on
  rw [ExceptT.run_bind, StateT.run_bind]
  rcases (ExceptT.run first).run state with ⟨_ | _, after⟩ <;> rfl

/-- Rules that are followed one after the other end one after the other. -/
theorem ends_bind {first : Rule α} {next : α → Rule β} {done : β → State → Prop}
    (h : first.Ends state (fun value after => (next value).Ends after done failed) failed) :
    (first >>= next).Ends state done failed := by
  unfold Rule.Ends at *
  rw [on_bind]
  revert h
  rcases first.on state with ⟨(_ | _) | _, after⟩ <;> exact id

/-- What comes next is followed from where the first rule ends. -/
theorem Rule.Ends.bind {first : Rule α} {next : α → Rule β} {done' : β → State → Prop}
    (h : first.Ends state done failed)
    (hnext : ∀ value after, done value after → (next value).Ends after done' failed) :
    (first >>= next).Ends state done' failed :=
  ends_bind (h.mono hnext fun _ _ hfails => hfails)

/-- However a rule ends, there is a state then. -/
theorem Rule.Ends.on_snd {rule : Rule α} {holds : State → Prop} (h : rule.Ends state done failed)
    (hdone : ∀ value after, done value after → holds after)
    (hfailed : ∀ error after, failed error after → holds after) : holds (rule.on state).2 := by
  unfold Ends at h
  revert h
  rcases rule.on state with ⟨(_ | _) | _, after⟩
  · exact hfailed _ after
  · exact False.elim
  · exact hdone _ after

/-- A token is taken if it is next. -/
theorem ends_next {token : Token} {done : Token → State → Prop}
    (htoken : state.stream.next.1 = .ok token) (h : done token state.read) :
    next.Ends state done failed := by
  apply ends_bind
  apply ends_read
  rw [htoken]
  exact h

/-- An attempt turns a failure into a value, and leaves the state where the failure left it. -/
theorem on_attempt (rule : Rule α) (state : State) :
    (attempt rule).on state =
      match rule.on state with
      | (.ok value, after) => (.ok (.ok value), after)
      | (.error (.failed error), after) => (.ok (.error error), after)
      | (.error .exhausted, after) => (.error .exhausted, after) := by
  unfold attempt Rule.on
  rw [ExceptT.run_tryCatch, StateT.run_bind, ExceptT.run_bind, StateT.run_bind]
  rcases (ExceptT.run rule).run state with ⟨(_ | _) | _, after⟩ <;> rfl

/-- An error that is had as a value is none. -/
theorem ends_attempt {rule : Rule α} {done : Except SyntaxError α → State → Prop}
    (h : rule.Ends state (fun value => done (.ok value)) fun error => done (.error error)) :
    (attempt rule).Ends state done failed := by
  unfold Rule.Ends at *
  rw [on_attempt]
  revert h
  rcases rule.on state with ⟨(_ | _) | _, after⟩ <;> exact id

end Ends

end Descent

end MiniScheme
