import Mathlib.Data.List.Nodup
import MiniScheme.Proofs.ArgumentPositions
import MiniScheme.Proofs.ExactArithmetic
import MiniScheme.Proofs.Primitives

/-!
# The errors of the primitive functions

A primitive function announces how many arguments it takes, of which kind they all are, and what it
does with them.  Whatever it is called with, a wrong number of arguments is reported first, then
the first argument of a wrong kind, then an empty list that has no parts, and only then what goes
wrong in arithmetic.

Main results:

- Theorem `Procedure.call_ends`: a guarded procedure ends as its signature says.
- Theorem `Signature.Ends.decides`: each error is reported under one condition.
- Theorem `Environment.primitives_decide`: this for all primitive functions, which never take an
  argument that is not there.
-/

namespace MiniScheme

/-! ## Signatures -/

/-- What a primitive function announces: how many arguments it takes, of which kind they all are if
they must be of one kind, and the part of a list or the operation that it is for, if any. -/
structure Signature where
  arity : Arity
  kind : Option ValueKind
  selector : Option Selector
  operator : Option Operator
deriving DecidableEq

/-- The signatures of the primitive functions. -/
def signatures : List (String × Signature) :=
  [("+", ⟨.atLeast 0, some .number, none, some .add⟩),
   ("-", ⟨.atLeast 1, some .number, none, some .subtract⟩),
   ("*", ⟨.atLeast 0, some .number, none, some .multiply⟩),
   ("/", ⟨.atLeast 1, some .number, none, some .divide⟩),
   ("=", ⟨.exactly 2, some .number, none, none⟩),
   (">=", ⟨.exactly 2, some .number, none, none⟩),
   ("<=", ⟨.exactly 2, some .number, none, none⟩),
   (">", ⟨.exactly 2, some .number, none, none⟩),
   ("<", ⟨.exactly 2, some .number, none, none⟩),
   ("and", ⟨.atLeast 0, some .boolean, none, none⟩),
   ("or", ⟨.atLeast 0, some .boolean, none, none⟩),
   ("not", ⟨.exactly 1, some .boolean, none, none⟩),
   ("car", ⟨.exactly 1, some .list, some .car, none⟩),
   ("cdr", ⟨.exactly 1, some .list, some .cdr, none⟩),
   ("null?", ⟨.exactly 1, none, none, none⟩),
   ("eq?", ⟨.exactly 2, none, none, none⟩),
   ("p", ⟨.atLeast 0, none, none, none⟩),
   ("time", ⟨.exactly 0, none, none, none⟩)]

namespace Signature

/-- There is nothing against some arguments. -/
structure Admits (signature : Signature) (arguments : List Value) : Prop where
  count : signature.arity.admits arguments.length = true
  kind : ∀ kind, signature.kind = some kind → firstOther? kind 1 arguments = none
  nonempty : ∀ selector, signature.selector = some selector → arguments ≠ [.list .empty]

/-- How a call ends for what its arguments are.  Each condition comes with the only error that is
reported under it. -/
structure Decides (signature : Signature) (arguments : List Value)
    (result : Except (Stop EvalError) Value) : Prop where
  arityMismatch : ∀ expected given,
    result = .error (.failed (.arityMismatch expected given)) ↔
      signature.arity.admits arguments.length = false ∧
        expected = signature.arity ∧ given = arguments.length
  typeMismatch : ∀ place expected found,
    result = .error (.failed (.typeMismatch place expected found)) ↔
      signature.arity.admits arguments.length = true ∧ signature.kind = some expected ∧
        ∃ value index, firstOther? expected 1 arguments = some (value, index) ∧
          place = .argument index ∧ found = value.kind
  emptyList : ∀ selector,
    result = .error (.failed (.emptyList selector)) ↔
      signature.selector = some selector ∧ arguments = [.list .empty]
  divisionByZero :
    result = .error (.failed .divisionByZero) → signature.operator = some .divide
  overflow : ∀ operator,
    result = .error (.failed (.overflow operator)) → signature.operator = some operator
  undefinedIdentifier : ∀ name, result ≠ .error (.failed (.undefinedIdentifier name))
  notCallable : ∀ text, result ≠ .error (.failed (.notCallable text))
  value : signature.Admits arguments →
    (∃ value, result = .ok value) ∨ ∃ operator, signature.operator = some operator ∧
      (result = .error (.failed (.overflow operator)) ∨
        operator = .divide ∧ result = .error (.failed .divisionByZero))
  terminates : result ≠ .error .exhausted

/-- The ways in which a call can end, in the order in which they are looked at. -/
inductive Ends (signature : Signature) (arguments : List Value) :
    Except (Stop EvalError) Value → Prop
  | count (h : signature.arity.admits arguments.length = false) :
    Ends signature arguments
      (.error (.failed (.arityMismatch signature.arity arguments.length)))
  | kind {kind : ValueKind} {value : Value} {index : Nat}
    (hcount : signature.arity.admits arguments.length = true)
    (hkind : signature.kind = some kind)
    (hfirst : firstOther? kind 1 arguments = some (value, index)) :
    Ends signature arguments (.error (.failed (.typeMismatch (.argument index) kind value.kind)))
  | empty {selector : Selector} (hkind : signature.kind = some .list)
    (hselector : signature.selector = some selector) (harguments : arguments = [.list .empty])
    (hcount : signature.arity.admits arguments.length = true) :
    Ends signature arguments (.error (.failed (.emptyList selector)))
  | overflow {operator : Operator} (h : signature.Admits arguments)
    (hoperator : signature.operator = some operator) :
    Ends signature arguments (.error (.failed (.overflow operator)))
  | divisionByZero (h : signature.Admits arguments)
    (hoperator : signature.operator = some .divide) :
    Ends signature arguments (.error (.failed .divisionByZero))
  | value {value : Value} (h : signature.Admits arguments) : Ends signature arguments (.ok value)

/-- A part is only taken of a single argument, which is a list. -/
def Sound (signature : Signature) : Prop :=
  signature.selector = none ∨ signature.arity = .exactly 1 ∧ signature.kind = some .list

instance (signature : Signature) : Decidable signature.Sound :=
  inferInstanceAs (Decidable (_ ∨ _))

end Signature

/-! ## What procedures announce -/

/-- The operator that an operation on numbers applies, if it is one of arithmetic. -/
def NumericOperation.operator? : NumericOperation → Option Operator
  | arithmetic operator => some operator
  | comparison _ | list => none

namespace Procedure

/-- What a procedure announces. -/
def signature : Procedure → Signature
  | counted arity inner => { inner.signature with arity }
  | numeric operation => ⟨.atLeast 0, some .number, none, operation.operator?⟩
  | boolean _ => ⟨.atLeast 0, some .boolean, none, none⟩
  | general (.select selector) => ⟨.atLeast 0, some .list, some selector, none⟩
  | general _ => ⟨.atLeast 0, none, none, none⟩

/-- Without a check on their number there may be any number of arguments. -/
theorem arity_signature {procedure : Procedure} (h : procedure.isCounted = false) :
    { procedure.signature with arity := .atLeast 0 } = procedure.signature := by
  cases procedure with
  | counted arity inner => cases h
  | general operation => cases operation <;> rfl
  | _ => rfl

end Procedure

/-! ## How calls end -/

/-- An operator overflows, or it is division and its divisor is zero, or it gives a number. -/
theorem Operator.apply_cases {operator : Operator} {numbers : List Int64}
    (h : operator.takes.admits numbers.length = true) :
    (∃ n, operator.apply numbers = .ok n) ∨
      operator.apply numbers = .error (.overflow operator) ∨
      operator = .divide ∧ operator.apply numbers = .error .divisionByZero := by
  cases operator with
  | add =>
    rcases apply_add_cases numbers with ⟨-, n, hn, -⟩ | ⟨-, hoverflow⟩
    · exact .inl ⟨n, hn⟩
    · exact .inr (.inl hoverflow)
  | multiply =>
    rcases apply_multiply_cases numbers with ⟨-, n, hn, -⟩ | ⟨-, hoverflow⟩
    · exact .inl ⟨n, hn⟩
    · exact .inr (.inl hoverflow)
  | subtract =>
    obtain ⟨first, rest, rfl⟩ := exists_of_admits_some h
    rcases apply_subtract_cases first rest with ⟨-, n, hn, -⟩ | ⟨-, hoverflow⟩
    · exact .inl ⟨n, hn⟩
    · exact .inr (.inl hoverflow)
  | divide =>
    obtain ⟨first, rest, rfl⟩ := exists_of_admits_some h
    rcases apply_divide_cases first rest with
      ⟨-, hoverflow⟩ | ⟨-, ⟨-, hzero⟩ | ⟨-, -, hoverflow⟩ | ⟨-, -, n, hn, -⟩⟩
    · exact .inr (.inl hoverflow)
    · exact .inr (.inr ⟨rfl, hzero⟩)
    · exact .inr (.inl hoverflow)
    · exact .inl ⟨n, hn⟩

/-- An operation on numbers gives a value, or fails as its operator does. -/
theorem NumericOperation.call_ends {operation : NumericOperation} {numbers : List Int64}
    {signature : Signature} {arguments : List Value} (h : signature.Admits arguments)
    (hoperator : signature.operator = operation.operator?)
    (hnumbers : operation.takes.admits numbers.length = true) (store : Store) :
    signature.Ends arguments ((operation.call numbers).runOn store).1 := by
  cases operation with
  | arithmetic operator =>
    rw [call]
    rcases Operator.apply_cases hnumbers with ⟨n, hn⟩ | hoverflow | ⟨rfl, hzero⟩
    · rw [hn]
      exact .value h
    · rw [hoverflow]
      exact .overflow h hoperator
    · rw [hzero]
      exact .divisionByZero h hoperator
  | comparison relation =>
    obtain ⟨left, right, rfl⟩ := exists_of_admits_two hnumbers
    exact .value h
  | list => exact .value h

/-- On arguments of its kind an operation on booleans ends as its signature says. -/
theorem BooleanOperation.call_ends {operation : BooleanOperation} {booleans : List Bool}
    {signature : Signature} {arguments : List Value} (h : signature.Admits arguments)
    (hbooleans : operation.takes.admits booleans.length = true) (store : Store) :
    signature.Ends arguments ((operation.call booleans).runOn store).1 := by
  cases operation with
  | negation =>
    obtain ⟨operand, rfl⟩ := exists_of_admits_one hbooleans
    exact .value h
  | _ => exact .value h

/-- The arguments are read before an operation, which may rely on there being nothing against
them. -/
theorem Signature.ends_of_readArguments {α : Type} {kind : ValueKind} {read? : Value → Option α}
    {operation : List α → Evaluation Value} {signature : Signature} {arguments : List Value}
    {store : Store} (hread : ∀ value, (read? value).isSome = true ↔ value.kind = kind)
    (hcount : signature.arity.admits arguments.length = true)
    (hkind : signature.kind = some kind) (hselector : signature.selector = none)
    (h : ∀ contents : List α, contents.length = arguments.length → signature.Admits arguments →
      signature.Ends arguments ((operation contents).runOn store).1) :
    signature.Ends arguments
      ((do operation (← Action.ofExcept (readArguments kind read? 1 arguments)) :
        Evaluation Value).runOn store).1 := by
  rcases readArguments_cases hread 1 arguments with
    ⟨contents, hcontents, hlength, hnone⟩ | ⟨value, index, hfirst, herror⟩
  · rw [hcontents]
    refine h contents hlength ⟨hcount, fun other hother => ?_, fun selector hsome => ?_⟩
    · rw [hkind] at hother
      cases hother
      exact hnone
    · rw [hselector] at hsome
      cases hsome
  · rw [herror]
    exact .kind hcount hkind hfirst

namespace Procedure

/-- A procedure that does not check the number of its arguments ends as its signature says, under
any arity that keeps this number in bounds. -/
theorem call_ends_of_takes {procedure : Procedure} {arguments : List Value} {arity : Arity}
    (hopen : procedure.isCounted = false)
    (harity : arity.admits arguments.length = true)
    (htakes : procedure.takes.admits arguments.length = true) (store : Store) :
    { procedure.signature with arity }.Ends arguments
      ((procedure.call arguments).runOn store).1 := by
  cases procedure with
  | counted arity inner => cases hopen
  | numeric operation =>
    refine Signature.ends_of_readArguments Value.isSome_number?_iff harity rfl rfl ?_
    intro numbers hlength hadmits
    exact operation.call_ends hadmits rfl (hlength ▸ htakes) store
  | boolean operation =>
    refine Signature.ends_of_readArguments Value.isSome_boolean?_iff harity rfl rfl ?_
    intro booleans hlength hadmits
    exact operation.call_ends hadmits (hlength ▸ htakes) store
  | general operation =>
    -- an operation on values of any kind gives a value whatever they are
    have hany (h : (general operation).signature.kind = none ∧
        (general operation).signature.selector = none) :
        { (general operation).signature with arity }.Admits arguments := by
      refine ⟨harity, fun kind hkind => ?_, fun selector hselector => ?_⟩
      · cases h.1.symm.trans hkind
      · cases h.2.symm.trans hselector
    cases operation with
    | select selector =>
      obtain ⟨value, rfl⟩ := exists_of_admits_one htakes
      cases value with
      | list cells =>
        cases cells with
        | empty => cases selector <;> exact .empty rfl rfl rfl harity
        | cell identity head tail =>
          have hadmits : { (general (.select selector)).signature with arity }.Admits
              [.list (.cell identity head tail)] := by
            refine ⟨harity, ?_, fun _ _ => by simp⟩
            rintro _ ⟨⟩
            rfl
          cases selector <;> exact .value hadmits
      | _ => exact .kind harity rfl rfl
    | isNull =>
      obtain ⟨value, rfl⟩ := exists_of_admits_one htakes
      cases value <;> exact .value (hany ⟨rfl, rfl⟩)
    | isEq =>
      obtain ⟨left, right, rfl⟩ := exists_of_admits_two htakes
      exact .value (hany ⟨rfl, rfl⟩)
    | _ => exact .value (hany ⟨rfl, rfl⟩)

/-- A guarded procedure ends as its signature says. -/
theorem call_ends {procedure : Procedure} (h : procedure.guarded = true) (arguments : List Value)
    (store : Store) :
    procedure.signature.Ends arguments ((procedure.call arguments).runOn store).1 := by
  rcases guarded_cases h with ⟨hopen, hwithin⟩ | ⟨arity, inner, rfl, hopen, hwithin⟩
  · rw [← arity_signature hopen]
    have hcount := Arity.admits_any arguments.length
    exact call_ends_of_takes hopen hcount (Arity.admits_of_within hwithin hcount) store
  · rw [call]
    split
    next hcount =>
      exact call_ends_of_takes hopen hcount (Arity.admits_of_within hwithin hcount) store
    next hcount => exact .count (Bool.not_eq_true _ ▸ hcount)

end Procedure

namespace Signature

variable {signature : Signature} {arguments : List Value}
  {result : Except (Stop EvalError) Value}

/-- A call ends with a wrong number of arguments exactly if there is one. -/
theorem Ends.arityMismatch_iff (h : signature.Ends arguments result) (expected : Arity)
    (given : Nat) :
    result = .error (.failed (.arityMismatch expected given)) ↔
      signature.arity.admits arguments.length = false ∧
        expected = signature.arity ∧ given = arguments.length := by
  cases h with
  | count h => simp [h, eq_comm]
  | kind hcount => simp [hcount]
  | empty _ _ _ hcount => simp [hcount]
  | overflow h => simp [h.count]
  | divisionByZero h => simp [h.count]
  | value h => simp [h.count]

/-- Nothing against the arguments includes that all of them are of the announced kind. -/
theorem Admits.not_other (h : signature.Admits arguments) {kind : ValueKind} {value : Value}
    {index : Nat} (hkind : signature.kind = some kind) :
    firstOther? kind 1 arguments ≠ some (value, index) := by
  rw [h.kind kind hkind]
  exact nofun

/-- With enough arguments a call ends with a wrong kind exactly at the first argument of another
kind. -/
theorem Ends.typeMismatch_iff (h : signature.Ends arguments result) (place : TypedPlace)
    (expected found : ValueKind) :
    result = .error (.failed (.typeMismatch place expected found)) ↔
      signature.arity.admits arguments.length = true ∧ signature.kind = some expected ∧
        ∃ value index, firstOther? expected 1 arguments = some (value, index) ∧
          place = .argument index ∧ found = value.kind := by
  have hnone (h : signature.Admits arguments) : ¬(signature.kind = some expected ∧
      ∃ value index, firstOther? expected 1 arguments = some (value, index) ∧
        place = .argument index ∧ found = value.kind) := by
    rintro ⟨hkind, value, index, hfirst, -⟩
    exact h.not_other hkind hfirst
  cases h with
  | count h => simp [h]
  | kind hcount hkind hfirst =>
    constructor
    · rintro ⟨⟩
      exact ⟨hcount, hkind, _, _, hfirst, rfl, rfl⟩
    · rintro ⟨-, hother, value, index, hvalue, rfl, rfl⟩
      cases hkind.symm.trans hother
      cases hfirst.symm.trans hvalue
      rfl
  | empty hkind hselector harguments hcount =>
    subst harguments
    constructor
    · rintro ⟨⟩
    · rintro ⟨-, hother, value, index, hvalue, -⟩
      cases hkind.symm.trans hother
      cases hvalue
  | overflow h => simpa using fun _ => hnone h
  | divisionByZero h => simpa using fun _ => hnone h
  | value h => simpa using fun _ => hnone h

/-- A call ends with an empty list exactly if it selects from one. -/
theorem Ends.emptyList_iff (h : signature.Ends arguments result) (hsound : signature.Sound)
    (selector : Selector) :
    result = .error (.failed (.emptyList selector)) ↔
      signature.selector = some selector ∧ arguments = [.list .empty] := by
  have hnone (h : signature.Admits arguments) :
      ¬(signature.selector = some selector ∧ arguments = [.list .empty]) :=
    fun ⟨hselector, harguments⟩ => h.nonempty selector hselector harguments
  have hlist (hselector : signature.selector = some selector) :
      signature.arity = .exactly 1 ∧ signature.kind = some .list :=
    hsound.resolve_left (by simp [hselector])
  cases h with
  | count h =>
    refine ⟨nofun, ?_⟩
    rintro ⟨hselector, rfl⟩
    rw [(hlist hselector).1] at h
    cases h
  | kind hcount hkind hfirst =>
    refine ⟨nofun, ?_⟩
    rintro ⟨hselector, rfl⟩
    cases hkind.symm.trans (hlist hselector).2
    cases hfirst
  | empty hkind hselector harguments hcount => simp [hselector, harguments, eq_comm]
  | overflow h => simpa using hnone h
  | divisionByZero h => simpa using hnone h
  | value h => simpa using hnone h

/-- The ways in which a call can end exclude each other. -/
theorem Ends.decides (h : signature.Ends arguments result) (hsound : signature.Sound) :
    signature.Decides arguments result where
  arityMismatch := h.arityMismatch_iff
  typeMismatch := h.typeMismatch_iff
  emptyList := h.emptyList_iff hsound
  divisionByZero := by
    rintro rfl
    cases h with
    | divisionByZero _ hoperator => exact hoperator
  overflow := by
    rintro operator rfl
    cases h with
    | overflow _ hoperator => exact hoperator
  undefinedIdentifier := by
    rintro name rfl
    cases h
  notCallable := by
    rintro text rfl
    cases h
  value hadmits := by
    cases h with
    | count hcount => cases hcount.symm.trans hadmits.count
    | kind _ hkind hfirst => exact absurd hfirst (hadmits.not_other hkind)
    | empty _ hselector harguments => exact absurd harguments (hadmits.nonempty _ hselector)
    | overflow _ hoperator => exact .inr ⟨_, hoperator, .inl rfl⟩
    | divisionByZero _ hoperator => exact .inr ⟨.divide, hoperator, .inr ⟨rfl, rfl⟩⟩
    | value => exact .inl ⟨_, rfl⟩
  terminates := by
    rintro rfl
    cases h

end Signature

/-! ## The primitive functions -/

/-- The primitive functions announce what their signatures say. -/
theorem map_signature_primitives :
    primitives.map (fun (name, procedure) => (name, procedure.signature)) = signatures := by
  decide

/-- All primitive functions count their arguments as they need them. -/
theorem guarded_of_mem_primitives : ∀ entry ∈ primitives, entry.2.guarded = true := by
  decide

/-- All signatures are sound. -/
theorem sound_of_mem_signatures : ∀ entry ∈ signatures, entry.2.Sound := by
  decide

/-- No two primitive functions share a name. -/
theorem nodup_signatures : (signatures.map Prod.fst).Nodup := by
  decide

namespace Environment

/-- The primitive environment binds the names with a signature, each to a guarded procedure that
announces it. -/
theorem get?_global (identity : Nat) {name : String} {signature : Signature}
    (h : (name, signature) ∈ signatures) :
    ∃ own procedure, (global identity).get? name = some (.function (.primitive own name procedure)) ∧
      procedure.guarded = true ∧ procedure.signature = signature := by
  have hname : name ∈ (primitiveBindings identity primitives).map Prod.fst := by
    have hnames := congrArg (List.map Prod.fst) map_signature_primitives
    rw [List.map_map] at hnames
    rw [map_fst_primitiveBindings]
    exact hnames ▸ List.mem_map_of_mem (f := Prod.fst) h
  have hbound := Table.isSome_get?_insertAll .empty _ name (.inl hname)
  obtain ⟨value, hvalue⟩ := Option.isSome_iff_exists.1 hbound
  rcases Table.get?_insertAll_eq_some hvalue with hmem | hmem
  · obtain ⟨index, procedure, hindex, rfl⟩ := getElem?_of_mem_primitiveBindings hmem
    have hprimitive := List.mem_of_getElem? hindex
    refine ⟨identity + index, procedure, hvalue, guarded_of_mem_primitives _ hprimitive, ?_⟩
    have hannounced : (name, procedure.signature) ∈ signatures := by
      rw [← map_signature_primitives]
      exact List.mem_map_of_mem (f := fun (name, procedure) => (name, procedure.signature)) hprimitive
    have hsame := List.inj_on_of_nodup_map nodup_signatures hannounced h rfl
    exact congrArg Prod.snd hsame
  · cases hmem

/-- The names that the primitive environment binds are those with a signature. -/
theorem isSome_get?_global_iff (identity : Nat) (name : String) :
    ((global identity).get? name).isSome = true ↔ name ∈ signatures.map Prod.fst := by
  constructor
  · intro hbound
    obtain ⟨value, hvalue⟩ := Option.isSome_iff_exists.1 hbound
    rcases Table.get?_insertAll_eq_some hvalue with hmem | hmem
    · obtain ⟨index, procedure, hindex, rfl⟩ := getElem?_of_mem_primitiveBindings hmem
      rw [← map_signature_primitives, List.map_map]
      exact List.mem_map.2 ⟨_, List.mem_of_getElem? hindex, rfl⟩
    · cases hmem
  · intro hname
    obtain ⟨⟨_, signature⟩, hmem, rfl⟩ := List.mem_map.1 hname
    obtain ⟨own, procedure, hvalue, -⟩ := get?_global identity hmem
    rw [hvalue]
    rfl

/-- Each function of the primitive environment is total on arguments of any number and kinds.  It
never takes an argument at a position where there is none.  A wrong number of arguments is reported
whatever they are; otherwise the first one of a wrong kind, where all must be of one kind; otherwise
the empty list, where a part of it is taken, or an error of arithmetic; and otherwise there is a
value. -/
theorem primitives_decide (identity fuel : Nat) :
    (∀ name, ((global identity).get? name).isSome = true ↔ name ∈ signatures.map Prod.fst) ∧
    ∀ name signature, (name, signature) ∈ signatures →
      ∃ own procedure,
        (global identity).get? name = some (.function (.primitive own name procedure)) ∧
        ∀ arguments, procedure.call? arguments = some (procedure.call arguments) ∧
          ∀ store, signature.Decides arguments
            ((call fuel (.primitive own name procedure) arguments).runOn store).1 := by
  refine ⟨isSome_get?_global_iff identity, fun name signature hmem => ?_⟩
  obtain ⟨own, procedure, hbound, hguarded, rfl⟩ := get?_global identity hmem
  refine ⟨own, procedure, hbound, fun arguments => ⟨?_, fun store => ?_⟩⟩
  · exact Procedure.call?_eq hguarded arguments
  · exact (Procedure.call_ends hguarded arguments store).decides (sound_of_mem_signatures _ hmem)

end Environment

end MiniScheme
