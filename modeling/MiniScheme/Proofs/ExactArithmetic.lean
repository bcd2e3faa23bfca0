import Mathlib.Algebra.BigOperators.Ring.List
import Mathlib.Algebra.Ring.Int.Defs
import MiniScheme.Evaluation.Evaluate

/-!
# Exact or refused arithmetic

The arithmetic of the primitive functions is that of the integers.  A sum or a product is taken
from the left, and it is refused as soon as one of its beginnings does not fit in 64 bits, also
where the whole would fit again.  Subtraction and division check the sum or the product of all
further numbers first, then whether that is a divisor, and at last their result.

Main results:

- Theorem `Number.foldlM_ofInt?_eq_some_iff`: a checked fold gives the exact result if all its
  beginnings fit, and nothing else.
- Theorem `Number.tdiv_fits_iff`: the only quotient that does not fit.
- Theorem `Environment.arithmetic_exact`: what each of the four functions gives for every row of
  numbers.
-/

namespace MiniScheme

namespace Number

/-! ## Integers that fit -/

/-- An integer is a number of 64 bits. -/
def Fits (n : Int) : Prop :=
  -2 ^ 63 ≤ n ∧ n < 2 ^ 63

/-- The integer of a number fits. -/
theorem fits_toInt (word : Int64) : Fits word.toInt :=
  ⟨word.le_toInt, word.toInt_lt⟩

/-- Exactly the integers that do not fit have no number. -/
theorem ofInt?_eq_none_iff {n : Int} : ofInt? n = none ↔ ¬Fits n := by
  simp [ofInt?, Fits]

/-- An integer fits exactly if a number denotes it. -/
theorem fits_iff {n : Int} : Fits n ↔ ∃ word, ofInt? n = some word ∧ word.toInt = n := by
  constructor
  · intro h
    obtain ⟨word, hword⟩ := Option.ne_none_iff_exists'.1 (mt ofInt?_eq_none_iff.1 (not_not.2 h))
    exact ⟨word, hword, ofInt?_eq_some_iff.1 hword⟩
  · rintro ⟨word, -, rfl⟩
    exact fits_toInt word

/-! ## Folds with a check at each step -/

/-- What is made of the beginnings of a row, and of the whole of it, always fits. -/
def FitsThroughout (quantity : List Int64 → Int) (numbers : List Int64) : Prop :=
  ∀ first, first <+: numbers → Fits (quantity first)

/-- The sum of some numbers among the integers. -/
def exactSum (numbers : List Int64) : Int :=
  (numbers.map Int64.toInt).sum

/-- The product of some numbers among the integers. -/
def exactProduct (numbers : List Int64) : Int :=
  (numbers.map Int64.toInt).prod

/-- What fits throughout fits at the end. -/
theorem FitsThroughout.fits {quantity : List Int64 → Int} {numbers : List Int64}
    (h : FitsThroughout quantity numbers) : Fits (quantity numbers) :=
  h numbers List.prefix_rfl

/-- The beginnings of a longer row are the empty one and those with its first number. -/
theorem fitsThroughout_cons {quantity : List Int64 → Int} {n : Int64} {numbers : List Int64} :
    FitsThroughout quantity (n :: numbers) ↔
      Fits (quantity []) ∧ FitsThroughout (fun first => quantity (n :: first)) numbers := by
  unfold FitsThroughout
  constructor
  · intro h
    exact ⟨h [] List.nil_prefix, fun first hfirst => h _ ((List.prefix_cons_inj n).2 hfirst)⟩
  · rintro ⟨hnil, hcons⟩ first hfirst
    rcases List.prefix_cons_iff.1 hfirst with rfl | ⟨rest, rfl, hrest⟩
    · exact hnil
    · exact hcons rest hrest

/-- A fold that checks each result gives the exact one if all results on the way fit, and nothing
otherwise. -/
theorem foldlM_ofInt?_eq_some_iff (operation : Int → Int → Int) {numbers : List Int64}
    {total word : Int64} :
    numbers.foldlM (fun total n => ofInt? (operation total.toInt n.toInt)) total = some word ↔
      FitsThroughout (fun first => (first.map Int64.toInt).foldl operation total.toInt) numbers ∧
        word.toInt = (numbers.map Int64.toInt).foldl operation total.toInt := by
  induction numbers generalizing total with
  | nil =>
    have hnil : FitsThroughout (fun first => (first.map Int64.toInt).foldl operation total.toInt)
        [] := by
      intro first hfirst
      rw [List.prefix_nil.1 hfirst]
      exact fits_toInt total
    simp [hnil, Int64.toInt_inj, eq_comm]
  | cons n numbers ih =>
    rw [List.foldlM_cons, Option.bind_eq_bind, Option.bind_eq_some_iff, fitsThroughout_cons]
    simp only [List.map_nil, List.foldl_nil, List.map_cons, List.foldl_cons, fits_toInt, true_and]
    constructor
    · rintro ⟨next, hnext, hrest⟩
      rw [ih, ofInt?_eq_some_iff.1 hnext] at hrest
      exact hrest
    · rintro ⟨hthroughout, hword⟩
      -- the first result on the way is the one that the empty beginning of the rest has
      obtain ⟨next, hnext, heq⟩ := fits_iff.1 (hthroughout [] List.nil_prefix)
      refine ⟨next, hnext, ih.2 ?_⟩
      simp only [List.map_nil, List.foldl_nil] at heq
      rw [heq]
      exact ⟨hthroughout, hword⟩

/-- Numbers have a sum exactly if their sums fit throughout, and it is the exact one. -/
theorem sum?_eq_some_iff {numbers : List Int64} {word : Int64} :
    sum? numbers = some word ↔
      FitsThroughout exactSum numbers ∧ word.toInt = exactSum numbers := by
  have hsum : exactSum = fun first => (first.map Int64.toInt).foldl (· + ·) (0 : Int64).toInt := by
    funext first
    exact List.sum_eq_foldl
  rw [sum?, foldlM_ofInt?_eq_some_iff (· + ·), hsum]

/-- A sum that fits is refused where one of its beginnings does not. -/
example : exactSum [Int64.maxValue, 1, -1] = Int64.maxValue.toInt ∧
    sum? [Int64.maxValue, 1, -1] = none := by
  decide

/-- Numbers have a product exactly if their products fit throughout, and it is the exact one. -/
theorem product?_eq_some_iff {numbers : List Int64} {word : Int64} :
    product? numbers = some word ↔
      FitsThroughout exactProduct numbers ∧ word.toInt = exactProduct numbers := by
  have hproduct : exactProduct =
      fun first => (first.map Int64.toInt).foldl (· * ·) (1 : Int64).toInt := by
    funext first
    exact List.prod_eq_foldl
  rw [product?, foldlM_ofInt?_eq_some_iff (· * ·), hproduct]

/-- A result that is exact under a condition is there under this condition only. -/
theorem exact_cases {result : Option Int64} {condition : Prop} {n : Int}
    (hfits : condition → Fits n) (h : ∀ word, result = some word ↔ condition ∧ word.toInt = n) :
    (condition ∧ ∃ word, result = some word ∧ word.toInt = n) ∨ (¬condition ∧ result = none) := by
  by_cases hcondition : condition
  · obtain ⟨word, -, hword⟩ := fits_iff.1 (hfits hcondition)
    exact .inl ⟨hcondition, word, (h word).2 ⟨hcondition, hword⟩, hword⟩
  · refine .inr ⟨hcondition, Option.eq_none_iff_forall_ne_some.2 fun word hword => ?_⟩
    exact hcondition ((h word).1 hword).1

/-- Either sums fit throughout and there is the exact one, or there is none. -/
theorem sum?_cases (numbers : List Int64) :
    (FitsThroughout exactSum numbers ∧
        ∃ word, sum? numbers = some word ∧ word.toInt = exactSum numbers) ∨
      (¬FitsThroughout exactSum numbers ∧ sum? numbers = none) :=
  exact_cases FitsThroughout.fits fun _ => sum?_eq_some_iff

/-- Either products fit throughout and there is the exact one, or there is none. -/
theorem product?_cases (numbers : List Int64) :
    (FitsThroughout exactProduct numbers ∧
        ∃ word, product? numbers = some word ∧ word.toInt = exactProduct numbers) ∨
      (¬FitsThroughout exactProduct numbers ∧ product? numbers = none) :=
  exact_cases FitsThroughout.fits fun _ => product?_eq_some_iff

/-- Either an integer fits and there is a number for it, or there is none. -/
theorem ofInt?_cases (n : Int) :
    (Fits n ∧ ∃ word, ofInt? n = some word ∧ word.toInt = n) ∨ (¬Fits n ∧ ofInt? n = none) := by
  by_cases h : Fits n
  · exact .inl ⟨h, fits_iff.1 h⟩
  · exact .inr ⟨h, ofInt?_eq_none_iff.2 h⟩

/-- The only quotient of a number that does not fit is that of the least number by minus one. -/
theorem tdiv_fits_iff {dividend divisor : Int} (h : Fits dividend) (hdivisor : divisor ≠ 0) :
    ¬Fits (dividend.tdiv divisor) ↔ dividend = -2 ^ 63 ∧ divisor = -1 := by
  obtain ⟨hlow, hhigh⟩ := h
  constructor
  · intro hquotient
    have hmagnitude : (dividend.tdiv divisor).natAbs ≤ dividend.natAbs := by
      rw [Int.natAbs_tdiv]
      exact Nat.div_le_self _ _
    -- only a quotient of the same magnitude as the least number can leave the range
    have hleast : dividend = -2 ^ 63 ∧ dividend.tdiv divisor = 2 ^ 63 := by
      unfold Fits at hquotient
      omega
    obtain ⟨rfl, hquotient⟩ := hleast
    refine ⟨rfl, ?_⟩
    have hproduct := Int.tdiv_mul_add_tmod (-2 ^ 63) divisor
    have hremainder : ((-2 ^ 63 : Int).tmod divisor).natAbs < divisor.natAbs := by
      rw [Int.natAbs_tmod]
      exact Nat.mod_lt _ (Int.natAbs_pos.2 hdivisor)
    rw [hquotient] at hproduct
    omega
  · rintro ⟨rfl, rfl⟩ hquotient
    exact absurd hquotient.2 (by decide)

end Number

/-! ## Operators -/

namespace Operator

open Number

/-- Addition gives the exact sum, or it overflows. -/
theorem apply_add_cases (numbers : List Int64) :
    (FitsThroughout exactSum numbers ∧
        ∃ word, add.apply numbers = .ok word ∧ word.toInt = exactSum numbers) ∨
      (¬FitsThroughout exactSum numbers ∧ add.apply numbers = .error (.overflow .add)) := by
  rcases sum?_cases numbers with ⟨hfits, word, hsum, hword⟩ | ⟨hfits, hsum⟩
  · exact .inl ⟨hfits, word, by rw [apply, hsum], hword⟩
  · exact .inr ⟨hfits, by rw [apply, hsum]⟩

/-- Multiplication gives the exact product, or it overflows. -/
theorem apply_multiply_cases (numbers : List Int64) :
    (FitsThroughout exactProduct numbers ∧
        ∃ word, multiply.apply numbers = .ok word ∧ word.toInt = exactProduct numbers) ∨
      (¬FitsThroughout exactProduct numbers ∧
        multiply.apply numbers = .error (.overflow .multiply)) := by
  rcases product?_cases numbers with ⟨hfits, word, hproduct, hword⟩ | ⟨hfits, hproduct⟩
  · exact .inl ⟨hfits, word, by rw [apply, hproduct], hword⟩
  · exact .inr ⟨hfits, by rw [apply, hproduct]⟩

/-- Subtraction of a sum gives the exact difference, or it overflows. -/
theorem apply_subtract_cases (first : Int64) (rest : List Int64) :
    ((FitsThroughout exactSum rest ∧ Fits (first.toInt - exactSum rest)) ∧
        ∃ word, subtract.apply (first :: rest) = .ok word ∧
          word.toInt = first.toInt - exactSum rest) ∨
      (¬(FitsThroughout exactSum rest ∧ Fits (first.toInt - exactSum rest)) ∧
        subtract.apply (first :: rest) = .error (.overflow .subtract)) := by
  rcases sum?_cases rest with ⟨hfits, subtrahend, hsum, hsubtrahend⟩ | ⟨hfits, hsum⟩
  · rcases ofInt?_cases (first.toInt - exactSum rest) with ⟨hdifference, word, hresult, hword⟩ |
      ⟨hdifference, hresult⟩
    · refine .inl ⟨⟨hfits, hdifference⟩, word, ?_, hword⟩
      simp [apply, hsum, difference?, hsubtrahend, hresult, bind, Except.bind]
    · refine .inr ⟨fun h => hdifference h.2, ?_⟩
      simp [apply, hsum, difference?, hsubtrahend, hresult, bind, Except.bind]
  · refine .inr ⟨fun h => hfits h.1, ?_⟩
    simp [apply, hsum, bind, Except.bind]

/-- Division checks the product first, then whether that is zero, and the quotient last. -/
theorem apply_divide_cases (first : Int64) (rest : List Int64) :
    (¬FitsThroughout exactProduct rest ∧
        divide.apply (first :: rest) = .error (.overflow .divide)) ∨
      (FitsThroughout exactProduct rest ∧
        ((exactProduct rest = 0 ∧ divide.apply (first :: rest) = .error .divisionByZero) ∨
          (exactProduct rest ≠ 0 ∧ ¬Fits (first.toInt.tdiv (exactProduct rest)) ∧
            divide.apply (first :: rest) = .error (.overflow .divide)) ∨
          (exactProduct rest ≠ 0 ∧ Fits (first.toInt.tdiv (exactProduct rest)) ∧
            ∃ word, divide.apply (first :: rest) = .ok word ∧
              word.toInt = first.toInt.tdiv (exactProduct rest)))) := by
  rcases product?_cases rest with ⟨hfits, divisor, hproduct, hdivisor⟩ | ⟨hfits, hproduct⟩
  · refine .inr ⟨hfits, ?_⟩
    rw [← hdivisor]
    by_cases hzero : divisor = 0
    · refine .inl ⟨by rw [hzero]; rfl, ?_⟩
      simp [apply, hproduct, hzero, bind, Except.bind]
    · have hzero' : divisor.toInt ≠ 0 := fun h => hzero (Int64.toInt_inj.1 h)
      rcases ofInt?_cases (first.toInt.tdiv divisor.toInt) with ⟨hquotient, word, hresult, hword⟩ |
        ⟨hquotient, hresult⟩
      · refine .inr (.inr ⟨hzero', hquotient, word, ?_, hword⟩)
        simp [apply, hproduct, hzero, quotient?, hresult, bind, Except.bind]
      · refine .inr (.inl ⟨hzero', hquotient, ?_⟩)
        simp [apply, hproduct, hzero, quotient?, hresult, bind, Except.bind]
  · refine .inl ⟨hfits, ?_⟩
    simp [apply, hproduct, bind, Except.bind]

end Operator

/-! ## The functions of the primitive environment -/

/-- Arguments that are numbers are read as they are. -/
theorem readArguments_numbers (numbers : List Int64) (place : Nat) :
    readArguments .number Value.number? place (numbers.map .number) = .ok numbers := by
  induction numbers generalizing place with
  | nil => rfl
  | cons n numbers ih =>
    rw [List.map_cons, readArguments]
    simp only [Value.number?, ih]
    rfl

namespace Function

/-- The function does with numbers what an operator does. -/
def Computes (function : Function) (operator : Operator) : Prop :=
  ∀ fuel numbers, call fuel function (numbers.map .number) =
    Action.ofExcept ((operator.apply numbers).map .number)

/-- Called with some numbers, the function returns an integer. -/
def Gives (function : Function) (fuel : Nat) (store : Store) (numbers : List Int64) (n : Int) :
    Prop :=
  ∃ word : Int64, word.toInt = n ∧
    ((call fuel function (numbers.map .number)).runOn store).1 = .ok (.number word)

/-- Called with some numbers, the function fails. -/
def Fails (function : Function) (fuel : Nat) (store : Store) (numbers : List Int64)
    (error : EvalError) : Prop :=
  ((call fuel function (numbers.map .number)).runOn store).1 = .error (.failed error)

variable {function : Function} {operator : Operator} {fuel : Nat} {store : Store}
variable {numbers : List Int64} {n : Int} {error : EvalError}

/-- An integer that is returned fits in 64 bits. -/
theorem Gives.fits (h : function.Gives fuel store numbers n) : Number.Fits n := by
  obtain ⟨word, rfl, -⟩ := h
  exact Number.fits_toInt word

/-- A function that computes an operator gives what the operator does. -/
theorem Computes.gives_iff (h : function.Computes operator) :
    function.Gives fuel store numbers n ↔
      ∃ word, operator.apply numbers = .ok word ∧ word.toInt = n := by
  unfold Gives
  rw [h]
  cases operator.apply numbers with
  | error reason =>
    constructor
    · rintro ⟨word, -, ⟨⟩⟩
    · rintro ⟨word, ⟨⟩, -⟩
  | ok result =>
    constructor
    · rintro ⟨_, hresult, ⟨⟩⟩
      exact ⟨result, rfl, hresult⟩
    · rintro ⟨_, ⟨⟩, hresult⟩
      exact ⟨result, hresult, rfl⟩

/-- A function that computes an operator fails where the operator does. -/
theorem Computes.fails_iff (h : function.Computes operator) :
    function.Fails fuel store numbers error ↔ operator.apply numbers = .error error := by
  unfold Fails
  rw [h]
  cases operator.apply numbers with
  | error reason =>
    constructor
    · rintro ⟨⟩
      rfl
    · rintro ⟨⟩
      rfl
  | ok result => exact ⟨nofun, nofun⟩

end Function

namespace Environment

open Number

/-- The primitive environment holds a function for each operator under its sign. -/
theorem exists_computes (identity : Nat) (operator : Operator) :
    ∃ function, (global identity).get? operator.sign = some (.function function) ∧
      function.Computes operator := by
  have hnumeric : ∀ numbers : List Int64,
      (Procedure.numeric (.arithmetic operator)).call (numbers.map .number) =
        Action.ofExcept ((operator.apply numbers).map .number) := by
    intro numbers
    rw [Procedure.call, readArguments_numbers]
    show (NumericOperation.arithmetic operator).call numbers = _
    rw [NumericOperation.call]
    cases operator.apply numbers <;> rfl
  have hcounted : operator.apply [] = .error (.arityMismatch (.atLeast 1) 0) →
      ∀ numbers : List Int64,
        (Procedure.counted (.atLeast 1) (.numeric (.arithmetic operator))).call
          (numbers.map .number) = Action.ofExcept ((operator.apply numbers).map .number) := by
    intro hempty numbers
    cases numbers with
    | nil =>
      rw [hempty]
      rfl
    | cons n numbers =>
      rw [Procedure.call, if_pos (by simp [Arity.admits]), hnumeric]
  cases operator with
  | add => exact ⟨_, rfl, fun _ => hnumeric⟩
  | multiply => exact ⟨_, rfl, fun _ => hnumeric⟩
  | subtract => exact ⟨_, rfl, fun _ => hcounted rfl⟩
  | divide => exact ⟨_, rfl, fun _ => hcounted rfl⟩

/-- The four functions of arithmetic, on any numbers: a sum or a product is the exact one if all
sums or products of beginnings fit, and refused otherwise; a difference is that of the first number
and the sum of the others, if those sums fit and it fits itself; a quotient is refused first for the
products of the others, then because their product is zero, and then only for the least number by
minus one.  Whatever is returned fits. -/
theorem arithmetic_exact (identity fuel : Nat) (store : Store) :
    ∃ add multiply subtract divide : Function,
      ((global identity).get? "+" = some (.function add) ∧
        (global identity).get? "*" = some (.function multiply) ∧
        (global identity).get? "-" = some (.function subtract) ∧
        (global identity).get? "/" = some (.function divide)) ∧
      (∀ numbers,
        (FitsThroughout exactSum numbers → add.Gives fuel store numbers (exactSum numbers)) ∧
        (¬FitsThroughout exactSum numbers → add.Fails fuel store numbers (.overflow .add))) ∧
      (∀ numbers,
        (FitsThroughout exactProduct numbers →
          multiply.Gives fuel store numbers (exactProduct numbers)) ∧
        (¬FitsThroughout exactProduct numbers →
          multiply.Fails fuel store numbers (.overflow .multiply))) ∧
      (∀ first rest,
        (FitsThroughout exactSum rest ∧ Fits (first.toInt - exactSum rest) →
          subtract.Gives fuel store (first :: rest) (first.toInt - exactSum rest)) ∧
        (¬(FitsThroughout exactSum rest ∧ Fits (first.toInt - exactSum rest)) →
          subtract.Fails fuel store (first :: rest) (.overflow .subtract))) ∧
      (∀ first rest,
        (¬FitsThroughout exactProduct rest →
          divide.Fails fuel store (first :: rest) (.overflow .divide)) ∧
        (FitsThroughout exactProduct rest →
          (divide.Fails fuel store (first :: rest) .divisionByZero ↔ exactProduct rest = 0) ∧
          (exactProduct rest ≠ 0 →
            (divide.Fails fuel store (first :: rest) (.overflow .divide) ↔
              ¬Fits (first.toInt.tdiv (exactProduct rest))) ∧
            (¬Fits (first.toInt.tdiv (exactProduct rest)) ↔
              first.toInt = -2 ^ 63 ∧ exactProduct rest = -1) ∧
            (Fits (first.toInt.tdiv (exactProduct rest)) →
              divide.Gives fuel store (first :: rest)
                (first.toInt.tdiv (exactProduct rest)))))) ∧
      (∀ function ∈ [add, multiply, subtract, divide], ∀ numbers n,
        function.Gives fuel store numbers n → Fits n) := by
  obtain ⟨add, hadd, add_computes⟩ := exists_computes identity .add
  obtain ⟨multiply, hmultiply, multiply_computes⟩ := exists_computes identity .multiply
  obtain ⟨subtract, hsubtract, subtract_computes⟩ := exists_computes identity .subtract
  obtain ⟨divide, hdivide, divide_computes⟩ := exists_computes identity .divide
  refine ⟨add, multiply, subtract, divide, ⟨hadd, hmultiply, hsubtract, hdivide⟩, ?_, ?_, ?_, ?_,
    fun _ _ _ _ h => h.fits⟩
  · intro numbers
    rw [add_computes.gives_iff, add_computes.fails_iff]
    rcases Operator.apply_add_cases numbers with ⟨hfits, hresult⟩ | ⟨hfits, hresult⟩
    · exact ⟨fun _ => hresult, fun h => absurd hfits h⟩
    · exact ⟨fun h => absurd h hfits, fun _ => hresult⟩
  · intro numbers
    rw [multiply_computes.gives_iff, multiply_computes.fails_iff]
    rcases Operator.apply_multiply_cases numbers with ⟨hfits, hresult⟩ | ⟨hfits, hresult⟩
    · exact ⟨fun _ => hresult, fun h => absurd hfits h⟩
    · exact ⟨fun h => absurd h hfits, fun _ => hresult⟩
  · intro first rest
    rw [subtract_computes.gives_iff, subtract_computes.fails_iff]
    rcases Operator.apply_subtract_cases first rest with ⟨hfits, hresult⟩ | ⟨hfits, hresult⟩
    · exact ⟨fun _ => hresult, fun h => absurd hfits h⟩
    · exact ⟨fun h => absurd h hfits, fun _ => hresult⟩
  · intro first rest
    rw [divide_computes.fails_iff, divide_computes.fails_iff, divide_computes.gives_iff]
    have hleast : exactProduct rest ≠ 0 → (¬Fits (first.toInt.tdiv (exactProduct rest)) ↔
        first.toInt = -2 ^ 63 ∧ exactProduct rest = -1) :=
      tdiv_fits_iff (fits_toInt first)
    rcases Operator.apply_divide_cases first rest with ⟨hfits, hresult⟩ |
      ⟨hfits, ⟨hzero, hresult⟩ | ⟨hzero, hquotient, hresult⟩ | ⟨hzero, hquotient, hresult⟩⟩
    · exact ⟨fun _ => hresult, fun h => absurd h hfits⟩
    · refine ⟨fun h => absurd hfits h, fun _ => ⟨?_, fun h => absurd hzero h⟩⟩
      simp [hresult, hzero]
    · refine ⟨fun h => absurd hfits h, fun _ => ⟨?_, fun _ => ⟨?_, hleast hzero, ?_⟩⟩⟩
      · simp [hresult, hzero]
      · simp [hresult, hquotient]
      · exact fun h => absurd h hquotient
    · refine ⟨fun h => absurd hfits h, fun _ => ⟨?_, fun _ => ⟨?_, hleast hzero, ?_⟩⟩⟩
      · obtain ⟨word, hword, -⟩ := hresult
        simp [hword, hzero]
      · obtain ⟨word, hword, -⟩ := hresult
        simp [hword, hquotient]
      · exact fun _ => hresult

end Environment

end MiniScheme
