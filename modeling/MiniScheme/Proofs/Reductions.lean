import MiniScheme.Proofs.ExactArithmetic
import MiniScheme.Script.Prelude

/-!
# Subtraction and division from left to right

A script defines subtraction and division as reductions, which go through the further numbers one
by one, while the primitive functions subtract their sum once and divide by their product once.
Over the integers both come to the same, since to truncate after every division is to truncate
once, whatever the signs are.

Main results:

- Theorem `Reduction.tdiv_tdiv`: dividing by two integers in turn is dividing by their product.
- Theorem `Reduction.reduce_quotient`: a reduction divides by the product, or fails at a zero.
- Theorem `Environment.agrees_with_reductions`: whatever the primitive functions return is what
  the reductions come to.
-/

namespace MiniScheme

namespace Script

/-- The definitions of the prelude that reduce further numbers onto the first one. -/
inductive Reduction
  | difference
  | quotient

namespace Reduction

/-- The definition as it is written. -/
def body : Reduction → String
  | difference => "(x, ...a) => a.reduce((s, y) => s - y, x)"
  | quotient =>
    "(x, ...a) => a.reduce((s, y) => \x7b if (y === 0) throw new Error(\"division by zero\"); " ++
      "return Math.trunc(s / y); \x7d, x)"

/-- What the definition makes of the result so far and the next number, among the integers: it
fails at a divisor that is zero, and truncates a quotient toward zero. -/
def step : Reduction → Int → Int → Option Int
  | difference, result, n => some (result - n)
  | quotient, result, n => if n = 0 then none else some (result.tdiv n)

/-- The first number with the further ones reduced onto it from left to right. -/
def reduce (reduction : Reduction) (first : Int) (rest : List Int) : Option Int :=
  rest.foldlM reduction.step first

/-- To subtract numbers in turn is to subtract their sum. -/
theorem reduce_difference (first : Int) (rest : List Int) :
    difference.reduce first rest = some (first - rest.sum) := by
  induction rest generalizing first with
  | nil => simp [reduce]
  | cons n rest ih =>
    calc difference.reduce first (n :: rest) = difference.reduce (first - n) rest := rfl
      _ = some (first - n - rest.sum) := ih (first - n)
      _ = some (first - (n :: rest).sum) := by rw [List.sum_cons, Int.sub_sub]

/-- To divide by two integers in turn is to divide by their product. -/
theorem tdiv_tdiv (n divisor divisor' : Int) :
    (n.tdiv divisor).tdiv divisor' = n.tdiv (divisor * divisor') := by
  have hnat : ∀ m k l : Nat, ((m : Int).tdiv k).tdiv l = (m : Int).tdiv (k * l) := by
    intro m k l
    rw [← Int.ofNat_tdiv, ← Int.ofNat_tdiv, ← Int.natCast_mul, ← Int.ofNat_tdiv,
      Nat.div_div_eq_div_mul]
  -- all that is left are the signs, which multiply
  obtain ⟨m, rfl | rfl⟩ := n.eq_nat_or_neg <;>
    obtain ⟨k, rfl | rfl⟩ := divisor.eq_nat_or_neg <;>
    obtain ⟨l, rfl | rfl⟩ := divisor'.eq_nat_or_neg <;>
    simp only [Int.neg_tdiv, Int.tdiv_neg, Int.neg_mul, Int.mul_neg, Int.neg_neg, hnat]

/-- To divide by numbers in turn is to divide by their product, and fails if one is zero. -/
theorem reduce_quotient (first : Int) (rest : List Int) :
    quotient.reduce first rest = if 0 ∈ rest then none else some (first.tdiv rest.prod) := by
  induction rest generalizing first with
  | nil => simp [reduce]
  | cons n rest ih =>
    by_cases hzero : n = 0
    · subst hzero
      rw [if_pos List.mem_cons_self]
      rfl
    · have hstep : quotient.reduce first (n :: rest) = quotient.reduce (first.tdiv n) rest := by
        simp [reduce, step, hzero]
      rw [hstep, ih, tdiv_tdiv, List.prod_cons]
      simp [hzero, eq_comm]

end Reduction

end Script

open Script

/-- A product is zero exactly if one of the numbers is. -/
theorem Number.exactProduct_eq_zero_iff {numbers : List Int64} :
    exactProduct numbers = 0 ↔ 0 ∈ numbers := by
  refine List.prod_eq_zero_iff.trans (List.mem_map.trans ?_)
  constructor
  · rintro ⟨n, hn, hzero⟩
    rwa [Int64.toInt_inj.1 (hzero.trans Int64.toInt_zero.symm)] at hn
  · exact fun h => ⟨0, h, rfl⟩

namespace Environment

open Number

/-- What the functions for subtraction and division return is what the reductions of the prelude
come to: the other numbers taken from the first one by one, or the first one divided by them one by
one, where none of them is zero.  Division reports a zero only if one of them is, and returns
nothing then. -/
theorem agrees_with_reductions (identity fuel : Nat) (store : Store) :
    ∃ subtract divide : Function,
      ((global identity).get? "-" = some (.function subtract) ∧
        (global identity).get? "/" = some (.function divide)) ∧
      (("-", Reduction.difference.body) ∈ preludeBodies ∧
        ("/", Reduction.quotient.body) ∈ preludeBodies) ∧
      ∀ first rest,
        (∀ n, subtract.Gives fuel store (first :: rest) n →
          Reduction.difference.reduce first.toInt (rest.map Int64.toInt) = some n) ∧
        (∀ n, divide.Gives fuel store (first :: rest) n →
          0 ∉ rest ∧ Reduction.quotient.reduce first.toInt (rest.map Int64.toInt) = some n) ∧
        (divide.Fails fuel store (first :: rest) .divisionByZero → 0 ∈ rest) ∧
        (0 ∈ rest → ∀ n, ¬divide.Gives fuel store (first :: rest) n) := by
  obtain ⟨subtract, hsubtract, subtract_computes⟩ := exists_computes identity .subtract
  obtain ⟨divide, hdivide, divide_computes⟩ := exists_computes identity .divide
  have hgives : ∀ first rest n, divide.Gives fuel store (first :: rest) n →
      exactProduct rest ≠ 0 ∧ n = first.toInt.tdiv (exactProduct rest) := by
    intro first rest n hn
    obtain ⟨word, hword, rfl⟩ := divide_computes.gives_iff.1 hn
    rcases Operator.apply_divide_cases first rest with ⟨-, hresult⟩ |
      ⟨-, ⟨-, hresult⟩ | ⟨-, -, hresult⟩ | ⟨hzero, -, result, hresult, heq⟩⟩
    · cases hresult.symm.trans hword
    · cases hresult.symm.trans hword
    · cases hresult.symm.trans hword
    · cases hresult.symm.trans hword
      exact ⟨hzero, heq⟩
  refine ⟨subtract, divide, ⟨hsubtract, hdivide⟩, ⟨by decide, by decide⟩, fun first rest =>
    ⟨?_, ?_, ?_, ?_⟩⟩
  · intro n hn
    obtain ⟨word, hword, rfl⟩ := subtract_computes.gives_iff.1 hn
    rw [Reduction.reduce_difference]
    rcases Operator.apply_subtract_cases first rest with ⟨-, result, hresult, heq⟩ | ⟨-, hresult⟩
    · cases hresult.symm.trans hword
      exact congrArg some heq.symm
    · cases hresult.symm.trans hword
  · intro n hn
    obtain ⟨hproduct, rfl⟩ := hgives first rest n hn
    have hzero : 0 ∉ rest := mt exactProduct_eq_zero_iff.2 hproduct
    have hzero' : 0 ∉ rest.map Int64.toInt :=
      fun h => hproduct (List.prod_eq_zero_iff.2 h)
    rw [Reduction.reduce_quotient, if_neg hzero']
    exact ⟨hzero, rfl⟩
  · intro hfails
    rw [divide_computes.fails_iff] at hfails
    rcases Operator.apply_divide_cases first rest with ⟨-, hresult⟩ |
      ⟨-, ⟨hzero, -⟩ | ⟨-, -, hresult⟩ | ⟨-, -, result, hresult, -⟩⟩
    · cases hresult.symm.trans hfails
    · exact exactProduct_eq_zero_iff.1 hzero
    · cases hresult.symm.trans hfails
    · cases hresult.symm.trans hfails
  · intro hzero n hn
    exact (hgives first rest n hn).1 (exactProduct_eq_zero_iff.2 hzero)

end Environment

end MiniScheme
