/-!
# Exact arithmetic in 64 bits

The numbers of the language are the integers of 64 bits.  Every operation computes over the
integers and gives a number only if the exact result is one.

Main results:

- Theorem `ofInt?_eq_some_iff`: an integer is a number exactly if some number denotes it.
-/

namespace MiniScheme.Number

/-- The number that an integer is, if it fits in 64 bits. -/
def ofInt? (n : Int) : Option Int64 :=
  if -0x8000000000000000 ≤ n ∧ n < 0x8000000000000000 then some (Int64.ofInt n) else none

/-- The sum of a list of numbers, taken from the left, if every partial sum is a number. -/
def sum? (numbers : List Int64) : Option Int64 :=
  numbers.foldlM (fun total n => ofInt? (total.toInt + n.toInt)) 0

/-- The product of a list of numbers, taken from the left, if every partial product is a
number. -/
def product? (numbers : List Int64) : Option Int64 :=
  numbers.foldlM (fun total n => ofInt? (total.toInt * n.toInt)) 1

/-- The difference of two numbers, if it is a number. -/
def difference? (left right : Int64) : Option Int64 :=
  ofInt? (left.toInt - right.toInt)

/-- The quotient of two numbers, truncated toward zero, if it is a number. -/
def quotient? (left right : Int64) : Option Int64 :=
  ofInt? (left.toInt.tdiv right.toInt)

/-- A number in decimal digits, after a minus sign if it is negative. -/
def text (n : Int64) : String :=
  toString n.toInt

/-- An integer is a number exactly if some number denotes it. -/
theorem ofInt?_eq_some_iff {n : Int} {word : Int64} : ofInt? n = some word ↔ word.toInt = n := by
  unfold ofInt?
  constructor
  · intro h
    split at h
    next hrange =>
      rw [← Option.some.inj h, Int64.toInt_ofInt_of_le hrange.1 hrange.2]
    next => simp at h
  · rintro rfl
    rw [if_pos ⟨word.le_toInt, word.toInt_lt⟩, Int64.ofInt_toInt]

/-- A number is that of its integer. -/
@[simp]
theorem ofInt?_toInt (word : Int64) : ofInt? word.toInt = some word :=
  ofInt?_eq_some_iff.2 rfl

end MiniScheme.Number
