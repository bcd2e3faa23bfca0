/-!
# The inside of a string literal

Between its quotes a string literal holds plain characters and pairs of a backslash and any
character.  A pair of a backslash with a quote or a backslash stands for its second
character; every other pair stands for both of its characters.

Main results:

- Theorem `leading_isPrefix`: the body that is found is the beginning of the text.
- Theorem `decode_encode`: every text has a body that denotes it.
- Theorem `leading_encode`: in a source such a body ends where the closing quote stands.
-/

namespace MiniScheme.StringBody

/-- The characters that a backslash in a pair stands in for. -/
def isSpecial (c : Char) : Bool :=
  c = '"' || c = '\\'

/-- The longest beginning of a text that is made of plain characters and pairs. -/
def leading : List Char → List Char
  | [] => []
  | '\\' :: c :: text => '\\' :: c :: leading text
  | c :: text => if isSpecial c then [] else c :: leading text

/-- The text that a body denotes. -/
def decode : List Char → List Char
  | [] => []
  | '\\' :: c :: text => if isSpecial c then c :: decode text else '\\' :: c :: decode text
  | c :: text => c :: decode text

/-- A body that denotes a text: quotes and backslashes get a backslash before them. -/
def encode : List Char → List Char
  | [] => []
  | c :: text => if isSpecial c then '\\' :: c :: encode text else c :: encode text

/-- The body that is found is the beginning of the text. -/
theorem leading_isPrefix (text : List Char) : leading text <+: text := by
  fun_induction leading text with
  | case1 => exact List.nil_prefix
  | case2 c text ih => exact (List.prefix_cons_inj _).2 ((List.prefix_cons_inj _).2 ih)
  | case3 => exact List.nil_prefix
  | case4 c text _ _ ih => exact (List.prefix_cons_inj _).2 ih

/-- Every text has a body that denotes it. -/
@[simp]
theorem decode_encode (text : List Char) : decode (encode text) = text := by
  induction text with
  | nil => rfl
  | cons c text ih =>
    by_cases h : isSpecial c
    · simp [encode, decode, h, ih]
    · have hc : c ≠ '\\' := by rintro rfl; exact h rfl
      simp [encode, decode, h, hc, ih]

/-- In a source such a body ends where the closing quote stands. -/
@[simp]
theorem leading_encode (text rest : List Char) :
    leading (encode text ++ '"' :: rest) = encode text := by
  induction text with
  | nil => simp [encode, leading, isSpecial]
  | cons c text ih =>
    by_cases h : isSpecial c
    · simp [encode, leading, h, ih]
    · have hc : c ≠ '\\' := by rintro rfl; exact h rfl
      simp [encode, leading, h, hc, ih]

end MiniScheme.StringBody
