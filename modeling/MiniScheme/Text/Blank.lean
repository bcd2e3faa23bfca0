/-!
# Blank text

The characters with the Unicode property White_Space, and texts made of them alone.  The
property is wider than the class of characters that separate lexemes.
-/

namespace MiniScheme.Blank

/-- The ranges of the Unicode property White_Space, in increasing order. -/
def ranges : List (Nat × Nat) :=
  [(0x0009, 0x000d), (0x0020, 0x0020), (0x0085, 0x0085), (0x00a0, 0x00a0),
   (0x1680, 0x1680), (0x2000, 0x200a), (0x2028, 0x2029), (0x202f, 0x202f),
   (0x205f, 0x205f), (0x3000, 0x3000)]

/-- A character is blank if one of the ranges holds it. -/
def isBlank (c : Char) : Bool :=
  ranges.any fun (first, last) => first ≤ c.toNat && c.toNat ≤ last

/-- A text is blank if every character of it is. -/
def isBlankText (text : List Char) : Bool :=
  text.all isBlank

/-- A text without its blank characters at either end. -/
def trim (text : List Char) : List Char :=
  ((text.dropWhile isBlank).reverse.dropWhile isBlank).reverse

end MiniScheme.Blank
