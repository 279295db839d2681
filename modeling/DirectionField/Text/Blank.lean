/-
This file says which characters are blank and removes them from the two ends of a text. The blank
characters are the white space of Unicode and the four information separators before the space.
-/

namespace DirectionField

/-! ### Blank characters -/

/-- The first and the last code point of each run of blank characters. -/
def blankRuns : List (Nat × Nat) :=
  [(0x09, 0x0D), (0x1C, 0x20), (0x85, 0x85), (0xA0, 0xA0), (0x1680, 0x1680), (0x2000, 0x200A),
   (0x2028, 0x2029), (0x202F, 0x202F), (0x205F, 0x205F), (0x3000, 0x3000)]

/-- Whether a character is blank. -/
def isBlank (character : Char) : Bool :=
  blankRuns.any fun (first, last) => first ≤ character.toNat && character.toNat ≤ last

/-! ### Removal at the ends -/

/-- The characters from the first to the last that is not blank. -/
def stripBlanks (characters : List Char) : List Char :=
  ((characters.dropWhile isBlank).reverse.dropWhile isBlank).reverse

/-- A text without the blank characters at its ends. -/
def strip (text : String) : String :=
  String.ofList (stripBlanks text.toList)

end DirectionField
