/-!
White space in the sense of the Unicode property `White_Space`, and texts without white space at
either end.
-/

namespace ClauseExchange.Text

/-- The characters with the property `White_Space`, as closed ranges of code points. -/
def blankRanges : List (Nat × Nat) :=
  [(0x0009, 0x000D), (0x0020, 0x0020), (0x0085, 0x0085), (0x00A0, 0x00A0), (0x1680, 0x1680),
   (0x2000, 0x200A), (0x2028, 0x2029), (0x202F, 0x202F), (0x205F, 0x205F), (0x3000, 0x3000)]

def isBlank (character : Char) : Bool :=
  blankRanges.any fun (least, greatest) =>
    decide (least ≤ character.toNat ∧ character.toNat ≤ greatest)

def trimChars (text : List Char) : List Char :=
  ((text.dropWhile isBlank).reverse.dropWhile isBlank).reverse

def trim (text : String) : String :=
  String.ofList (trimChars text.toList)

end ClauseExchange.Text
