/-!
# Blanks and trimming

The blanks are the characters with the White_Space property. Letter case is compared here for
ASCII letters only.
-/

namespace Medals

/-- The White_Space property. -/
def isBlank (c : Char) : Bool :=
  let code := c.toNat
  (9 ≤ code && code ≤ 13) || code == 0x20 || code == 0x85 || code == 0xa0 || code == 0x1680 ||
    (0x2000 ≤ code && code ≤ 0x200a) || code == 0x2028 || code == 0x2029 || code == 0x202f ||
    code == 0x205f || code == 0x3000

/-- Drop blanks at both ends. -/
def trimChars (chars : List Char) : List Char :=
  ((chars.dropWhile isBlank).reverse.dropWhile isBlank).reverse

/-- Drop blanks at both ends. -/
def trimmed (text : String) : String :=
  String.ofList (trimChars text.toList)

/-- Lower the ASCII letters. -/
def asciiLowered (text : String) : String :=
  String.ofList (text.toList.map Char.toLower)

/-- Equality up to the case of ASCII letters. -/
def eqIgnoringAsciiCase (left right : String) : Bool :=
  asciiLowered left == asciiLowered right

end Medals
