/-!
# Cookbook.Text.Blank

White space and trimming. A character is *blank* when it is a space separator or when it separates
lines, paragraphs or segments in bidirectional text; the last of these brings in the four
information separators U+001C to U+001F.
-/

namespace Cookbook.Text

/-- White space of every script. -/
def isBlank (c : Char) : Bool :=
  let n := c.toNat
  (0x09 ≤ n && n ≤ 0x0D) || (0x1C ≤ n && n ≤ 0x20) || n == 0x85 || n == 0xA0 || n == 0x1680 ||
    (0x2000 ≤ n && n ≤ 0x200A) || n == 0x2028 || n == 0x2029 || n == 0x202F || n == 0x205F ||
    n == 0x3000

/-- Without the characters of a class at either end. -/
def trimBy (p : Char → Bool) (cs : List Char) : List Char :=
  ((cs.dropWhile p).reverse.dropWhile p).reverse

/-- A text without the white space at either end. -/
def strip (s : String) : String := String.ofList (trimBy isBlank s.toList)

end Cookbook.Text
