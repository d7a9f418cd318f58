import Cookbook.Text.Hexadecimal
import Cookbook.Text.Printable
/-!
# Cookbook.Text.Quoted

Text between quotes, as warnings and descriptions show it. The quotes are single ones, unless the
text has a single quote and no double one. The quote, the backslash and every character that is
not printable are escaped.
-/

namespace Cookbook.Text

/-- One character inside quotes `q`. -/
def escaped (q c : Char) : List Char :=
  if c == q || c == '\\' then ['\\', c]
  else if c == '\t' then ['\\', 't']
  else if c == '\n' then ['\\', 'n']
  else if c == '\r' then ['\\', 'r']
  else if isPrintable c then [c]
  else if c.toNat ≤ 0xFF then '\\' :: 'x' :: paddedHex 2 c.toNat
  else if c.toNat ≤ 0xFFFF then '\\' :: 'u' :: paddedHex 4 c.toNat
  else '\\' :: 'U' :: paddedHex 8 c.toNat

/-- The quote that a text is shown in. -/
def quoteOf (cs : List Char) : Char :=
  if cs.contains '\'' && !cs.contains '"' then '"' else '\''

/-- A text in quotes. -/
def quoted (s : String) : String :=
  let cs := s.toList
  let q := quoteOf cs
  String.ofList (q :: cs.flatMap (escaped q) ++ [q])

example : quoted "a'b" = "\"a'b\"" ∧ quoted "a'\"b" = "'a\\'\"b'" := by constructor <;> cbv
example : quoted "a\x00\n" = "'a\\x00\\n'" := by cbv

end Cookbook.Text
