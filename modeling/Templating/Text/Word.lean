import Templating.Text.WordTable

/-!
**Word characters.**

A word character is a letter, a mark, a decimal digit, a connector such as the underscore, or a
join control.  Identifiers in expressions are spelled with them.

Main definitions:

* `Templating.Text.isWord`, `Templating.Text.isDecimalDigit`;
* `Templating.Text.isIdentifierStart`, `Templating.Text.isIdentifierChar` — the characters of a
  name in an expression.
-/

set_option autoImplicit false

namespace Templating.Text

/-- Letters, digits and the underscore in ASCII, `wordRanges` beyond it. -/
def isWord (c : Char) : Bool :=
  if c.toNat < 128 then c.isAlphanum || c == '_' else wordRanges.contains c

/-- The ASCII digits, and `digitRanges` beyond them. -/
def isDecimalDigit (c : Char) : Bool :=
  if c.toNat < 128 then c.isDigit else digitRanges.contains c

/-- A name in an expression starts with an ASCII letter, an underscore or a dollar sign. -/
def isIdentifierStart (c : Char) : Bool :=
  c.isAlpha || c == '_' || c == '$'

/-- A name in an expression goes on with word characters and dollar signs. -/
def isIdentifierChar (c : Char) : Bool :=
  isWord c || c == '$'

end Templating.Text
