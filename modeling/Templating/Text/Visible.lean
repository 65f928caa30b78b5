import Templating.Text.VisibleTable

/-!
**Texts shown to a reader.**

A text that a message quotes is written so that every character of it can be seen: quotes and
backslashes are escaped, and a character that would not show stands as its code point.

Main definitions:

* `Templating.Text.isHidden` — the characters that are written as their code point;
* `Templating.Text.visible` — the quoted, visible form of a string.
-/

set_option autoImplicit false

namespace Templating.Text

/-- Characters that do not show on their own: controls, separators other than the space, unassigned
code points, marks that combine with the character before them, and fillers without a glyph. -/
def isHidden (c : Char) : Bool :=
  if c.toNat < 128 then c.toNat < 32 || c.toNat == 127 else hiddenRanges.contains c

/-- The visible form of a character. -/
def showChar (c : Char) : List Char :=
  if c = '"' then ['\\', '"']
  else if c = '\\' then ['\\', '\\']
  else if c = '\n' then ['\\', 'n']
  else if c = '\r' then ['\\', 'r']
  else if c = '\t' then ['\\', 't']
  else if c = '\x00' then ['\\', '0']
  else if isHidden c then ['\\', 'u', '\x7b'] ++ Nat.toDigits 16 c.toNat ++ ['\x7d']
  else [c]

/-- The visible form of a string, between double quotes. -/
def visible (s : String) : String :=
  String.ofList ('"' :: s.toList.flatMap showChar ++ ['"'])

end Templating.Text
