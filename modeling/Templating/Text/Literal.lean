/-!
**Double-quoted string literals.**

Literal text goes into generated code, and into JSON, between double quotes.  Quotes, backslashes
and control characters are escaped; every other character stands for itself.

Main definitions:

* `Templating.Text.escapeChar`, `Templating.Text.escape` — the spelling of a character and of a
  text between the quotes;
* `Templating.Text.quote` — the literal of a string;
* `Templating.Text.escapeLineSeparators` — the two Unicode line separators, which end a line of
  code, as escapes.
-/

set_option autoImplicit false

namespace Templating.Text

/-- A digit of a hexadecimal number in lower case. -/
def hexDigit (n : Nat) : Char :=
  if n < 10 then Char.ofNat (48 + n) else Char.ofNat (87 + n)

/-- The spelling of a character inside a double-quoted literal. -/
def escapeChar (c : Char) : List Char :=
  if c = '"' then ['\\', '"']
  else if c = '\\' then ['\\', '\\']
  else if c = '\x08' then ['\\', 'b']
  else if c = '\x0c' then ['\\', 'f']
  else if c = '\n' then ['\\', 'n']
  else if c = '\r' then ['\\', 'r']
  else if c = '\t' then ['\\', 't']
  else if c.toNat < 32 then ['\\', 'u', '0', '0', hexDigit (c.toNat / 16), hexDigit (c.toNat % 16)]
  else [c]

/-- The spelling of a text inside a double-quoted literal. -/
def escape (s : List Char) : List Char := s.flatMap escapeChar

/-- The double-quoted literal of a string. -/
def quote (s : String) : String := String.ofList ('"' :: escape s.toList ++ ['"'])

/-- The line separators U+2028 and U+2029 as escapes; everything else stays. -/
def escapeLineSeparators (s : String) : String :=
  String.ofList <| s.toList.flatMap fun c =>
    if c.toNat = 0x2028 then ['\\', 'u', '2', '0', '2', '8']
    else if c.toNat = 0x2029 then ['\\', 'u', '2', '0', '2', '9']
    else [c]

@[simp] theorem escape_nil : escape [] = [] := rfl

@[simp] theorem escape_cons (c : Char) (s : List Char) :
    escape (c :: s) = escapeChar c ++ escape s := rfl

@[simp] theorem escape_append (s t : List Char) : escape (s ++ t) = escape s ++ escape t := by
  simp [escape]

end Templating.Text
