import Templating.Text.Cut

/-!
**Reading JSON text.**

Each reader takes the text that is left and gives back a value with the text after it.  Blanks
before a value are skipped.  A value that nobody asks for is skipped without being built: its text
has to follow the grammar, but its strings need not spell characters and its numbers may be of any
size.

Main definitions:

* `Templating.Json.Reader.string?`, `Templating.Json.Reader.bool?`,
  `Templating.Json.Reader.null?` — values of a known kind;
* `Templating.Json.Reader.skip?` — a value of any kind;
* `Templating.Json.Reader.punctuation?` — a bracket, comma or colon.
-/

set_option autoImplicit false

namespace Templating.Json.Reader

/-! ### Blanks and punctuation -/

/-- The four blanks of JSON. -/
def isBlank (c : Char) : Bool := c == ' ' || c == '\n' || c == '\t' || c == '\r'

/-- The text after its leading blanks. -/
def skipBlanks (s : List Char) : List Char := s.dropWhile isBlank

/-- The text after blanks and the character `c`. -/
def punctuation? (c : Char) (s : List Char) : Option (List Char) :=
  match skipBlanks s with
  | [] => none
  | d :: r => if d = c then some r else none

/-! ### Strings -/

/-- A piece of a string: a character as it stands, or the number of a `\u` escape. -/
inductive Mark where
  | char (c : Char)
  | unit (n : Nat)
  deriving Repr, DecidableEq

/-- Where a reader stands inside a string. -/
inductive Stage where
  /-- Between pieces. -/
  | plain
  /-- After a backslash. -/
  | escape
  /-- In a `\u` escape, with so many digits to come and the number read so far. -/
  | hex (left value : Nat)
  deriving Repr, DecidableEq

/-- The value of a hexadecimal digit. -/
def hexValue? (c : Char) : Option Nat :=
  if '0' ≤ c ∧ c ≤ '9' then some (c.toNat - 48)
  else if 'a' ≤ c ∧ c ≤ 'f' then some (c.toNat - 87)
  else if 'A' ≤ c ∧ c ≤ 'F' then some (c.toNat - 55)
  else none

/-- The character of a one-letter escape. -/
def escaped? (c : Char) : Option Char :=
  if c = '"' ∨ c = '\\' ∨ c = '/' then some c
  else if c = 'b' then some '\x08'
  else if c = 'f' then some '\x0c'
  else if c = 'n' then some '\n'
  else if c = 'r' then some '\r'
  else if c = 't' then some '\t'
  else none

/-- The pieces of a string up to its closing quote, and the text after it. -/
def marks? : Stage → List Char → Option (List Mark × List Char)
  | _, [] => none
  | .plain, c :: s =>
      if c = '"' then some ([], s)
      else if c = '\\' then marks? .escape s
      else if c.toNat < 32 then none
      else (marks? .plain s).map fun p => (.char c :: p.1, p.2)
  | .escape, c :: s =>
      if c = 'u' then marks? (.hex 4 0) s
      else
        match escaped? c with
        | none => none
        | some d => (marks? .plain s).map fun p => (.char d :: p.1, p.2)
  | .hex left value, c :: s =>
      match hexValue? c with
      | none => none
      | some d =>
          let value := value * 16 + d
          if left ≤ 1 then (marks? .plain s).map fun p => (.unit value :: p.1, p.2)
          else marks? (.hex (left - 1) value) s

/-- The characters that the pieces spell.  Two escapes may form one character; one half alone
spells nothing. -/
def spell? : List Mark → Option (List Char)
  | [] => some []
  | .char c :: rest => (spell? rest).map (c :: ·)
  | .unit n :: rest =>
      if n < 0xD800 ∨ 0xE000 ≤ n then (spell? rest).map (Char.ofNat n :: ·)
      else if n < 0xDC00 then
        match rest with
        | .unit m :: rest' =>
            if 0xDC00 ≤ m ∧ m < 0xE000 then
              (spell? rest').map
                (Char.ofNat (0x10000 + (n - 0xD800) * 0x400 + (m - 0xDC00)) :: ·)
            else none
        | _ => none
      else none

/-- A string. -/
def string? (s : List Char) : Option (String × List Char) :=
  match punctuation? '"' s with
  | none => none
  | some r =>
      match marks? .plain r with
      | none => none
      | some (marks, r) => (spell? marks).map fun cs => (String.ofList cs, r)

/-! ### Words and numbers -/

/-- The text after blanks and a fixed word. -/
def word? (word : String) (s : List Char) : Option (List Char) :=
  Text.strip? word.toList (skipBlanks s)

/-- The word `null`. -/
def null? (s : List Char) : Option (List Char) := word? "null" s

/-- One of the words `true` and `false`. -/
def bool? (s : List Char) : Option (Bool × List Char) :=
  match word? "true" s with
  | some r => some (true, r)
  | none => (word? "false" s).map fun r => (false, r)

/-- The text after at least one digit. -/
def digits? : List Char → Option (List Char)
  | [] => none
  | c :: s => if c.isDigit then some (s.dropWhile Char.isDigit) else none

/-- The text after an exponent, if one follows. -/
def exponent? : List Char → Option (List Char)
  | [] => some []
  | c :: s =>
      if c = 'e' ∨ c = 'E' then
        match s with
        | [] => none
        | d :: r => if d = '+' ∨ d = '-' then digits? r else digits? s
      else some (c :: s)

/-- The text after a fraction and an exponent, if they follow. -/
def fraction? : List Char → Option (List Char)
  | [] => some []
  | c :: s => if c = '.' then (digits? s).bind exponent? else exponent? (c :: s)

/-- The text after an unsigned number. -/
def unsigned? : List Char → Option (List Char)
  | [] => none
  | c :: s =>
      if c = '0' then
        match s with
        | d :: _ => if d.isDigit then none else fraction? s
        | [] => some []
      else (digits? (c :: s)).bind fraction?

/-- The text after a number. -/
def number? : List Char → Option (List Char)
  | [] => none
  | c :: s => if c = '-' then unsigned? s else unsigned? (c :: s)

/-! ### Values of any kind -/

mutual

/-- The text after a value; `fuel` bounds the number of characters looked at. -/
def skipValue? : (fuel : Nat) → List Char → Option (List Char)
  | 0, _ => none
  | fuel + 1, s =>
      match skipBlanks s with
      | [] => none
      | c :: r =>
          if c = '"' then (marks? .plain r).map (·.2)
          else if c = '[' then
            match punctuation? ']' r with
            | some r => some r
            | none => skipItems? fuel r
          else if c = '\x7b' then
            match punctuation? '\x7d' r with
            | some r => some r
            | none => skipMembers? fuel r
          else if c = 'n' then Text.strip? "ull".toList r
          else if c = 't' then Text.strip? "rue".toList r
          else if c = 'f' then Text.strip? "alse".toList r
          else number? (c :: r)

/-- The text after the items of an array that has at least one, and its closing bracket. -/
def skipItems? : (fuel : Nat) → List Char → Option (List Char)
  | 0, _ => none
  | fuel + 1, s =>
      match skipValue? fuel s with
      | none => none
      | some r =>
          match punctuation? ',' r with
          | some r => skipItems? fuel r
          | none => punctuation? ']' r

/-- The text after the members of an object that has at least one, and its closing brace. -/
def skipMembers? : (fuel : Nat) → List Char → Option (List Char)
  | 0, _ => none
  | fuel + 1, s =>
      match (punctuation? '"' s).bind (marks? .plain) with
      | none => none
      | some (_, r) =>
          match (punctuation? ':' r).bind (skipValue? fuel) with
          | none => none
          | some r =>
              match punctuation? ',' r with
              | some r => skipMembers? fuel r
              | none => punctuation? '\x7d' r

end

/-- The text after a value of any kind. -/
def skip? (s : List Char) : Option (List Char) := skipValue? (s.length + 1) s

end Templating.Json.Reader
