import Templating.Dict
import Templating.Json
import Templating.Text.Blank
import Templating.Text.Cut

/-!
**Inline styles.**

The text of a style attribute is a sequence of declarations `property: value`, separated by
semicolons.  A semicolon inside round brackets does not separate.

Main definitions:

* `Templating.Expression.declarations` — the text cut at the semicolons that separate;
* `Templating.Expression.declaration?` — the property and the value of a declaration;
* `Templating.Expression.styles` — the properties with their values;
* `Templating.Expression.styleCode` — the same as the code of an object.
-/

set_option autoImplicit false

namespace Templating.Expression

open Text

/-- The parts of a text between the semicolons outside of round brackets; `depth` counts the
brackets open, in 32 bits. -/
def declarations (depth : Int32) : List Char → List (List Char)
  | [] => [[]]
  | c :: s =>
      if c = ';' ∧ depth ≤ 0 then [] :: declarations depth s
      else
        let depth := if c = '(' then depth + 1 else if c = ')' then depth - 1 else depth
        match declarations depth s with
        | [] => [[c]]
        | p :: ps => (c :: p) :: ps

/-- The property and the value of a declaration; a text without a colon is none. -/
def declaration? (s : List Char) : Option (String × String) :=
  match s.dropWhile (· != ':') with
  | [] => none
  | _ :: value =>
      some (String.ofList (trim (s.takeWhile (· != ':'))), String.ofList (trim value))

/-- The properties of a style with their values. -/
def styles (css : String) : Dict String :=
  Dict.ofList ((declarations 0 css.toList).filterMap declaration?)

/-- The code of an object with the properties of a style. -/
def styleCode (css : String) : String :=
  (Json.object ((styles css).entries.map fun p => (p.1, .string p.2))).text

end Templating.Expression
