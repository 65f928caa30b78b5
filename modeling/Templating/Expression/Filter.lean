import Templating.Expression.Lexical
import Templating.Text.Blank

/-!
**Filters.**

An expression may be followed by filters, separated by single bars: `value | name | name(args)`.
Filters become calls around the expression.  A bar separates only in code, outside of all brackets,
and not next to another bar.

Main definitions:

* `Templating.Expression.Scanner` — what is known of the characters read so far;
* `Templating.Expression.Scanner.separates` — the bars that separate;
* `Templating.Expression.segments` — an expression cut at these bars;
* `Templating.Expression.applyFilter` — a filter as a call;
* `Templating.Expression.applyFilters` — an expression with its filters as calls.
-/

set_option autoImplicit false

namespace Templating.Expression

open Text

/-- What is known of the characters read so far. -/
structure Scanner where
  context : Context := .code
  nesting : Nesting := {}
  /-- The character just read. -/
  prev : Option Char := none
  /-- The character read last that is not a space. -/
  operand : Option Char := none
  deriving Repr, DecidableEq

namespace Scanner

/-- Whether the bar `c` separates, in front of the characters `rest`. -/
def separates (st : Scanner) (c : Char) (rest : List Char) : Bool :=
  st.context = .code && c = '|' && rest.head? ≠ some '|' && st.prev ≠ some '|' &&
    st.nesting.isClosed

/-- Remember `c` as the character just read. -/
def remember (st : Scanner) (c : Char) : Scanner :=
  { st with prev := some c, operand := if c = ' ' then st.operand else some c }

/-- What is known after a character that does not separate. -/
def step (st : Scanner) (c : Char) : Scanner :=
  let divides := (st.operand.map endsOperand).getD false
  { st.remember c with
    context := st.context.next c st.prev (c = '/' && !divides)
    nesting := if st.context = .code then st.nesting.after c else st.nesting }

end Scanner

/-- The parts of the rest of an expression between the bars that separate. -/
def segments (st : Scanner) : List Char → List (List Char)
  | [] => [[]]
  | c :: s =>
      if st.separates c s then [] :: segments (st.remember c) s
      else
        match segments (st.step c) s with
        | [] => [[c]]
        | p :: ps => (c :: p) :: ps

/-- The call of a filter on an expression.  A filter may bring further arguments in brackets. -/
def applyFilter (exp filter : List Char) : List Char :=
  let call : List Char → List Char := fun name =>
    "_f(\"".toList ++ name ++ "\")(".toList ++ exp
  let name := filter.takeWhile (· != '(')
  match filter.dropWhile (· != '(') with
  | [] => call name ++ [')']
  | _ :: args => if args = [')'] then call name ++ [')'] else call name ++ ',' :: args

/-- An expression with its filters as calls. -/
def applyFilters (exp : List Char) : List Char :=
  match (segments {} exp).map trim with
  | [] => []
  | first :: filters => filters.foldl applyFilter first

/-- An expression with its filters as calls, as strings. -/
def filterCode (exp : String) : String := String.ofList (applyFilters exp.toList)

end Templating.Expression
