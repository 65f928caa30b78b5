import Templating.Json
import Templating.Text.Blank
import Templating.Text.Cut

/-!
**Loop expressions.**

A loop is written `item in source` or `item of source`.  The name of the item may stand in brackets
and may be followed by the names of one or two iterators.

Main definitions:

* `Templating.Expression.Loop` — the parts of a loop;
* `Templating.Expression.splitLoop?` — the text before and after the first `in` or `of`;
* `Templating.Expression.splitIterators?` — the name of an item and the iterators after it;
* `Templating.Expression.loop?` — the loop that a text stands for.
-/

set_option autoImplicit false

namespace Templating.Expression

open Text

/-- The parts of a loop. -/
structure Loop where
  source : String
  item : String
  iterator1 : Option String := none
  iterator2 : Option String := none
  deriving Repr, DecidableEq

/-- The members of a loop in JSON. -/
def Loop.members (l : Loop) : List (String × Json) :=
  [("for", .string l.source), ("alias", .string l.item)] ++
    Json.optional "iterator1" .string l.iterator1 ++ Json.optional "iterator2" .string l.iterator2

/-! ### The keyword -/

/-- What follows the keyword of a loop, with spaces on both sides of it. -/
def loopKeyword? (s : List Char) : Option (List Char) :=
  if s.takeWhile isSpace = [] then none
  else
    let t := s.dropWhile isSpace
    match (strip? ['i', 'n'] t).or (strip? ['o', 'f'] t) with
    | none => none
    | some r => if r.takeWhile isSpace = [] then none else some (r.dropWhile isSpace)

/-- The text before and after the first keyword of a loop. -/
def splitLoop? (s : List Char) : Option (List Char × List Char) := cutWhere? loopKeyword? s

/-! ### The item and its iterators -/

/-- The text without a bracket at its start and one at its end. -/
def stripParens (s : List Char) : List Char :=
  let s := if s.head? = some '(' then s.tail else s
  if s.getLast? = some ')' then s.dropLast else s

/-- Characters of an iterator name. -/
def isIteratorChar (c : Char) : Bool := !(c == ',' || c == '\x7d' || c == ']')

/-- One or two iterators that make up a whole text. -/
def iterators? (s : List Char) : Option (List Char × Option (List Char)) :=
  match s.dropWhile isIteratorChar with
  | [] => some (s.takeWhile isIteratorChar, none)
  | c :: r =>
      if c = ',' ∧ r.all isIteratorChar then some (s.takeWhile isIteratorChar, some r) else none

/-- The text before the first comma that only iterators follow, and these iterators. -/
def splitIterators? : List Char → Option (List Char × List Char × Option (List Char))
  | [] => none
  | c :: s =>
      match if c = ',' then iterators? s else none with
      | some its => some ([], its)
      | none => (splitIterators? s).map fun p => (c :: p.1, p.2)

/-- The trimmed text as a string. -/
def trimmed (s : List Char) : String := String.ofList (trim s)

/-- The loop that a text stands for. -/
def loop? (exp : String) : Option Loop :=
  match splitLoop? exp.toList with
  | none => none
  | some (front, source) =>
      let front := stripParens (trim front)
      match splitIterators? front with
      | none => some { source := trimmed source, item := String.ofList front }
      | some (item, iterator1, iterator2) =>
          some {
            source := trimmed source
            item := trimmed item
            iterator1 := some (trimmed iterator1)
            iterator2 := (iterator2.map trimmed).filter (· ≠ "") }

end Templating.Expression
