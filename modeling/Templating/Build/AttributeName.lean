import Templating.Text.Case
import Templating.Text.Cut
import Templating.Text.Word

/-!
**What the name of an attribute says.**

An attribute whose name starts with `v-`, `@`, `:` or `#` is a directive.  After the name of a
directive come its argument, which in square brackets is code, and its modifiers, each after a dot.

Main definitions:

* `Templating.Build.Purpose`, `Templating.Build.purpose` — what an attribute is for;
* `Templating.Build.cutModifiers` — a name and its modifiers;
* `Templating.Build.argument` — an argument, and whether it is code;
* `Templating.Build.camelCase` — a hyphenated name in camel case.
-/

set_option autoImplicit false

namespace Templating.Build

open Text

/-- What follows the mark of a directive. -/
def directiveBody? (name : List Char) : Option (List Char) :=
  (((strip? ['v', '-'] name).or (strip? ['@'] name)).or (strip? [':'] name)).or (strip? ['#'] name)

/-- What follows the mark of a binding. -/
def bindingBody? (name : List Char) : Option (List Char) :=
  (strip? [':'] name).or (strip? "v-bind:".toList name)

/-- What follows the mark of a listener. -/
def listenerBody? (name : List Char) : Option (List Char) :=
  (strip? ['@'] name).or (strip? "v-on:".toList name)

/-- A name and the modifiers after its dots.  Dots before the last closing bracket belong to the
argument. -/
def cutModifiers (name : List Char) : List Char × List String :=
  let back := (name.reverse.takeWhile (· != ']')).reverse
  let front := (name.reverse.dropWhile (· != ']')).reverse
  match back.dropWhile (· != '.') with
  | [] => (name, [])
  | _ :: modifiers =>
      (front ++ back.takeWhile (· != '.'),
        ((splitOn '.' modifiers).filter (· ≠ [])).map String.ofList)

/-- The code of an argument in square brackets, or a plain argument. -/
def argument (name : List Char) : String × Bool :=
  match name with
  | [] => ("", false)
  | c :: s =>
      if c = '[' ∧ s.getLast? = some ']' then (String.ofList s.dropLast, true)
      else (String.ofList (c :: s), false)

/-- What an attribute is for.  An argument comes with a flag that says whether it is code. -/
inductive Purpose where
  /-- An ordinary attribute. -/
  | plain
  /-- An attribute or property with an expression for its value. -/
  | binding (name : String) (dynamic : Bool)
  /-- A listener for an event. -/
  | listener (event : String) (dynamic : Bool)
  /-- Any other directive, with its argument. -/
  | directive (name : String) (argument : Option (String × Bool))
  deriving Repr, DecidableEq

/-- The name and the argument of a directive that is not built in. -/
def directive (body : List Char) : Purpose :=
  match body.dropWhile (· != ':') with
  | [] => .directive (String.ofList body) none
  | _ :: arg => .directive (String.ofList (body.takeWhile (· != ':'))) (some (argument arg))

/-- What an attribute with this name is for, and its modifiers. -/
def purpose (rawName : String) : Purpose × List String :=
  if (directiveBody? rawName.toList).isNone then (.plain, [])
  else
    let split := cutModifiers rawName.toList
    match bindingBody? split.1 with
    | some body => (.binding (argument body).1 (argument body).2, split.2)
    | none =>
        match listenerBody? split.1 with
        | some body => (.listener (argument body).1 (argument body).2, split.2)
        | none => (directive ((directiveBody? split.1).getD split.1), split.2)

/-- The text in which every hyphen before a word character is dropped and that character put into
upper case. -/
def camel : List Char → List Char
  | [] => []
  | [c] => [c]
  | c :: d :: s =>
      if c = '-' ∧ isWord d then upperChar d ++ camel s else c :: camel (d :: s)

/-- A hyphenated name in camel case. -/
def camelCase (name : String) : String := String.ofList (camel name.toList)

end Templating.Build
