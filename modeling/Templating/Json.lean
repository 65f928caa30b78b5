import Templating.Text.Literal

/-!
**JSON values and their compact text.**

Trees, tokens and messages leave the library as JSON.  Numbers are whole, and the members of an
object are written in the order given.

Main definitions:

* `Templating.Json` — JSON values;
* `Templating.Json.text` — the text of a value, without any blanks;
* `Templating.Json.orNull`, `Templating.Json.optional`, `Templating.Json.flag`,
  `Templating.Json.nonEmpty` — values and members that depend on what is there.
-/

set_option autoImplicit false

namespace Templating

/-- A JSON value. -/
inductive Json where
  | null
  | bool (value : Bool)
  | number (value : Int)
  | string (value : String)
  | array (items : List Json)
  | object (members : List (String × Json))
  deriving Repr, Inhabited

namespace Json

mutual

/-- Append the text of a value to `out`. -/
def write (out : String) : Json → String
  | null => out ++ "null"
  | bool true => out ++ "true"
  | bool false => out ++ "false"
  | number n => out ++ toString n
  | string s => out ++ Text.quote s
  | array items => writeItems (out ++ "[") items ++ "]"
  | object members => writeMembers (out ++ "\x7b") members ++ "\x7d"

/-- Append the texts of the items of an array, with commas between them. -/
def writeItems (out : String) : List Json → String
  | [] => out
  | [v] => write out v
  | v :: rest => writeItems (write out v ++ ",") rest

/-- Append the members of an object, with commas between them. -/
def writeMembers (out : String) : List (String × Json) → String
  | [] => out
  | [(k, v)] => write (out ++ Text.quote k ++ ":") v
  | (k, v) :: rest => writeMembers (write (out ++ Text.quote k ++ ":") v ++ ",") rest

end

/-- The compact text of a value. -/
def text (j : Json) : String := write "" j

/-! ### Building values -/

/-- A natural number. -/
def nat (n : Nat) : Json := number n

/-- A value that may be absent, as `null` when it is. -/
def orNull {α : Type} (f : α → Json) : Option α → Json
  | none => null
  | some a => f a

/-- A member that is written when there is a value. -/
def optional {α : Type} (key : String) (f : α → Json) : Option α → List (String × Json)
  | none => []
  | some a => [(key, f a)]

/-- A member that is written when it is true. -/
def flag (key : String) (b : Bool) : List (String × Json) := if b then [(key, bool true)] else []

/-- A member that is written when the list is not empty. -/
def nonEmpty {α : Type} (key : String) (f : List α → Json) (l : List α) : List (String × Json) :=
  if l.isEmpty then [] else [(key, f l)]

/-- An array of strings. -/
def strings (l : List String) : Json := array (l.map string)

end Json

end Templating
