import Templating.Text.Blank
import Templating.Text.Cut

/-!
**The keys that a static element may have.**

Main definitions:

* `Templating.Static.baseKeys` — the keys that any static element may have;
* `Templating.Static.keys` — these, with further ones from a list separated by commas;
* `Templating.Static.sortedKeys` — the same without repetitions, in order.
-/

set_option autoImplicit false

namespace Templating.Static

/-- What any element has, or may have without ever changing. -/
def baseKeys : List String :=
  ["type", "tag", "attrsList", "attrsMap", "plain", "parent", "children", "attrs", "start", "end",
    "rawAttrsMap"]

/-- The keys in a list separated by commas. -/
def listedKeys (list : String) : List String :=
  (((Text.splitOn ',' list.toList).map Text.trim).filter (· ≠ [])).map String.ofList

/-- The keys that a static element may have. -/
def keys (extra : String) : List String := baseKeys ++ listedKeys extra

/-- The keys that a static element may have, each once, in the order of their code points. -/
def sortedKeys (extra : String) : List String :=
  (keys extra).eraseDups.mergeSort fun a b => !decide (b < a)

end Templating.Static
