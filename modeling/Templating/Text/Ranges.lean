/-!
**Sets and maps of code points, given by tables.**

A property of characters is written down as a list of closed code point intervals, a mapping of
characters as a list of evenly spaced runs.

Main definitions:

* `Templating.Text.Ranges`, `Templating.Text.Ranges.contains` — a set of characters;
* `Templating.Text.Run`, `Templating.Text.Run.image?` — a piece of a character mapping;
* `Templating.Text.lookupRuns` — the mapping that a list of runs stands for.
-/

set_option autoImplicit false

namespace Templating.Text

/-- A set of code points as a list of closed intervals. -/
abbrev Ranges := List (Nat × Nat)

/-- Whether the code point of `c` lies in one of the intervals. -/
def Ranges.contains (r : Ranges) (c : Char) : Bool :=
  r.any fun p => p.1 ≤ c.toNat && c.toNat ≤ p.2

/-- Every `step`-th code point from `first` to `last`, mapped to the code points that start at
`target` with the same distances. -/
structure Run where
  first : Nat
  last : Nat
  step : Nat
  target : Nat
  deriving Repr, DecidableEq

/-- The image of `n` under a run, if the run covers it. -/
def Run.image? (r : Run) (n : Nat) : Option Nat :=
  if r.first ≤ n ∧ n ≤ r.last ∧ (n - r.first) % r.step = 0 then
    some (r.target + (n - r.first))
  else
    none

/-- The image of a character under the first run that covers it; other characters stay. -/
def lookupRuns (runs : List Run) (c : Char) : Char :=
  match runs.findSome? (·.image? c.toNat) with
  | some n => Char.ofNat n
  | none => c

end Templating.Text
