import Templating.Expression.Filter
import Templating.Json
import Templating.Text.Cut

/-!
**Interpolation in text.**

A text may hold expressions between two marks, double braces unless others are chosen.  The first
opening mark that is followed by something and a closing mark counts, and the expression ends at
the first closing mark that leaves it non-empty.

Main definitions:

* `Templating.Expression.Part`, `Templating.Expression.Part.code` — literal text or an expression,
  and the code that renders it;
* `Templating.Expression.interpolation?` — the first interpolation of a text;
* `Templating.Expression.parts` — the parts of a text;
* `Templating.Expression.interpolate?` — the parts of a text that has an interpolation;
* `Templating.Expression.concatenation` — the code that renders parts one after another.

Main results:

* `Templating.Expression.append_of_interpolation?` — an interpolation that was found and what
  surrounds it make up the text.
-/

set_option autoImplicit false

namespace Templating.Expression

open Text

/-- Literal text, or the code of an expression. -/
inductive Part where
  | literal (text : String)
  | binding (code : String)
  deriving Repr, DecidableEq

namespace Part

/-- The code that renders a part. -/
def code : Part → String
  | literal text => quote text
  | binding code => "_s(" ++ code ++ ")"

/-- A part as JSON. -/
def json : Part → Json
  | literal text => .string text
  | binding code => .object [("@binding", .string code)]

end Part

/-- The code that renders parts one after another. -/
def concatenation (parts : List Part) : String := join "+" (parts.map Part.code)

/-! ### Finding interpolations -/

/-- At least one character before a closing mark, and what follows the mark. -/
def insideMarks? (closing : List Char) : List Char → Option (List Char × List Char)
  | [] => none
  | c :: s => (cut? closing s).map fun p => (c :: p.1, p.2)

/-- The text before the first interpolation, the text between its marks, and what follows it. -/
def interpolation? (opening closing : List Char) :
    List Char → Option (List Char × List Char × List Char)
  | [] => none
  | c :: s =>
      match (strip? opening (c :: s)).bind (insideMarks? closing) with
      | some (inside, r) => some ([], inside, r)
      | none => (interpolation? opening closing s).map fun p => (c :: p.1, p.2)

theorem append_of_insideMarks? {closing s a r : List Char}
    (h : insideMarks? closing s = some (a, r)) : s = a ++ closing ++ r ∧ a ≠ [] := by
  cases s with
  | nil => simp [insideMarks?] at h
  | cons c s =>
      obtain ⟨⟨a', r'⟩, hc, heq⟩ := Option.map_eq_some_iff.mp h
      cases heq
      exact ⟨by rw [append_of_cut? hc]; simp, by simp⟩

/-- An interpolation that was found and what surrounds it make up the text. -/
theorem append_of_interpolation? {opening closing s a e r : List Char}
    (h : interpolation? opening closing s = some (a, e, r)) :
    s = a ++ opening ++ e ++ closing ++ r ∧ e ≠ [] := by
  induction s generalizing a with
  | nil => simp [interpolation?] at h
  | cons c s ih =>
      simp only [interpolation?] at h
      split at h
      · rename_i hi
        cases h
        obtain ⟨t, ht, hin⟩ := Option.bind_eq_some_iff.mp hi
        obtain ⟨e₁, hne⟩ := append_of_insideMarks? hin
        exact ⟨by rw [strip?_eq_some_iff.mp ht, e₁]; simp, hne⟩
      · obtain ⟨⟨a', e', r'⟩, hp, heq⟩ := Option.map_eq_some_iff.mp h
        cases heq
        obtain ⟨e₁, hne⟩ := ih hp
        exact ⟨by rw [e₁]; simp, hne⟩

/-- Finding an interpolation takes up some characters. -/
theorem length_of_interpolation? {opening closing s a e r : List Char}
    (h : interpolation? opening closing s = some (a, e, r)) : r.length < s.length := by
  obtain ⟨e₁, hne⟩ := append_of_interpolation? h
  have hpos := List.length_pos_iff.mpr hne
  rw [e₁]
  simp only [List.length_append]
  omega

/-! ### Parts of a text -/

/-- A literal part, unless there is nothing in it. -/
def literalPart (s : List Char) : List Part :=
  if s = [] then [] else [.literal (String.ofList s)]

/-- The parts of a text. -/
def parts (opening closing : List Char) (s : List Char) : List Part :=
  match h : interpolation? opening closing s with
  | none => literalPart s
  | some (before, inside, r) =>
      have := length_of_interpolation? h
      literalPart before ++
        .binding (String.ofList (applyFilters (trim inside))) :: parts opening closing r
termination_by s.length
decreasing_by all_goals omega

/-- The marks around an interpolation. -/
def marks (delimiters : Option (String × String)) : String × String :=
  delimiters.getD ("\x7b\x7b", "\x7d\x7d")

/-- The parts of a text that has an interpolation. -/
def interpolate? (delimiters : Option (String × String)) (text : String) : Option (List Part) :=
  let opening := (marks delimiters).1.toList
  let closing := (marks delimiters).2.toList
  if (interpolation? opening closing text.toList).isSome then
    some (parts opening closing text.toList)
  else none

end Templating.Expression
