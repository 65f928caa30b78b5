import Templating.Text.Ranges

/-!
**Names of tags.**

A tag is named by a simple name, or by two of them with a colon in between.

Main definitions:

* `Templating.Markup.isNameStart`, `Templating.Markup.isNameChar` — the characters of a name;
* `Templating.Markup.simpleName?`, `Templating.Markup.tagName?` — the name a text starts with.

Main results:

* `Templating.Markup.append_of_tagName?` — a name that was read and what follows it make up the
  text.
-/

set_option autoImplicit false

namespace Templating.Markup

/-- A name starts with an ASCII letter or an underscore. -/
def isNameStart (c : Char) : Bool := c.isAlpha || c == '_'

/-- Characters beyond ASCII that may stand inside a name. -/
def nameRanges : Text.Ranges := [
  (0x00B7, 0x00B7), (0x00C0, 0x00D6), (0x00D8, 0x00F6), (0x00F8, 0x037D), (0x037F, 0x1FFF),
  (0x200C, 0x200D), (0x203F, 0x2040), (0x2070, 0x218F), (0x2C00, 0x2FEF), (0x3001, 0xD7FF),
  (0xF900, 0xFDCF), (0xFDF0, 0xFFFD)]

/-- A name goes on with letters, digits, underscores, hyphens and dots. -/
def isNameChar (c : Char) : Bool :=
  c.isAlphanum || c == '_' || c == '-' || c == '.' || nameRanges.contains c

/-- The simple name that a text starts with, and what follows it. -/
def simpleName? : List Char → Option (List Char × List Char)
  | [] => none
  | c :: s =>
      if isNameStart c then some (c :: s.takeWhile isNameChar, s.dropWhile isNameChar) else none

/-- The name of a tag that a text starts with, and what follows it.  A colon belongs to the name
when another simple name follows it. -/
def tagName? (s : List Char) : Option (List Char × List Char) :=
  match simpleName? s with
  | none => none
  | some (name, r) =>
      match r with
      | [] => some (name, r)
      | c :: t =>
          if c = ':' then
            match simpleName? t with
            | some (rest, r') => some (name ++ ':' :: rest, r')
            | none => some (name, r)
          else
            some (name, r)

/-- A simple name and what follows it make up the text. -/
theorem append_of_simpleName? {s n r : List Char} (h : simpleName? s = some (n, r)) :
    s = n ++ r := by
  cases s with
  | nil => simp [simpleName?] at h
  | cons c s =>
      simp only [simpleName?] at h
      split at h
      · cases h; simp
      · cases h

/-- A name and what follows it make up the text. -/
theorem append_of_tagName? {s n r : List Char} (h : tagName? s = some (n, r)) : s = n ++ r := by
  unfold tagName? at h
  split at h
  · cases h
  · rename_i name r₁ h₁
    have e₁ := append_of_simpleName? h₁
    split at h
    · cases h; exact e₁
    · split at h
      · rename_i hc
        split at h
        · rename_i h₂
          have e₂ := append_of_simpleName? h₂
          cases h
          rw [e₁, e₂, hc]
          simp
        · cases h; exact e₁
      · cases h; exact e₁

end Templating.Markup
