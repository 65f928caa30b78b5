/-!
**Blank characters.**

Two sets of blank characters are in use.  `isSpace` is the wide one, the Unicode property
White_Space: it bounds attributes and expressions and is what trimming removes.  `isTemplateBlank`
is the narrow one: the five characters that the template format itself folds.

Main definitions:

* `Templating.Text.isSpace`, `Templating.Text.isTemplateBlank`;
* `Templating.Text.trimStart`, `Templating.Text.trimEnd`, `Templating.Text.trim` — a text without
  the spaces at its ends, and `Templating.Text.isBlank` for a text of spaces only;
* `Templating.Text.collapse` — every run of template blanks becomes one space.
-/

set_option autoImplicit false

namespace Templating.Text

/-- The Unicode property White_Space. -/
def isSpace (c : Char) : Bool :=
  let n := c.toNat
  (0x0009 ≤ n && n ≤ 0x000D) || n == 0x0020 || n == 0x0085 || n == 0x00A0 || n == 0x1680 ||
    (0x2000 ≤ n && n ≤ 0x200A) || n == 0x2028 || n == 0x2029 || n == 0x202F || n == 0x205F ||
    n == 0x3000

/-- Space, tab, line feed, carriage return and form feed. -/
def isTemplateBlank (c : Char) : Bool :=
  c == ' ' || c == '\t' || c == '\n' || c == '\r' || c == '\x0c'

/-! ### Trimming -/

/-- The text without its leading spaces. -/
def trimStart (s : List Char) : List Char := s.dropWhile isSpace

/-- The text without its trailing spaces. -/
def trimEnd (s : List Char) : List Char := (s.reverse.dropWhile isSpace).reverse

/-- The text without the spaces at its ends. -/
def trim (s : List Char) : List Char := trimEnd (trimStart s)

/-- A text of spaces only. -/
def isBlank (s : List Char) : Bool := s.all isSpace

@[simp] theorem trimStart_nil : trimStart [] = [] := rfl

@[simp] theorem trimEnd_nil : trimEnd [] = [] := rfl

@[simp] theorem trim_nil : trim [] = [] := rfl

/-- A text is blank exactly when nothing is left of it after trimming. -/
theorem trim_eq_nil_iff (s : List Char) : trim s = [] ↔ isBlank s = true := by
  have key : ∀ t : List Char, t.dropWhile isSpace = [] ↔ t.all isSpace = true := by
    intro t
    induction t with
    | nil => simp
    | cons c t ih => cases h : isSpace c <;> simp [h, ih]
  constructor
  · intro h
    have h1 : ((trimStart s).reverse.all isSpace) = true :=
      (key _).mp (List.reverse_eq_nil_iff.mp h)
    rw [List.all_reverse] at h1
    by_cases hs : trimStart s = []
    · exact (key s).mp hs
    · obtain ⟨c, t, hct⟩ := List.exists_cons_of_ne_nil hs
      have hc : isSpace c = true := by
        rw [hct] at h1; simp only [List.all_cons, Bool.and_eq_true] at h1; exact h1.1
      have hd : s.dropWhile isSpace = c :: t := hct
      have hne : ¬ isSpace c = true := by
        have := List.head?_dropWhile_not isSpace s
        rw [hd] at this; simpa using this
      exact absurd hc hne
  · intro h
    have : trimStart s = [] := (key s).mpr h
    simp [trim, this]

/-! ### Collapsing -/

/-- The rest of a run of template blanks is skipped while `inRun` holds. -/
def collapseFrom (inRun : Bool) : List Char → List Char
  | [] => []
  | c :: s =>
      if isTemplateBlank c then
        if inRun then collapseFrom true s else ' ' :: collapseFrom true s
      else
        c :: collapseFrom false s

/-- Every run of template blanks becomes one space. -/
def collapse (s : List Char) : List Char := collapseFrom false s

end Templating.Text
