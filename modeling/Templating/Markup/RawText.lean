import Templating.Text.Case
import Templating.Text.Cut

/-!
**Raw text.**

The content of a raw-text element goes up to its end tag, which may be written in any letter case.
Nothing before that end tag is markup.

Main definitions:

* `Templating.Markup.rawEndTag?` — an end tag of a given element;
* `Templating.Markup.splitRawText?` — the content of a raw-text element, and its end tag;
* `Templating.Markup.unwrap`, `Templating.Markup.unwrapMarks` — a text without the marks of
  comments and of character data.

Main results:

* `Templating.Markup.append_of_splitRawText?` — content, end tag and what follows make up the text.
-/

set_option autoImplicit false

namespace Templating.Markup

open Text

/-- The end tag of `tag` that a text starts with, and what follows it. -/
def rawEndTag? (tag s : List Char) : Option (List Char × List Char) :=
  match dropFold? ('<' :: '/' :: tag) s with
  | none => none
  | some t =>
      match t.dropWhile (· != '>') with
      | [] => none
      | c :: r => some (s.take (tag.length + 2) ++ t.takeWhile (· != '>') ++ [c], r)

/-- The content before the first end tag of `tag`, that end tag, and what follows it. -/
def splitRawText? (tag : List Char) : List Char → Option (List Char × List Char × List Char)
  | [] => none
  | c :: s =>
      match rawEndTag? tag (c :: s) with
      | some (e, r) => some ([], e, r)
      | none => (splitRawText? tag s).map fun p => (c :: p.1, p.2)

/-! ### Marks around content -/

/-- Stripping a pattern and cutting at another leaves no more than there was. -/
theorem length_of_strip_cut {opening closing s a r : List Char}
    (h : (strip? opening s).bind (cut? closing) = some (a, r)) : r.length ≤ s.length := by
  obtain ⟨t, ht, hc⟩ := Option.bind_eq_some_iff.mp h
  rw [strip?_eq_some_iff.mp ht, append_of_cut? hc]
  simp only [List.length_append]
  omega

/-- The text with every pair of marks taken off what stands between them.  The opening mark is the
character `first` followed by `opening`. -/
def unwrap (first : Char) (opening closing : List Char) (s : List Char) : List Char :=
  match s with
  | [] => []
  | c :: s =>
      if c = first then
        match h : (strip? opening s).bind (cut? closing) with
        | some (body, r) =>
            have := length_of_strip_cut h
            body ++ unwrap first opening closing r
        | none => c :: unwrap first opening closing s
      else c :: unwrap first opening closing s
termination_by s.length
decreasing_by all_goals (simp only [List.length_cons] at *; omega)

/-- The text without the marks of comments and of character data. -/
def unwrapMarks (s : List Char) : List Char :=
  unwrap '<' "![CDATA[".toList "]]>".toList (unwrap '<' "!--".toList "-->".toList s)

/-! ### Nothing is lost -/

theorem append_of_rawEndTag? {tag s e r : List Char} (h : rawEndTag? tag s = some (e, r)) :
    s = e ++ r ∧ e ≠ [] := by
  unfold rawEndTag? at h
  split at h
  · cases h
  · rename_i t ht
    have e₁ := take_append_of_dropFold? ht
    have e₂ := List.takeWhile_append_dropWhile (p := (· != '>')) (l := t)
    split at h
    · cases h
    · rename_i c r' hd
      cases h
      rw [hd] at e₂
      rw [← e₂] at e₁
      exact ⟨by simpa using e₁, by simp⟩

/-- Content, end tag and what follows make up the text, and the end tag is not empty. -/
theorem append_of_splitRawText? {tag s a e r : List Char}
    (h : splitRawText? tag s = some (a, e, r)) : s = a ++ e ++ r ∧ e ≠ [] := by
  induction s generalizing a with
  | nil => simp [splitRawText?] at h
  | cons c s ih =>
      simp only [splitRawText?] at h
      split at h
      · rename_i he
        cases h
        exact ⟨by simpa using (append_of_rawEndTag? he).1, (append_of_rawEndTag? he).2⟩
      · obtain ⟨⟨a', e', r'⟩, hp, heq⟩ := Option.map_eq_some_iff.mp h
        cases heq
        obtain ⟨e₁, hne⟩ := ih hp
        exact ⟨by rw [e₁]; simp, hne⟩

/-- Reading raw text takes up some characters. -/
theorem length_of_splitRawText? {tag s a e r : List Char}
    (h : splitRawText? tag s = some (a, e, r)) : r.length < s.length := by
  obtain ⟨e₁, hne⟩ := append_of_splitRawText? h
  have hpos := List.length_pos_iff.mpr hne
  rw [e₁]
  simp only [List.length_append]
  omega

end Templating.Markup
