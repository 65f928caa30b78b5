import Templating.Markup.Attribute
import Templating.Markup.Name

/-!
**Start tags as they are written.**

Main definitions:

* `Templating.Markup.RawStartTag` — a start tag with its exact spelling;
* `Templating.Markup.tagEnd?` — the end of a start tag;
* `Templating.Markup.attributes?` — the attributes up to the end of the tag;
* `Templating.Markup.startTag?` — the complete start tag that a text starts with.

Main results:

* `Templating.Markup.append_of_startTag?` — a start tag that was read and what follows it make up
  the text.
-/

set_option autoImplicit false

namespace Templating.Markup

open Text

/-- A start tag as it is written: its name, its attributes, and the spelling of its end. -/
structure RawStartTag where
  name : List Char
  attributes : List RawAttribute
  tagEnd : List Char
  selfClosing : Bool
  deriving Repr, DecidableEq

/-- The spelling of a start tag. -/
def RawStartTag.source (t : RawStartTag) : List Char :=
  '<' :: t.name ++ t.attributes.flatMap RawAttribute.source ++ t.tagEnd

/-- The end of a start tag: its spelling, whether it has a slash, and what follows. -/
def tagEnd? (s : List Char) : Option (List Char × Bool × List Char) :=
  match s.dropWhile isSpace with
  | [] => none
  | c :: t =>
      if c = '>' then some (s.takeWhile isSpace ++ ['>'], false, t)
      else if c = '/' then
        match t with
        | [] => none
        | d :: r => if d = '>' then some (s.takeWhile isSpace ++ ['/', '>'], true, r) else none
      else none

/-- The attributes up to the end of a start tag, that end, and what follows it. -/
def attributes? (s : List Char) :
    Option (List RawAttribute × List Char × Bool × List Char) :=
  match tagEnd? s with
  | some (spelling, slash, r) => some ([], spelling, slash, r)
  | none =>
      match h : attribute? s with
      | none => none
      | some (a, r) =>
          have := length_of_attribute? h
          (attributes? r).map fun p => (a :: p.1, p.2)
termination_by s.length
decreasing_by all_goals omega

/-- The complete start tag that a text starts with, and what follows it. -/
def startTag? : List Char → Option (RawStartTag × List Char)
  | [] => none
  | c :: s =>
      if c = '<' then
        match tagName? s with
        | none => none
        | some (name, r) =>
            (attributes? r).map fun p => (⟨name, p.1, p.2.1, p.2.2.1⟩, p.2.2.2)
      else none

/-! ### Nothing is lost -/

theorem append_of_tagEnd? {s a r : List Char} {slash : Bool}
    (h : tagEnd? s = some (a, slash, r)) : s = a ++ r := by
  unfold tagEnd? at h
  have e := List.takeWhile_append_dropWhile (p := isSpace) (l := s)
  split at h
  · cases h
  · rename_i c t hd
    rw [hd] at e
    split at h
    · rename_i hc
      cases h
      simpa [hc] using e.symm
    · split at h
      · rename_i hc
        split at h
        · cases h
        · rename_i d r' _
          split at h
          · rename_i hgt
            rw [hc, hgt] at e
            cases h
            simpa using e.symm
          · cases h
      · cases h

theorem tagEnd?_ne_nil {s a r : List Char} {slash : Bool} (h : tagEnd? s = some (a, slash, r)) :
    a ≠ [] := by
  unfold tagEnd? at h
  split at h
  · cases h
  · split at h
    · cases h; simp
    · split at h
      · split at h
        · cases h
        · split at h
          · cases h; simp
          · cases h
      · cases h

theorem append_of_attributes? {s e r : List Char} {l : List RawAttribute} {slash : Bool}
    (h : attributes? s = some (l, e, slash, r)) :
    s = l.flatMap RawAttribute.source ++ e ++ r ∧ e ≠ [] := by
  fun_induction attributes? s generalizing l with
  | case1 s spelling slash' r' he =>
      cases h
      exact ⟨by simpa using append_of_tagEnd? he, tagEnd?_ne_nil he⟩
  | case2 => cases h
  | case3 s _ a r' ha _ ih =>
      obtain ⟨⟨l', rest⟩, hp, heq⟩ := Option.map_eq_some_iff.mp h
      cases heq
      obtain ⟨e₁, hne⟩ := ih hp
      refine ⟨?_, hne⟩
      rw [append_of_attribute? ha, e₁]
      simp

/-- A start tag that was read and what follows it make up the text. -/
theorem append_of_startTag? {s r : List Char} {t : RawStartTag}
    (h : startTag? s = some (t, r)) : s = t.source ++ r := by
  cases s with
  | nil => simp [startTag?] at h
  | cons c s =>
      simp only [startTag?] at h
      split at h
      · rename_i hc
        split at h
        · cases h
        · rename_i name r₁ hn
          obtain ⟨⟨l, e, slash, r₂⟩, hp, heq⟩ := Option.map_eq_some_iff.mp h
          cases heq
          rw [append_of_tagName? hn, (append_of_attributes? hp).1, hc]
          simp [RawStartTag.source]
      · cases h

end Templating.Markup
