import Mathlib.Data.List.TakeWhile
import Templating.Markup.Piece
import Templating.Text.Bytes

/-!
**How pieces of markup are spelled.**

A piece of markup ends where its end mark first occurs, and an end tag names an element.  Slices
of a text between byte positions are described by what stands before and after them.

Main definitions:

* `Templating.Text.IsBoundary` — a byte position between two characters;
* `Templating.Markup.IsSimpleName`, `Templating.Markup.IsTagName` — the names of tags;
* `Templating.Markup.Piece.Complete` — a piece that goes up to its first end mark.

Main results:

* `Templating.Text.slice?_eq_some_iff` — a slice, by what stands before and after it;
* `Templating.Text.not_infix_of_cut?` — a text is cut at the first occurrence of a pattern;
* `Templating.Markup.complete_of_piece` — **every piece that is read is complete**.
-/

set_option autoImplicit false

namespace Templating.Text

/-! ### Slices -/

/-- A byte position between two characters of a text, or at one of its ends. -/
def IsBoundary (s : List Char) (n : Nat) : Prop := ∃ a b, s = a ++ b ∧ bytes a = n

/-- A slice, by what stands before and after it. -/
theorem slice?_eq_some_iff {s b : List Char} {start stop : Nat} :
    slice? s start stop = some b ↔
      ∃ a c, s = a ++ b ++ c ∧ bytes a = start ∧ bytes a + bytes b = stop := by
  constructor
  · intro h
    simp only [slice?] at h
    split at h
    · rename_i hbytes
      obtain ⟨hstop, hstart⟩ := hbytes
      cases h
      have hfront := splitAtByte_append stop s
      have hback := splitAtByte_append start (splitAtByte stop s).1
      refine ⟨(splitAtByte start (splitAtByte stop s).1).1, (splitAtByte stop s).2, ?_, hstart, ?_⟩
      · rw [hback, hfront]
      · rw [← bytes_append, hback, hstop]
    · cases h
  · rintro ⟨a, c, rfl, rfl, rfl⟩
    exact slice?_append a b c

/-! ### The first occurrence of a pattern -/

/-- The text before the first occurrence of a pattern does not hold the pattern. -/
theorem not_infix_of_cut? {pattern s a b : List Char} (hne : pattern ≠ [])
    (h : cut? pattern s = some (a, b)) : ¬ pattern <:+: a := by
  induction s generalizing a with
  | nil =>
      simp only [cut?, Option.map_eq_some_iff, Prod.mk.injEq] at h
      obtain ⟨r, hr, rfl, rfl⟩ := h
      simpa using hne
  | cons c s ih =>
      simp only [cut?] at h
      split at h
      · cases h
        simpa using hne
      · rename_i hstrip
        obtain ⟨⟨a', b'⟩, hcut, heq⟩ := Option.map_eq_some_iff.mp h
        cases heq
        rintro hinfix
        rcases List.infix_cons_iff.mp hinfix with ⟨t, ht⟩ | hinfix
        · -- the pattern would start the text, where it was looked for
          have hstart : strip? pattern (c :: s) = some (t ++ pattern ++ b') := by
            rw [strip?_eq_some_iff, append_of_cut? hcut]
            simpa using congrArg (· ++ pattern ++ b') ht.symm
          rw [hstrip] at hstart
          cases hstart
        · exact ih hcut hinfix

end Templating.Text

namespace Templating.Markup

open Text

/-! ### Names -/

/-- A name without a colon. -/
def IsSimpleName (n : List Char) : Prop :=
  ∃ c s, n = c :: s ∧ isNameStart c = true ∧ ∀ d ∈ s, isNameChar d = true

/-- The name of a tag: a simple name, or two of them with a colon in between. -/
def IsTagName (n : List Char) : Prop :=
  IsSimpleName n ∨ ∃ a b, n = a ++ ':' :: b ∧ IsSimpleName a ∧ IsSimpleName b

theorem isSimpleName_of_simpleName? {s n r : List Char} (h : simpleName? s = some (n, r)) :
    IsSimpleName n := by
  cases s with
  | nil => simp [simpleName?] at h
  | cons c s =>
      simp only [simpleName?] at h
      split at h
      · rename_i hc
        cases h
        exact ⟨c, _, rfl, hc, fun d hd => List.mem_takeWhile_imp hd⟩
      · cases h

theorem isTagName_of_tagName? {s n r : List Char} (h : tagName? s = some (n, r)) :
    IsTagName n := by
  unfold tagName? at h
  split at h
  · cases h
  · rename_i name r₁ h₁
    have hname := isSimpleName_of_simpleName? h₁
    split at h
    · cases h; exact .inl hname
    · split at h
      · split at h
        · rename_i h₂
          cases h
          exact .inr ⟨_, _, rfl, hname, isSimpleName_of_simpleName? h₂⟩
        · cases h; exact .inl hname
      · cases h; exact .inl hname

/-! ### Pieces -/

/-- A piece that goes up to the first occurrence of its end mark. -/
def Piece.Complete : Piece → Prop
  | comment body => ¬ ['-', '-', '>'] <:+: body
  | conditional body => ¬ [']', '>'] <:+: body
  | endTag name tail => IsTagName name ∧ '>' ∉ tail
  | doctype _ => True
  | startTag _ => True
  | text _ => True

theorem complete_of_comment? {s r : List Char} {p : Piece} (h : comment? s = some (p, r)) :
    p.Complete := by
  unfold comment? at h
  split at h
  · cases h
  · obtain ⟨⟨a, b⟩, hcut, heq⟩ := Option.map_eq_some_iff.mp h
    cases heq
    exact not_infix_of_cut? (by simp) hcut

theorem complete_of_conditional? {s r : List Char} {p : Piece}
    (h : conditional? s = some (p, r)) : p.Complete := by
  unfold conditional? at h
  split at h
  · cases h
  · obtain ⟨⟨a, b⟩, hcut, heq⟩ := Option.map_eq_some_iff.mp h
    cases heq
    exact not_infix_of_cut? (by simp) hcut

theorem complete_of_doctype? {s r : List Char} {p : Piece} (h : doctype? s = some (p, r)) :
    p.Complete := by
  unfold doctype? at h
  split at h
  · cases h
  · simp only at h
    split at h
    · cases h
    · split at h
      · cases h
      · cases h; trivial

theorem complete_of_endTag? {s r : List Char} {p : Piece} (h : endTag? s = some (p, r)) :
    p.Complete := by
  unfold endTag? at h
  split at h
  · cases h
  · split at h
    · cases h
    · rename_i name r₁ hname
      split at h
      · cases h
      · cases h
        refine ⟨isTagName_of_tagName? hname, fun hmem => ?_⟩
        simpa using List.mem_takeWhile_imp hmem

/-- **Every piece that is read is complete.** -/
theorem complete_of_piece {c : Char} {s r : List Char} {p : Piece} (h : piece c s = (p, r)) :
    p.Complete := by
  unfold piece at h
  split at h
  · rename_i q hq
    subst h
    unfold markup? at hq
    rcases Option.or_eq_some_iff.mp hq with h | ⟨_, h⟩
    · rcases Option.or_eq_some_iff.mp h with h | ⟨_, h⟩
      · rcases Option.or_eq_some_iff.mp h with h | ⟨_, h⟩
        · rcases Option.or_eq_some_iff.mp h with h | ⟨_, h⟩
          · exact complete_of_comment? h
          · exact complete_of_conditional? h
        · exact complete_of_doctype? h
      · exact complete_of_endTag? h
    · obtain ⟨_, _, heq⟩ := Option.map_eq_some_iff.mp h
      cases heq
      trivial
  · cases h; trivial

end Templating.Markup
