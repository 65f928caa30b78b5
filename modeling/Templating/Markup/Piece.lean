import Templating.Markup.StartTag
import Templating.Text.Case

/-!
**Pieces of markup.**

A template is read piece by piece.  A piece knows its exact spelling, so the pieces of a template
put together are the template.  What starts no other piece is text.

Main definitions:

* `Templating.Markup.Piece`, `Templating.Markup.Piece.source` — the pieces and their spelling;
* `Templating.Markup.markup?` — the piece other than text that a template starts with;
* `Templating.Markup.beginsMarkup`, `Templating.Markup.untilMarkup` — where text ends;
* `Templating.Markup.piece` — the piece that a template starts with.

Main results:

* `Templating.Markup.append_of_piece` — a piece and what follows it make up the template;
* `Templating.Markup.length_of_piece` — a piece is not empty.
-/

set_option autoImplicit false

namespace Templating.Markup

open Text

/-- A piece of markup. -/
inductive Piece where
  /-- A comment with the text between its marks. -/
  | comment (body : List Char)
  /-- A conditional section, which is never looked into. -/
  | conditional (body : List Char)
  /-- A document type, as it is written. -/
  | doctype (source : List Char)
  /-- An end tag: its name, and what stands between the name and the closing bracket. -/
  | endTag (name tail : List Char)
  /-- A complete start tag. -/
  | startTag (tag : RawStartTag)
  /-- Anything else. -/
  | text (source : List Char)
  deriving Repr, DecidableEq

/-- The spelling of a piece. -/
def Piece.source : Piece → List Char
  | comment body => ['<', '!', '-', '-'] ++ body ++ ['-', '-', '>']
  | conditional body => ['<', '!', '['] ++ body ++ [']', '>']
  | doctype source => source
  | endTag name tail => ['<', '/'] ++ name ++ tail ++ ['>']
  | startTag tag => tag.source
  | text source => source

/-! ### Pieces other than text -/

/-- A comment up to the first end mark. -/
def comment? (s : List Char) : Option (Piece × List Char) :=
  match strip? ['<', '!', '-', '-'] s with
  | none => none
  | some t => (cut? ['-', '-', '>'] t).map fun p => (.comment p.1, p.2)

/-- A conditional section up to the first end mark. -/
def conditional? (s : List Char) : Option (Piece × List Char) :=
  match strip? ['<', '!', '['] s with
  | none => none
  | some t => (cut? [']', '>'] t).map fun p => (.conditional p.1, p.2)

/-- The start of a document type, in lower case. -/
def doctypeMark : List Char := ['<', '!', 'd', 'o', 'c', 't', 'y', 'p', 'e', ' ']

/-- A document type: its mark in any letter case, and at least one character up to the closing
bracket. -/
def doctype? (s : List Char) : Option (Piece × List Char) :=
  match dropFold? doctypeMark s with
  | none => none
  | some t =>
      let body := t.takeWhile (· != '>')
      match t.dropWhile (· != '>') with
      | [] => none
      | c :: r =>
          if body = [] then none
          else some (.doctype (s.take doctypeMark.length ++ body ++ [c]), r)

/-- An end tag. -/
def endTag? (s : List Char) : Option (Piece × List Char) :=
  match strip? ['<', '/'] s with
  | none => none
  | some t =>
      match tagName? t with
      | none => none
      | some (name, r) =>
          match r.dropWhile (· != '>') with
          | [] => none
          | _ :: r' => some (.endTag name (r.takeWhile (· != '>')), r')

/-- The piece other than text that a template starts with, and what follows it. -/
def markup? (s : List Char) : Option (Piece × List Char) :=
  ((((comment? s).or (conditional? s)).or (doctype? s)).or (endTag? s)).or
    ((startTag? s).map fun p => (.startTag p.1, p.2))

/-! ### Text -/

/-- Whether a template starts with the mark of a comment, the mark of a conditional section, an end
tag, or the start of a start tag. -/
def beginsMarkup (s : List Char) : Bool :=
  (endTag? s).isSome ||
    (match s with
      | [] => false
      | c :: t => c == '<' && (tagName? t).isSome) ||
    startsWith ['<', '!', '-', '-'] s || startsWith ['<', '!', '['] s

/-- The text before the next place where markup starts, and what follows it. -/
def untilMarkup : List Char → List Char × List Char
  | [] => ([], [])
  | c :: s =>
      if c == '<' && beginsMarkup (c :: s) then ([], c :: s)
      else
        let p := untilMarkup s
        (c :: p.1, p.2)

/-- The piece that a template starting with `c` starts with, and what follows it. -/
def piece (c : Char) (s : List Char) : Piece × List Char :=
  match markup? (c :: s) with
  | some p => p
  | none =>
      let p := untilMarkup s
      (.text (c :: p.1), p.2)

/-! ### Nothing is lost -/

theorem append_of_comment? {s r : List Char} {p : Piece} (h : comment? s = some (p, r)) :
    s = p.source ++ r := by
  unfold comment? at h
  split at h
  · cases h
  · rename_i t ht
    obtain ⟨⟨a, b⟩, hc, heq⟩ := Option.map_eq_some_iff.mp h
    cases heq
    rw [strip?_eq_some_iff.mp ht, append_of_cut? hc]
    simp [Piece.source]

theorem append_of_conditional? {s r : List Char} {p : Piece} (h : conditional? s = some (p, r)) :
    s = p.source ++ r := by
  unfold conditional? at h
  split at h
  · cases h
  · rename_i t ht
    obtain ⟨⟨a, b⟩, hc, heq⟩ := Option.map_eq_some_iff.mp h
    cases heq
    rw [strip?_eq_some_iff.mp ht, append_of_cut? hc]
    simp [Piece.source]

theorem append_of_doctype? {s r : List Char} {p : Piece} (h : doctype? s = some (p, r)) :
    s = p.source ++ r := by
  unfold doctype? at h
  split at h
  · cases h
  · rename_i t ht
    have e₁ := take_append_of_dropFold? ht
    have e₂ := List.takeWhile_append_dropWhile (p := (· != '>')) (l := t)
    simp only at h
    split at h
    · cases h
    · rename_i c r' hd
      split at h
      · cases h
      · cases h
        rw [hd] at e₂
        rw [← e₂] at e₁
        simpa [Piece.source] using e₁

theorem append_of_endTag? {s r : List Char} {p : Piece} (h : endTag? s = some (p, r)) :
    s = p.source ++ r := by
  unfold endTag? at h
  split at h
  · cases h
  · rename_i t ht
    split at h
    · cases h
    · rename_i name r₁ hn
      split at h
      · cases h
      · rename_i c r' hd
        cases h
        have e := List.takeWhile_append_dropWhile (p := (· != '>')) (l := r₁)
        have hc : c = '>' := by
          have := List.head?_dropWhile_not (· != '>') r₁
          rw [hd] at this
          simpa using this
        rw [hd, hc] at e
        rw [strip?_eq_some_iff.mp ht, append_of_tagName? hn, ← e]
        simp [Piece.source, e]

/-- A piece other than text and what follows it make up the template. -/
theorem append_of_markup? {s r : List Char} {p : Piece} (h : markup? s = some (p, r)) :
    s = p.source ++ r := by
  unfold markup? at h
  rcases Option.or_eq_some_iff.mp h with h | ⟨_, h⟩
  · rcases Option.or_eq_some_iff.mp h with h | ⟨_, h⟩
    · rcases Option.or_eq_some_iff.mp h with h | ⟨_, h⟩
      · rcases Option.or_eq_some_iff.mp h with h | ⟨_, h⟩
        · exact append_of_comment? h
        · exact append_of_conditional? h
      · exact append_of_doctype? h
    · exact append_of_endTag? h
  · obtain ⟨⟨t, r'⟩, ht, heq⟩ := Option.map_eq_some_iff.mp h
    cases heq
    exact append_of_startTag? ht

theorem untilMarkup_append (s : List Char) : (untilMarkup s).1 ++ (untilMarkup s).2 = s := by
  induction s with
  | nil => rfl
  | cons c s ih =>
      simp only [untilMarkup]
      split
      · simp
      · simp [ih]

/-- A piece and what follows it make up the template. -/
theorem append_of_piece {c : Char} {s r : List Char} {p : Piece} (h : piece c s = (p, r)) :
    c :: s = p.source ++ r := by
  unfold piece at h
  split at h
  · rename_i q hq
    subst h
    exact append_of_markup? hq
  · simp only [Prod.mk.injEq] at h
    obtain ⟨rfl, rfl⟩ := h
    simp [Piece.source, untilMarkup_append]

/-- A piece other than text is not empty. -/
theorem source_ne_nil_of_markup? {s r : List Char} {p : Piece} (h : markup? s = some (p, r)) :
    p.source ≠ [] := by
  unfold markup? at h
  rcases Option.or_eq_some_iff.mp h with h | ⟨_, h⟩
  · rcases Option.or_eq_some_iff.mp h with h | ⟨_, h⟩
    · rcases Option.or_eq_some_iff.mp h with h | ⟨_, h⟩
      · rcases Option.or_eq_some_iff.mp h with h | ⟨_, h⟩
        · unfold comment? at h
          split at h
          · cases h
          · obtain ⟨_, _, heq⟩ := Option.map_eq_some_iff.mp h
            cases heq
            simp [Piece.source]
        · unfold conditional? at h
          split at h
          · cases h
          · obtain ⟨_, _, heq⟩ := Option.map_eq_some_iff.mp h
            cases heq
            simp [Piece.source]
      · unfold doctype? at h
        split at h
        · cases h
        · simp only at h
          split at h
          · cases h
          · split at h
            · cases h
            · cases h
              simp [Piece.source]
    · unfold endTag? at h
      split at h
      · cases h
      · split at h
        · cases h
        · split at h
          · cases h
          · cases h
            simp [Piece.source]
  · obtain ⟨⟨t, r'⟩, ht, heq⟩ := Option.map_eq_some_iff.mp h
    cases heq
    simp [Piece.source, RawStartTag.source]

/-- A piece is not empty. -/
theorem source_ne_nil_of_piece {c : Char} {s r : List Char} {p : Piece} (h : piece c s = (p, r)) :
    p.source ≠ [] := by
  unfold piece at h
  split at h
  · rename_i q hq
    subst h
    exact source_ne_nil_of_markup? hq
  · simp only [Prod.mk.injEq] at h
    obtain ⟨rfl, -⟩ := h
    simp [Piece.source]

/-- Reading a piece takes up some characters. -/
theorem length_of_piece {c : Char} {s r : List Char} {p : Piece} (h : piece c s = (p, r)) :
    r.length < (c :: s).length := by
  have hpos := List.length_pos_iff.mpr (source_ne_nil_of_piece h)
  rw [append_of_piece h, List.length_append]
  omega

end Templating.Markup
