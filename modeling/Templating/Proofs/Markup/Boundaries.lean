import Templating.Proofs.Markup.Reports
import Templating.Proofs.Markup.RoundTrip
import Templating.Proofs.Markup.Tiling

/-!
**Where texts end.**

Reading goes from state to state: outside of raw-text elements by a piece at a time, inside of them
by their content and end tag.  A text goes up to the next place where a tag, a comment or a
conditional section starts, or to the end of the template.  A document type does not end a text, so
it is the one thing that can be found in the middle of one.

Main definitions:

* `Templating.Markup.Cursor`, `Templating.Markup.Reached` — the states that reading goes through,
  with the events so far;
* `Templating.Markup.ReadsText` — a text that is read where markup is looked for;
* `Templating.Markup.rawTexts` — the text of a raw-text element;
* `Templating.Markup.TextsStop` — what the texts of a template are.

Main results:

* `Templating.Markup.markup?_eq_doctype?` — what does not end a text is a document type or nothing;
* `Templating.Markup.Reached.events_eq`, `Templating.Markup.Reached.source_eq` — the events of a
  template, and the template, from a state on;
* `Templating.Markup.exists_reached_of_text` — every text is read in one of the states;
* `Templating.Markup.textsStop_events` — **texts stop where markup starts**, up to document types.
-/

set_option autoImplicit false

namespace Templating.Markup

open Text

/-! ### Inside a text -/

/-- **What does not end a text** is a document type, or no markup at all. -/
theorem markup?_eq_doctype? {s : List Char} (h : beginsMarkup s = false) :
    markup? s = doctype? s := by
  simp only [beginsMarkup, startsWith, Bool.or_eq_false_iff, Option.isSome_eq_false_iff,
    Option.isNone_iff_eq_none] at h
  obtain ⟨⟨⟨hend, hname⟩, hcomment⟩, hconditional⟩ := h
  have hstart : startTag? s = none := by
    cases s with
    | nil => rfl
    | cons c t =>
        simp only [Bool.and_eq_false_iff, beq_eq_false_iff_ne, Option.isSome_eq_false_iff,
          Option.isNone_iff_eq_none] at hname
        rcases hname with hc | hname
        · simp [startTag?, hc]
        · simp [startTag?, hname]
  simp [markup?, comment?, conditional?, hcomment, hconditional, hend, hstart]

/-- Markup starts with an angle bracket. -/
theorem beginsMarkup_of_ne {c : Char} (hc : c ≠ '<') (s : List Char) :
    beginsMarkup (c :: s) = false := by
  simp [beginsMarkup, endTag?, startsWith, strip?, hc, Ne.symm hc]

/-- No place inside a text ends it. -/
theorem beginsMarkup_of_untilMarkup {s a b : List Char} (h : (untilMarkup s).1 = a ++ b)
    (hb : b ≠ []) : beginsMarkup (b ++ (untilMarkup s).2) = false := by
  induction s generalizing a with
  | nil => exact absurd (List.append_eq_nil_iff.mp h.symm).2 hb
  | cons c s ih =>
      simp only [untilMarkup] at h ⊢
      split at h
      · exact absurd (List.append_eq_nil_iff.mp h.symm).2 hb
      · rename_i hgoes
        rw [if_neg hgoes]
        cases a with
        | nil =>
            obtain rfl : c :: (untilMarkup s).1 = b := h
            rw [List.cons_append, untilMarkup_append]
            by_cases hc : c = '<'
            · simpa [hc] using hgoes
            · exact beginsMarkup_of_ne hc s
        | cons d a => exact ih (List.cons.inj h).2

/-- A text goes up to markup, or to the end of the template. -/
theorem endsText_untilMarkup (s : List Char) : EndsText (untilMarkup s).2 := by
  induction s with
  | nil => exact .inl rfl
  | cons c s ih =>
      simp only [untilMarkup]
      split
      · rename_i hends
        obtain ⟨hc, hbegins⟩ := (Bool.and_eq_true _ _).mp hends
        obtain rfl : c = '<' := beq_iff_eq.mp hc
        exact .inr ⟨s, rfl, hbegins⟩
      · exact ih

/-- None of the readers of markup makes a text. -/
theorem markup?_ne_text {s source r : List Char} : markup? s ≠ some (.text source, r) := by
  intro h
  simp only [markup?, Option.or_eq_some_iff, Option.map_eq_some_iff, Prod.mk.injEq, reduceCtorEq,
    false_and, and_false, exists_false, or_false] at h
  rcases h with ((h | ⟨-, h⟩) | ⟨-, h⟩) | ⟨-, h⟩
  · unfold comment? at h
    split at h
    · cases h
    · obtain ⟨_, _, heq⟩ := Option.map_eq_some_iff.mp h
      cases heq
  · unfold conditional? at h
    split at h
    · cases h
    · obtain ⟨_, _, heq⟩ := Option.map_eq_some_iff.mp h
      cases heq
  · unfold doctype? at h
    split at h
    · cases h
    · dsimp only at h
      split at h
      · cases h
      · split at h <;> cases h
  · unfold endTag? at h
    split at h
    · cases h
    · split at h
      · cases h
      · split at h <;> cases h

/-- A text is what stands before the next markup, behind its first character. -/
theorem eq_untilMarkup_of_piece {c : Char} {s source r : List Char}
    (h : piece c s = (.text source, r)) :
    source = c :: (untilMarkup s).1 ∧ r = (untilMarkup s).2 := by
  unfold piece at h
  split at h
  · rename_i q hq
    subst h
    exact absurd hq markup?_ne_text
  · cases h
    exact ⟨rfl, rfl⟩

/-! ### The states of reading -/

/-- A state of reading: the open elements, innermost first, the place that is reached, and what is
left to read. -/
structure Cursor where
  opened : List OpenElement
  offset : Nat
  rest : List Char

/-- **The states that reading a template goes through**, with the events so far.  There is none
after a raw-text element without an end tag. -/
inductive Reached (settings : Settings) (template : String) : List Event → Cursor → Prop
  | start : Reached settings template [] ⟨[], 0, template.toList⟩
  /-- Outside of raw-text elements a piece is read. -/
  | piece {seen : List Event} {opened : List OpenElement} {offset : Nat} {c : Char}
      {s r : List Char} {p : Piece} (h : Reached settings template seen ⟨opened, offset, c :: s⟩)
      (hraw : rawElement? settings opened = none) (hpiece : Markup.piece c s = (p, r)) :
      Reached settings template
        (seen ++ (emit settings p offset (offset + bytes p.source) r.isEmpty opened).1)
        ⟨(emit settings p offset (offset + bytes p.source) r.isEmpty opened).2,
          offset + bytes p.source + (dropLineFeed (dropsLineFeed p) r).1,
          (dropLineFeed (dropsLineFeed p) r).2⟩
  /-- In a raw-text element its content and its end tag are read. -/
  | rawText {seen : List Event} {opened outer : List OpenElement} {offset : Nat} {c : Char}
      {s body endTag r : List Char} {content : Tag.Content} {e : OpenElement}
      (h : Reached settings template seen ⟨opened, offset, c :: s⟩)
      (hraw : rawElement? settings opened = some (content, e, outer))
      (hsplit : splitRawText? e.key.toList (c :: s) = some (body, endTag, r)) :
      Reached settings template
        (seen ++ (rawTextEvents content e offset (offset + bytes body) body ++
          [closing (offset + bytes body) (offset + bytes body + bytes endTag) e]))
        ⟨outer, offset + bytes body + bytes endTag, r⟩

namespace Reached

variable {settings : Settings} {template : String} {seen : List Event} {cursor : Cursor}

/-- The events so far are followed by those of what is left to read. -/
theorem events_eq (h : Reached settings template seen cursor) : events settings template =
    seen ++ scan settings cursor.opened cursor.offset cursor.rest := by
  induction h with
  | start => rfl
  | piece h hraw hpiece ih =>
      rw [ih, List.append_assoc, ← scan_cons_of_piece hraw hpiece]
  | rawText h hraw hsplit ih =>
      rw [ih, scan_cons_of_splitRawText? hraw hsplit]
      simp

/-- What is left to read stands in the template at the place that is reached. -/
theorem source_eq (h : Reached settings template seen cursor) :
    ∃ front, template.toList = front ++ cursor.rest ∧ bytes front = cursor.offset := by
  induction h with
  | start => exact ⟨[], rfl, rfl⟩
  | @piece _ _ _ _ _ r p h hraw hpiece ih =>
      obtain ⟨front, hsource, hfront⟩ := ih
      obtain ⟨a, ha, hbytes⟩ := exists_append_dropLineFeed (dropsLineFeed p) r
      refine ⟨front ++ p.source ++ a, ?_, ?_⟩
      · rw [hsource, append_of_piece hpiece, List.append_assoc, List.append_assoc, ← ha]
      · rw [bytes_append, bytes_append, hfront, hbytes]
  | @rawText _ _ _ _ _ _ body endTag _ _ _ h hraw hsplit ih =>
      obtain ⟨front, hsource, hfront⟩ := ih
      refine ⟨front ++ body ++ endTag, ?_, ?_⟩
      · rw [hsource, (append_of_splitRawText? hsplit).1]
        simp
      · rw [bytes_append, bytes_append, hfront]

end Reached

/-! ### Texts and the states they are read in -/

/-- A text is read at `offset`, where markup is looked for, with `r` behind it. -/
def ReadsText (settings : Settings) (template : String) (seen : List Event) (offset : Nat)
    (source r : List Char) : Prop :=
  ∃ opened c s, Reached settings template seen ⟨opened, offset, c :: s⟩ ∧
    rawElement? settings opened = none ∧ piece c s = (.text source, r)

/-- The text of a raw-text element: its content, or all that is left where it has no end tag. -/
def rawTexts (content : Tag.Content) (e : OpenElement) (offset : Nat) (rest : List Char) :
    List Event :=
  match splitRawText? e.key.toList rest with
  | none => [.token (.text (String.ofList rest) offset (offset + bytes rest))]
  | some (body, _, _) => rawTextEvents content e offset (offset + bytes body) body

/-- The token is the text of a raw-text element that is open in one of the states. -/
def IsRawText (settings : Settings) (template : String) (t : Token) : Prop :=
  ∃ seen opened offset rest content e outer,
    Reached settings template seen ⟨opened, offset, rest⟩ ∧
      rawElement? settings opened = some (content, e, outer) ∧
      t ∈ tokens (rawTexts content e offset rest)

/-- No token of these events is a text. -/
def NoTexts (es : List Event) : Prop := ∀ s start stop, Token.text s start stop ∉ tokens es

theorem NoTexts.append {a b : List Event} (ha : NoTexts a) (hb : NoTexts b) : NoTexts (a ++ b) := by
  intro s start stop h
  rw [tokens_append, List.mem_append] at h
  exact h.elim (ha s start stop) (hb s start stop)

theorem noTexts_closeEach (problem : Problem) (start stop : Nat) (l : List OpenElement) :
    NoTexts (l.flatMap fun e => [missingEndTag problem e, closing start stop e]) := by
  intro s _ _ h
  rw [tokens_closeEach] at h
  simp at h

theorem noTexts_closeNamed (name : String) (start stop : Nat) (opened : List OpenElement) :
    NoTexts (closeNamed name start stop opened).1 := by
  rcases closeNamed_cases name start stop opened with
    ⟨inner, e, outer, -, -, heq⟩ | ⟨-, events, heq, hevents⟩
  · rw [heq]
    exact (noTexts_closeEach .unmatchedEndTag start stop inner).append (by simp [NoTexts, closing])
  · rw [heq]
    rcases hevents with rfl | rfl | rfl <;> simp [NoTexts]

theorem noTexts_closeImplied (settings : Settings) (name : String) (offset : Nat)
    (opened : List OpenElement) : NoTexts (closeImplied settings name offset opened).1 := by
  have hrule : ∀ (p : Prop) [Decidable p] (closed : String) (l : List OpenElement),
      NoTexts (if p then closeNamed closed offset offset l else ([], l)).1 := by
    intro p _ closed l
    split
    · exact noTexts_closeNamed closed offset offset l
    · simp [NoTexts]
  unfold closeImplied
  split
  · exact (hrule _ "p" opened).append (hrule _ name _)
  · simp [NoTexts]

/-- The text of a piece, if there is one, is the piece itself. -/
theorem eq_text_of_emit {settings : Settings} {p : Piece} {start stop start' stop' : Nat}
    {last : Bool} {opened : List OpenElement} {s : String}
    (h : Token.text s start' stop' ∈ tokens (emit settings p start stop last opened).1) :
    p = .text s.toList ∧ start' = start ∧ stop' = stop := by
  cases p with
  | comment body =>
      simp only [emit] at h
      split at h <;> simp at h
  | conditional body => simp [emit] at h
  | doctype source => simp [emit] at h
  | endTag name tail => exact absurd h (noTexts_closeNamed _ start stop opened s start' stop')
  | startTag tag =>
      simp only [emit, openTag, tokens_append, List.mem_append] at h
      rcases h with h | h
      · exact absurd h (noTexts_closeImplied settings _ stop opened s start' stop')
      · simp at h
  | text source =>
      have htokens : tokens (emit settings (.text source) start stop last opened).1 =
          [.text (String.ofList source) start stop] := by
        simp only [emit]
        split <;> rfl
      rw [htokens, List.mem_singleton, Token.text.injEq] at h
      obtain ⟨rfl, rfl, rfl⟩ := h
      simp

/-- **Every text is read in one of the states**: it is a piece, or the text of a raw-text
element. -/
theorem exists_reached_of_text {settings : Settings} {template : String}
    {opened : List OpenElement} {offset : Nat} {rest : List Char} {s : String} {start stop : Nat}
    (h : Token.text s start stop ∈ tokens (scan settings opened offset rest)) :
    ∀ seen, Reached settings template seen ⟨opened, offset, rest⟩ →
      (∃ seen' r, ReadsText settings template seen' start s.toList r ∧
          stop = start + bytes s.toList) ∨
        IsRawText settings template (.text s start stop) := by
  fun_induction scan settings opened offset rest with
  | case1 opened offset =>
      exact absurd h (noTexts_closeEach .unclosedTag offset offset opened s start stop)
  | case2 opened offset c t hraw p r hpiece _ _ stop' emitted dropped ih =>
      intro seen hseen
      rw [tokens_append, List.mem_append] at h
      rcases h with h | h
      · obtain ⟨rfl, rfl, rfl⟩ := eq_text_of_emit h
        exact .inl ⟨seen, r, ⟨opened, c, t, hseen, hraw, hpiece⟩, rfl⟩
      · exact ih h _ (hseen.piece hraw hpiece)
  | case3 opened offset c t content e outer hraw hsplit =>
      intro seen hseen
      refine .inr ⟨seen, opened, offset, c :: t, content, e, outer, hseen, hraw, ?_⟩
      simp only [unclosedRawText, tokens_append, List.mem_append] at h
      simp only [rawTexts, hsplit]
      rcases h with (h | h) | h
      · simpa [closing] using h
      · split at h <;> simp [malformedEnd] at h
      · exact absurd h (noTexts_closeEach .unclosedTag _ _ outer s start stop)
  | case4 opened offset c t content e outer hraw body endTag r hsplit _ bodyEnd stop' ih =>
      intro seen hseen
      rw [tokens_append, List.mem_append] at h
      rcases h with h | h
      · refine .inr ⟨seen, opened, offset, c :: t, content, e, outer, hseen, hraw, ?_⟩
        simpa only [rawTexts, hsplit] using h
      · rw [closing, tokens_token_cons, List.mem_cons] at h
        exact ih (h.resolve_left (by simp)) _ (hseen.rawText hraw hsplit)

/-! ### Templates -/

/-- **What the texts of a template are.** -/
structure TextsStop (settings : Settings) (template : String) : Prop where
  /-- A text that is read where markup is looked for is a token with its place in the template, goes
  up to markup, and behind its first character nothing but a document type is read as markup. -/
  outside : ∀ seen offset source r, ReadsText settings template seen offset source r →
    (∃ later, events settings template = seen ++
      .token (.text (String.ofList source) offset (offset + bytes source)) :: later) ∧
    (∃ front, template.toList = front ++ (source ++ r) ∧ bytes front = offset) ∧
    EndsText r ∧
    ∀ a b, source = a ++ b → a ≠ [] → b ≠ [] → markup? (b ++ r) = doctype? (b ++ r)
  /-- Every text is read this way, or is the text of a raw-text element. -/
  every : ∀ s start stop, Token.text s start stop ∈ tokens (events settings template) →
    (∃ seen r, ReadsText settings template seen start s.toList r ∧
      stop = start + bytes s.toList) ∨
    IsRawText settings template (.text s start stop)

/-- **Texts stop where markup starts**, unless this is a document type. -/
theorem textsStop_events (settings : Settings) (template : String) :
    TextsStop settings template where
  outside := by
    rintro seen offset source r ⟨opened, c, s, hreached, hraw, hpiece⟩
    obtain ⟨front, hfront, hbytes⟩ := hreached.source_eq
    have hevents := hreached.events_eq
    have happend := append_of_piece hpiece
    rw [scan_cons_of_piece hraw hpiece] at hevents
    obtain ⟨rfl, rfl⟩ := eq_untilMarkup_of_piece hpiece
    refine ⟨⟨_, hevents⟩, ⟨front, ?_, hbytes⟩, endsText_untilMarkup s, ?_⟩
    · rw [hfront, happend]
      rfl
    · intro a b hsplit ha hb
      obtain ⟨d, a, rfl⟩ := List.exists_cons_of_ne_nil ha
      exact markup?_eq_doctype? (beginsMarkup_of_untilMarkup (List.cons.inj hsplit).2 hb)
  every := fun _ _ _ h => exists_reached_of_text h [] .start

/-- **A document type in the middle of a text** is not seen. -/
theorem exists_swallowed_doctype :
    tokens (events Settings.web "a<!DOCTYPE html>b") = [.text "a<!DOCTYPE html>b" 0 17] ∧
      ReadsText Settings.web "a<!DOCTYPE html>b" [] 0 "a<!DOCTYPE html>b".toList [] ∧
      markup? "<!DOCTYPE html>b".toList = some (.doctype "<!DOCTYPE html>".toList, ['b']) := by
  refine ⟨?_, ⟨[], 'a', _, .start, rfl, ?_⟩, ?_⟩
  · decide +kernel
  · decide +kernel
  · decide +kernel

end Templating.Markup
