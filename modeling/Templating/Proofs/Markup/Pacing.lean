import Templating.Proofs.Markup.Nesting

/-!
**Events in order.**

The events of a template go through it from left to right, and the places where elements end go
along with them.  There is one exception: a start tag that closes elements under the rules of HTML
ends them where it ends itself, and only then says where it starts.

Main definitions:

* `Templating.Markup.Coming` — a start tag that closes elements before it opens its own;
* `Templating.Markup.Paced` — events that go forward, with the elements that are open and the
  start tag that is coming.

Main results:

* `Templating.Markup.Paced.closeNamed`, `Templating.Markup.Paced.closeImplied`,
  `Templating.Markup.Paced.emit` — the events of an end tag, of a start tag and of a piece;
* `Templating.Markup.paced_scan` — **the events of the rest of a template go forward**;
* `Templating.Markup.paced_events` — so do those of a template.
-/

set_option autoImplicit false

namespace Templating.Markup

open Text

/-- A start tag that closes elements before it opens its own. -/
structure Coming where
  name : String
  start : Nat
  stop : Nat

/-- Events that go forward from byte `now`, with the names of the open elements, innermost first.
While a start tag is coming, elements end where it ends, and it may not stand inside them. -/
inductive Paced (settings : Settings) : Option Coming → List String → Nat → List Event → Prop
  | done (now : Nat) : Paced settings none [] now []
  | problem {coming : Option Coming} {stack : List String} {now : Nat} {es : List Event}
      (d : Diagnostic) (h : Paced settings coming stack now es) :
      Paced settings coming stack now (.problem d :: es)
  /-- Something of the template is left out. -/
  | skip {stack : List String} {now next : Nat} {es : List Event} (hle : now ≤ next)
      (h : Paced settings none stack next es) : Paced settings none stack now es
  | text {stack : List String} {now start stop : Nat} {es : List Event} (s : String)
      (hstart : now ≤ start) (hstop : start ≤ stop) (h : Paced settings none stack stop es) :
      Paced settings none stack now (.token (.text s start stop) :: es)
  | comment {stack : List String} {now start stop : Nat} {es : List Event} (s : String)
      (hstart : now ≤ start) (hstop : start ≤ stop) (h : Paced settings none stack stop es) :
      Paced settings none stack now (.token (.comment s start stop) :: es)
  | doctype {stack : List String} {now start stop : Nat} {es : List Event} (s : String)
      (h : Paced settings none stack now es) :
      Paced settings none stack now (.token (.doctype s start stop) :: es)
  | close {stack : List String} {now start stop : Nat} {es : List Event} (name : String)
      (hstop : now ≤ stop) (h : Paced settings none stack stop es) :
      Paced settings none (name :: stack) now (.token (.endTag name start stop) :: es)
  /-- From here on a start tag is coming. -/
  | announce {stack : List String} {now : Nat} {es : List Event} (c : Coming)
      (hstart : now ≤ c.start) (hstop : c.start < c.stop)
      (h : Paced settings (some c) stack now es) : Paced settings none stack now es
  /-- An element that the start tag may not stand in ends where the start tag ends. -/
  | displace {c : Coming} {stack : List String} {now start : Nat} {es : List Event} {name : String}
      (hhtml : settings.expectHtml = true) (hnests : ¬Nests settings.tags name c.name)
      (h : Paced settings (some c) stack now es) :
      Paced settings (some c) (name :: stack) now (.token (.endTag name start c.stop) :: es)
  | arrive {c : Coming} {stack : List String} {now : Nat} {es : List Event}
      (attributes : List Attribute) (unary : Bool)
      (h : Paced settings none (if unary then stack else c.name :: stack) c.stop es) :
      Paced settings (some c) stack now
        (.token (.startTag c.name attributes unary c.start c.stop) :: es)

namespace Paced

variable {settings : Settings} {opened : List OpenElement} {now start stop : Nat} {es : List Event}

/-- A start tag that closes nothing. -/
theorem opening {stack : List String} (name : String) (attributes : List Attribute) (unary : Bool)
    (hstart : now ≤ start) (hstop : start < stop)
    (h : Paced settings none (if unary then stack else name :: stack) stop es) :
    Paced settings none stack now (.token (.startTag name attributes unary start stop) :: es) :=
  .announce ⟨name, start, stop⟩ hstart hstop (.arrive attributes unary h)

/-! ### End tags -/

/-- Elements that are closed one by one at the same place. -/
theorem closeEach (problem : Problem) (inner outer : List OpenElement) (hstop : now ≤ stop)
    (h : Paced settings none (names outer) stop es) :
    Paced settings none (names (inner ++ outer)) now
      (inner.flatMap (fun e => [missingEndTag problem e, closing start stop e]) ++ es) := by
  induction inner generalizing now with
  | nil => exact .skip hstop h
  | cons e inner ih => exact .problem _ (.close e.name hstop (ih le_rfl))

theorem closeAll (opened : List OpenElement) (hstop : now ≤ stop) :
    Paced settings none (names opened) now (Markup.closeAll stop opened) := by
  have h : Paced settings none (names (opened ++ [])) now
      (opened.flatMap (fun e => [missingEndTag .unclosedTag e, closing stop stop e]) ++ []) :=
    closeEach .unclosedTag opened [] hstop (.done stop)
  rwa [List.append_nil, List.append_nil] at h

/-- **An end tag** ends elements where it ends itself. -/
theorem closeNamed (name : String) (hstart : now ≤ start) (hstop : start < stop)
    (h : Paced settings none (names (Markup.closeNamed name start stop opened).2) stop es) :
    Paced settings none (names opened) now
      ((Markup.closeNamed name start stop opened).1 ++ es) := by
  rcases closeNamed_cases name start stop opened with
    ⟨inner, e, outer, rfl, -, heq⟩ | ⟨-, events, heq, rfl | rfl | rfl⟩
  · rw [heq] at h ⊢
    rw [List.append_assoc]
    exact closeEach _ inner (e :: outer) (by omega) (.close e.name le_rfl h)
  · rw [heq] at h ⊢
    exact .opening name [] true hstart hstop h
  · rw [heq] at h ⊢
    exact .opening name [] false hstart hstop (.close name le_rfl h)
  · rw [heq] at h ⊢
    exact .skip (by omega) h

/-! ### Start tags -/

/-- One of the rules of HTML closes the innermost element. -/
theorem closeInnermost {c : Coming} {name : String} (hopened : Keyed opened)
    (hhtml : settings.expectHtml = true) (hnests : ¬Nests settings.tags name c.name)
    (hname : innermost? opened = some name)
    (h : Paced settings (some c) (names (Markup.closeNamed name c.stop c.stop opened).2) now es) :
    Paced settings (some c) (names opened) now
      ((Markup.closeNamed name c.stop c.stop opened).1 ++ es) := by
  cases opened with
  | nil => cases hname
  | cons e outer =>
      obtain rfl : e.name = name := by simpa [innermost?] using hname
      rw [closeNamed_cons (hopened e List.mem_cons_self)] at h ⊢
      exact .displace hhtml hnests h

/-- **The rules of HTML** end elements that the start tag may not stand in, where it ends itself. -/
theorem closeImplied (c : Coming) (hopened : Keyed opened)
    (h : Paced settings (some c) (names (Markup.closeImplied settings c.name c.stop opened).2) now
      es) :
    Paced settings (some c) (names opened) now
      ((Markup.closeImplied settings c.name c.stop opened).1 ++ es) := by
  unfold Markup.closeImplied at h ⊢
  split at h
  · rename_i hhtml
    rw [if_pos hhtml]
    -- the rule for elements that may be left open, after the one for paragraphs
    have hsecond : ∀ l : List OpenElement, Keyed l →
        Paced settings (some c) (names (if settings.tags.canBeLeftOpen c.name ∧
          innermost? l = some c.name then Markup.closeNamed c.name c.stop c.stop l
          else ([], l)).2) now es →
        Paced settings (some c) (names l) now ((if settings.tags.canBeLeftOpen c.name ∧
          innermost? l = some c.name then Markup.closeNamed c.name c.stop c.stop l
          else ([], l)).1 ++ es) := by
      intro l hl h
      split at h
      · rename_i hrule
        rw [if_pos hrule]
        exact closeInnermost hl hhtml (fun hnests => hnests.2 ⟨rfl, hrule.1⟩) hrule.2 h
      · rename_i hrule
        rw [if_neg hrule]
        exact h
    dsimp only at h ⊢
    rw [List.append_assoc]
    split at h
    · rename_i hrule
      rw [if_pos hrule]
      exact closeInnermost hopened hhtml (fun hnests => hnests.1 ⟨rfl, hrule.2⟩) hrule.1
        (hsecond _ (hopened.closeNamed "p" c.stop c.stop) h)
    · rename_i hrule
      rw [if_neg hrule]
      exact hsecond _ hopened h
  · rename_i hhtml
    rw [if_neg hhtml]
    exact h

/-! ### The whole template -/

/-- **The events of a piece** go forward over it. -/
theorem emit (hopened : Keyed opened) (p : Piece) (last : Bool) (hlt : start < stop)
    (h : Paced settings none (names (Markup.emit settings p start stop last opened).2) stop es) :
    Paced settings none (names opened) start
      ((Markup.emit settings p start stop last opened).1 ++ es) := by
  cases p with
  | comment body =>
      simp only [Markup.emit]
      split
      · exact .comment _ le_rfl (by omega) h
      · exact .skip (by omega) h
  | conditional body => exact .skip (by omega) h
  | doctype source => exact .doctype _ (.skip (by omega) h)
  | endTag name tail => exact closeNamed _ le_rfl hlt h
  | startTag tag =>
      simp only [Markup.emit, openTag, List.append_assoc] at h ⊢
      refine .announce ⟨String.ofList tag.name, start, stop⟩ le_rfl hlt ?_
      refine closeImplied ⟨String.ofList tag.name, start, stop⟩ hopened (.arrive _ _ ?_)
      split at h
      · rename_i hunary
        rw [if_pos hunary]
        exact h
      · rename_i hunary
        rw [if_neg hunary]
        exact h
  | text source =>
      simp only [Markup.emit]
      refine .text _ le_rfl (by omega) ?_
      split
      · exact .problem _ h
      · exact h

/-- Raw text goes forward over the content of its element. -/
theorem rawText {stack : List String} (content : Tag.Content) (e : OpenElement) (body : List Char)
    (h : Paced settings none stack (start + bytes body) es) :
    Paced settings none stack start
      (rawTextEvents content e start (start + bytes body) body ++ es) := by
  have hunwrap : ∀ kept : List Char, kept ≠ [] →
      kept = (if content = .rawText then unwrapMarks body else body) → 1 ≤ bytes body := by
    rintro kept hne rfl
    rw [Nat.one_le_iff_ne_zero, ne_eq, bytes_eq_zero_iff]
    rintro rfl
    revert hne
    split <;> simp [unwrapMarks, unwrap]
  unfold rawTextEvents
  dsimp only
  generalize hkept : (if content = .rawText then unwrapMarks body else body) = kept
  split
  · exact .skip (by omega) h
  · rename_i hne
    have hdropped : (dropLineFeed (Tag.ignoresFirstLineFeed e.key) kept).1 ≤ 1 ∧ kept ≠ [] := by
      cases kept with
      | nil => simp [dropLineFeed] at hne
      | cons c s =>
          simp only [dropLineFeed]
          split <;> simp
    have hbytes := hunwrap kept hdropped.2 hkept.symm
    exact .text _ (by omega) (by omega) h

theorem unclosedRawText (e : OpenElement) (outer : List OpenElement) (rest : List Char) :
    Paced settings none (names (e :: outer)) start
      (Markup.unclosedRawText e outer start rest) := by
  simp only [Markup.unclosedRawText, List.append_assoc]
  refine .close e.name le_rfl (.text _ le_rfl (by omega) ?_)
  have hrest : Paced settings none (names outer) (start + bytes rest)
      (Markup.closeAll (start + bytes rest) outer) := closeAll outer le_rfl
  split
  · exact .problem _ hrest
  · exact hrest

end Paced

/-- **The events of the rest of a template go forward.** -/
theorem paced_scan (settings : Settings) (opened : List OpenElement) (hopened : Keyed opened)
    (offset : Nat) (rest : List Char) :
    Paced settings none (names opened) offset (scan settings opened offset rest) := by
  fun_induction scan settings opened offset rest with
  | case1 opened offset => exact .closeAll opened le_rfl
  | case2 opened offset c s _ p r hpiece _ _ stop emitted dropped ih =>
      have hlt : offset < stop := by
        have hne := source_ne_nil_of_piece hpiece
        have hpos : bytes p.source ≠ 0 := fun h => hne (bytes_eq_zero_iff.mp h)
        omega
      refine .emit hopened p r.isEmpty hlt (.skip (Nat.le_add_right stop dropped.1) ?_)
      exact ih (hopened.emit settings p offset stop r.isEmpty)
  | case3 opened offset c s content e outer hraw _ =>
      rw [eq_cons_of_rawElement? hraw]
      exact .unclosedRawText e outer (c :: s)
  | case4 opened offset c s content e outer hraw body endTag r _ _ bodyEnd stop ih =>
      rw [eq_cons_of_rawElement? hraw] at hopened ⊢
      refine .rawText content e body ?_
      exact .close e.name (Nat.le_add_right bodyEnd _) (ih hopened.tail)

/-- The events of a template go forward from its first byte, and leave nothing open. -/
theorem paced_events (settings : Settings) (template : String) :
    Paced settings none [] 0 (events settings template) :=
  paced_scan settings [] Keyed.nil 0 template.toList

end Templating.Markup
