import Templating.Proofs.Markup.Balance
import Templating.Proofs.Markup.Spelling

/-!
**Reports of missing end tags.**

An element that was opened may wait for long until it turns out that it has no end tag of its own:
the template ends, or an end tag closes an element around it.  The report points at its start tag,
as it was read then.

Main definitions:

* `Templating.Diagnostic.LacksEndTag` — a report that an element has no end tag of its own;
* `Templating.Markup.LooksLike` — a text that starts and ends like a start tag of a given name;
* `Templating.Diagnostic.PointsInto` — the place of such a report is that of a start tag of the
  element that the report is about;
* `Templating.Markup.Placed`, `Templating.Markup.PointInto` — the same for open elements and for
  events.

Main results:

* `Templating.Markup.looksLike_of_startTag?` — what was read as a start tag looks like one;
* `Templating.Markup.PointInto.emit` — a piece reports elements at the places of their start tags;
* `Templating.Markup.pointsInto_scan`, `Templating.Markup.pointsInto_events` — **reports of missing
  end tags point at start tags**.
-/

set_option autoImplicit false

namespace Templating.Markup

open Text

/-- A text that starts and ends like a start tag of the given name. -/
structure LooksLike (name : String) (a : List Char) : Prop where
  starts : ('<' :: name.toList) <+: a
  ends : ['>'] <:+ a

end Templating.Markup

namespace Templating.Diagnostic

/-- A report that an element has no end tag of its own. -/
def LacksEndTag (d : Diagnostic) : Prop :=
  d.problem = .unclosedTag ∨ d.problem = .unmatchedEndTag

instance (d : Diagnostic) : Decidable d.LacksEndTag := inferInstanceAs (Decidable (_ ∨ _))

/-- The report names an element, and `shift` bytes behind its place there is a start tag of that
name in the text. -/
def PointsInto (source : List Char) (shift : Nat) (d : Diagnostic) : Prop :=
  ∃ name start stop a, d.message = "tag <" ++ name ++ "> has no matching end tag." ∧
    d.span = some (.between start stop) ∧
    Text.slice? source (shift + start) (shift + stop) = some a ∧ Markup.LooksLike name a

end Templating.Diagnostic

namespace Templating.Markup

open Text

/-! ### Start tags -/

theorem suffix_of_tagEnd? {s a r : List Char} {slash : Bool} (h : tagEnd? s = some (a, slash, r)) :
    ['>'] <:+ a := by
  unfold tagEnd? at h
  split at h
  · cases h
  · split at h
    · cases h
      exact List.suffix_append _ _
    · split at h
      · split at h
        · cases h
        · split at h
          · cases h
            exact ⟨s.takeWhile isSpace ++ ['/'], by simp⟩
          · cases h
      · cases h

theorem suffix_of_attributes? {s e r : List Char} {l : List RawAttribute} {slash : Bool}
    (h : attributes? s = some (l, e, slash, r)) : ['>'] <:+ e := by
  fun_induction attributes? s generalizing l with
  | case1 s spelling slash' r' he =>
      cases h
      exact suffix_of_tagEnd? he
  | case2 => cases h
  | case3 s _ a r' ha _ ih =>
      obtain ⟨⟨l', rest⟩, hp, heq⟩ := Option.map_eq_some_iff.mp h
      cases heq
      exact ih hp

/-- **What was read as a start tag looks like one.** -/
theorem looksLike_of_startTag? {s r : List Char} {tag : RawStartTag}
    (h : startTag? s = some (tag, r)) : LooksLike (String.ofList tag.name) tag.source := by
  cases s with
  | nil => simp [startTag?] at h
  | cons c s =>
      simp only [startTag?] at h
      split at h
      · split at h
        · cases h
        · obtain ⟨⟨l, e, slash, r₂⟩, hattributes, heq⟩ := Option.map_eq_some_iff.mp h
          cases heq
          refine ⟨?_, ?_⟩
          · rw [String.toList_ofList]
            exact ⟨_, List.append_assoc _ _ _ |>.symm⟩
          · obtain ⟨front, hfront⟩ := suffix_of_attributes? hattributes
            exact ⟨_, by rw [RawStartTag.source, ← hfront, ← List.append_assoc]⟩
      · cases h

/-- A start tag is read by the reader of start tags. -/
theorem startTag?_of_piece {c : Char} {s r : List Char} {tag : RawStartTag}
    (h : piece c s = (.startTag tag, r)) : startTag? (c :: s) = some (tag, r) := by
  unfold piece at h
  split at h
  · rename_i q hq
    subst h
    unfold markup? at hq
    rcases Option.or_eq_some_iff.mp hq with h | ⟨_, h⟩
    · -- none of the other readers makes a start tag
      exfalso
      rcases Option.or_eq_some_iff.mp h with h | ⟨_, h⟩
      · rcases Option.or_eq_some_iff.mp h with h | ⟨_, h⟩
        · rcases Option.or_eq_some_iff.mp h with h | ⟨_, h⟩
          · unfold comment? at h
            split at h
            · cases h
            · obtain ⟨_, _, heq⟩ := Option.map_eq_some_iff.mp h
              cases heq
          · unfold conditional? at h
            split at h
            · cases h
            · obtain ⟨_, _, heq⟩ := Option.map_eq_some_iff.mp h
              cases heq
        · unfold doctype? at h
          split at h
          · cases h
          · dsimp only at h
            split at h
            · cases h
            · split at h
              · cases h
              · cases h
      · unfold endTag? at h
        split at h
        · cases h
        · split at h
          · cases h
          · split at h
            · cases h
            · cases h
    · obtain ⟨⟨tag', r'⟩, htag, heq⟩ := Option.map_eq_some_iff.mp h
      cases heq
      exact htag
  · cases h

/-! ### Open elements -/

/-- **Every open element knows the place of its start tag.** -/
def Placed (source : List Char) (opened : List OpenElement) : Prop :=
  ∀ e ∈ opened, ∃ a, slice? source e.start e.stop = some a ∧ LooksLike e.name a

section Reports

variable {source : List Char} {opened : List OpenElement}

theorem Placed.closeNamed (h : Placed source opened) (name : String) (start stop : Nat) :
    Placed source (closeNamed name start stop opened).2 := by
  rcases closeNamed_cases name start stop opened with
    ⟨inner, e, outer, rfl, -, heq⟩ | ⟨-, events, heq, -⟩
  · rw [heq]
    exact fun e' he' => h e' (by simp [he'])
  · rw [heq]
    exact h

/-- The reports of missing end tags among some events point into the text. -/
def PointInto (source : List Char) (events : List Event) : Prop :=
  ∀ d ∈ diagnostics events, d.LacksEndTag → d.PointsInto source 0

theorem PointInto.append {a b : List Event} (ha : PointInto source a) (hb : PointInto source b) :
    PointInto source (a ++ b) := by
  intro d hd
  rw [diagnostics_append, List.mem_append] at hd
  exact hd.elim (ha d) (hb d)

theorem PointInto.of_tokens {events : List Event} (h : diagnostics events = []) :
    PointInto source events := by
  intro d hd
  rw [h] at hd
  cases hd

/-- The report of an element that knows its place. -/
theorem pointsInto_missingEndTag {problem : Problem} {e : OpenElement} {d : Diagnostic}
    (h : Placed source opened) (he : e ∈ opened) (hd : missingEndTag problem e = .problem d) :
    d.PointsInto source 0 := by
  obtain ⟨a, hslice, hlooks⟩ := h e he
  cases hd
  exact ⟨e.name, e.start, e.stop, a, rfl, rfl, by simpa using hslice, hlooks⟩

theorem PointInto.closeEach (h : Placed source opened) (problem : Problem) (start stop : Nat)
    {inner : List OpenElement} (hinner : ∀ e ∈ inner, e ∈ opened) :
    PointInto source
      (inner.flatMap fun e => [missingEndTag problem e, closing start stop e]) := by
  induction inner with
  | nil => exact .of_tokens rfl
  | cons e inner ih =>
      rw [List.flatMap_cons]
      refine .append (fun d hd _ => ?_) (ih fun e' he' => hinner e' (by simp [he']))
      have hd : d ∈ [(⟨problem, "tag <" ++ e.name ++ "> has no matching end tag.",
        some (.between e.start e.stop)⟩ : Diagnostic)] := hd
      rw [List.mem_singleton] at hd
      subst hd
      exact pointsInto_missingEndTag h (hinner e (by simp)) rfl

theorem PointInto.closeAll (h : Placed source opened) (offset : Nat) :
    PointInto source (closeAll offset opened) :=
  .closeEach h _ _ _ fun _ he => he

theorem PointInto.closeNamed (h : Placed source opened) (name : String) (start stop : Nat) :
    PointInto source (closeNamed name start stop opened).1 := by
  rcases closeNamed_cases name start stop opened with
    ⟨inner, e, outer, hsplit, -, heq⟩ | ⟨-, events, heq, rfl | rfl | rfl⟩
  · rw [heq]
    refine .append (.closeEach h _ _ _ ?_) (.of_tokens rfl)
    intro e' he'
    rw [hsplit]
    exact List.mem_append_left _ he'
  · rw [heq]
    exact .of_tokens rfl
  · rw [heq]
    exact .of_tokens rfl
  · rw [heq]
    exact .of_tokens rfl

/-- Elements that a start tag closes are reported at their places, and the others keep theirs. -/
theorem PointInto.closeImplied (h : Placed source opened) (settings : Settings) (name : String)
    (offset : Nat) :
    PointInto source (closeImplied settings name offset opened).1 ∧
      Placed source (closeImplied settings name offset opened).2 := by
  -- each of the two rules either closes an element by its name or does nothing
  have hrule : ∀ (p : Prop) [Decidable p] (closed : String) (l : List OpenElement),
      Placed source l →
      PointInto source (if p then Markup.closeNamed closed offset offset l else ([], l)).1 ∧
        Placed source (if p then Markup.closeNamed closed offset offset l else ([], l)).2 := by
    intro p _ closed l hl
    split
    · exact ⟨.closeNamed hl closed offset offset, hl.closeNamed closed offset offset⟩
    · exact ⟨.of_tokens rfl, hl⟩
  unfold Markup.closeImplied
  split
  · have hfirst := hrule (innermost? opened = some "p" ∧ settings.tags.isNonPhrasing name) "p"
      opened h
    have hsecond := hrule (settings.tags.canBeLeftOpen name ∧ innermost?
      (if innermost? opened = some "p" ∧ settings.tags.isNonPhrasing name then
        Markup.closeNamed "p" offset offset opened else ([], opened)).2 = some name) name _ hfirst.2
    exact ⟨hfirst.1.append hsecond.1, hsecond.2⟩
  · exact ⟨.of_tokens rfl, h⟩

/-- **A piece reports elements at their places**, and opens an element at its own. -/
theorem PointInto.emit (h : Placed source opened) (settings : Settings) {c : Char}
    {s r : List Char} {p : Piece} (hpiece : piece c s = (p, r)) {start stop : Nat}
    (hslice : slice? source start stop = some p.source) (last : Bool) :
    PointInto source (emit settings p start stop last opened).1 ∧
      Placed source (emit settings p start stop last opened).2 := by
  cases p with
  | comment body =>
      refine ⟨.of_tokens ?_, h⟩
      simp only [Markup.emit]
      split <;> rfl
  | conditional body => exact ⟨.of_tokens rfl, h⟩
  | doctype body => exact ⟨.of_tokens rfl, h⟩
  | endTag name tail => exact ⟨.closeNamed h _ _ _, h.closeNamed _ _ _⟩
  | startTag tag =>
      have himplied := PointInto.closeImplied h settings (String.ofList tag.name) stop
      refine ⟨himplied.1.append (.of_tokens rfl), ?_⟩
      simp only [Markup.emit, openTag]
      split
      · exact himplied.2
      · intro e he
        rcases List.mem_cons.mp he with rfl | he
        · exact ⟨_, hslice, looksLike_of_startTag? (startTag?_of_piece hpiece)⟩
        · exact himplied.2 e he
  | text body =>
      refine ⟨fun d hd hlacks => ?_, h⟩
      -- the only report is one of a malformed end
      have hmalformed : d.problem = .malformedTag := by
        simp only [Markup.emit] at hd
        split at hd
        · obtain rfl : d = _ := List.mem_singleton.mp hd
          rfl
        · cases hd
      rcases hlacks with hlacks | hlacks
      · rw [hmalformed] at hlacks
        cases hlacks
      · rw [hmalformed] at hlacks
        cases hlacks

theorem PointInto.unclosedRawText {e : OpenElement} {outer : List OpenElement}
    (h : Placed source (e :: outer)) (start : Nat) (rest : List Char) :
    PointInto source (unclosedRawText e outer start rest) := by
  have houter : Placed source outer := fun e' he' => h e' (List.mem_cons_of_mem _ he')
  refine .append (.append (.of_tokens rfl) ?_) (.closeAll houter _)
  split
  · intro d hd hlacks
    obtain rfl : d = _ := List.mem_singleton.mp hd
    rcases hlacks with hlacks | hlacks <;> cases hlacks
  · exact .of_tokens rfl

/-- A line feed that is dropped is part of the text. -/
theorem exists_append_dropLineFeed (drops : Bool) (s : List Char) :
    ∃ a, s = a ++ (dropLineFeed drops s).2 ∧ bytes a = (dropLineFeed drops s).1 := by
  cases s with
  | nil => exact ⟨[], rfl, rfl⟩
  | cons c s =>
      simp only [dropLineFeed]
      split
      · rename_i hc
        obtain rfl : c = '\n' := by simpa using (Bool.and_eq_true_iff.mp hc).2
        exact ⟨['\n'], rfl, rfl⟩
      · exact ⟨[], rfl, rfl⟩

/-! ### The whole template -/

/-- **Reports of missing end tags point at start tags**, in the rest of a text. -/
theorem pointsInto_scan (settings : Settings) (opened : List OpenElement) (offset : Nat)
    (rest : List Char) :
    ∀ front, source = front ++ rest → bytes front = offset → Placed source opened →
      PointInto source (scan settings opened offset rest) := by
  fun_induction scan settings opened offset rest with
  | case1 opened offset =>
      intro front _ _ hopened
      exact .closeAll hopened offset
  | case2 opened offset c s _ p r hpiece _ _ stop emitted dropped ih =>
      intro front hsource hfront hopened
      have happend := append_of_piece hpiece
      have hslice : slice? source offset stop = some p.source := by
        refine slice?_eq_some_iff.mpr ⟨front, r, ?_, hfront, by rw [hfront]⟩
        rw [hsource, happend, List.append_assoc]
      have hemit := PointInto.emit hopened settings hpiece hslice r.isEmpty
      obtain ⟨a, ha, hbytes⟩ := exists_append_dropLineFeed (dropsLineFeed p) r
      refine hemit.1.append (ih (front ++ p.source ++ a) ?_ ?_ hemit.2)
      · rw [hsource, happend, List.append_assoc, List.append_assoc, ← ha]
      · rw [bytes_append, bytes_append, hfront, hbytes]
  | case3 opened offset c s content e outer hraw _ =>
      intro front _ _ hopened
      rw [eq_cons_of_rawElement? hraw] at hopened
      exact .unclosedRawText hopened offset (c :: s)
  | case4 opened offset c s content e outer hraw body endTag r hsplit _ bodyEnd stop ih =>
      intro front hsource hfront hopened
      rw [eq_cons_of_rawElement? hraw] at hopened
      have houter : Placed source outer := fun e' he' => hopened e' (List.mem_cons_of_mem _ he')
      have htext : diagnostics (rawTextEvents content e offset bodyEnd body) = [] := by
        unfold rawTextEvents
        dsimp only
        generalize (if content = .rawText then unwrapMarks body else body) = kept
        split <;> rfl
      refine .append (.of_tokens htext) (.append (a := [_]) (.of_tokens rfl) ?_)
      refine ih (front ++ body ++ endTag) ?_ ?_ houter
      · rw [hsource, (append_of_splitRawText? hsplit).1]
        simp
      · rw [bytes_append, bytes_append, hfront]

/-- Reports of missing end tags point at start tags. -/
theorem pointsInto_events (settings : Settings) (template : String) :
    PointInto template.toList (events settings template) := by
  refine pointsInto_scan settings [] 0 template.toList [] rfl rfl ?_
  intro e he
  cases he

end Reports

end Templating.Markup
