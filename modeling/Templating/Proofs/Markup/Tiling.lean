import Templating.Proofs.Markup.Balance
import Templating.Proofs.Markup.Layout

/-!
**The tokens of a template tile it.**

Every piece that is read from a template is either the place of its tokens or left out, so no
character is lost or reported twice.  The one exception would be raw text whose comment marks are
taken off; without such elements the tiling is exact.

Main definitions:

* `Templating.Markup.Keyed` — open elements know the lower-case form of their names.

Main results:

* `Templating.Markup.Layout.emit`, `Templating.Markup.Layout.rawText` — laying out the tokens of a
  piece and of raw text, in front of what is laid out already;
* `Templating.Markup.layout_scan` — the tokens of the rest of a template are laid out along it;
* `Templating.Markup.tiles_events` — **the tokens of a template tile it**.
-/

set_option autoImplicit false

namespace Templating.Markup

open Text

/-! ### Open elements and their names -/

/-- Open elements know the lower-case form of their names. -/
def Keyed (opened : List OpenElement) : Prop := ∀ e ∈ opened, e.key = lowerString e.name

theorem Keyed.nil : Keyed [] := by
  intro e he
  cases he

theorem Keyed.tail {e : OpenElement} {outer : List OpenElement} (h : Keyed (e :: outer)) :
    Keyed outer := fun e' he' => h e' (List.mem_cons_of_mem _ he')

theorem Keyed.closeNamed {opened : List OpenElement} (h : Keyed opened) (name : String)
    (start stop : Nat) : Keyed (closeNamed name start stop opened).2 := by
  rcases closeNamed_cases name start stop opened with
    ⟨inner, e, outer, rfl, -, heq⟩ | ⟨-, events, heq, -⟩
  · rw [heq]
    exact fun e' he' => h e' (by simp [he'])
  · rw [heq]
    exact h

theorem Keyed.closeImplied {opened : List OpenElement} (h : Keyed opened) (settings : Settings)
    (name : String) (offset : Nat) : Keyed (closeImplied settings name offset opened).2 := by
  have hrule : ∀ (p : Prop) [Decidable p] (closed : String) (l : List OpenElement), Keyed l →
      Keyed (if p then Markup.closeNamed closed offset offset l else ([], l)).2 := by
    intro p _ closed l hl
    split
    · exact hl.closeNamed closed offset offset
    · exact hl
  unfold Markup.closeImplied
  split
  · exact hrule _ _ _ (hrule _ _ _ h)
  · exact h

theorem Keyed.emit {opened : List OpenElement} (h : Keyed opened) (settings : Settings)
    (piece : Piece) (start stop : Nat) (last : Bool) :
    Keyed (emit settings piece start stop last opened).2 := by
  cases piece with
  | comment body => exact h
  | conditional body => exact h
  | doctype source => exact h
  | endTag name tail => exact h.closeNamed _ start stop
  | startTag tag =>
      have himplied := h.closeImplied settings (String.ofList tag.name) stop
      simp only [Markup.emit, openTag]
      split
      · exact himplied
      · intro e he
        rcases List.mem_cons.mp he with rfl | he
        · rfl
        · exact himplied e he
  | text source => exact h

/-! ### The ends of elements -/

/-- Closing elements one by one makes an end token for each. -/
theorem tokens_closeEach (problem : Problem) (start stop : Nat) (l : List OpenElement) :
    tokens (l.flatMap fun e => [missingEndTag problem e, closing start stop e]) =
      l.map fun e => .endTag e.name start stop := by
  induction l with
  | nil => rfl
  | cons e l ih => simpa [missingEndTag, closing] using ih

/-- An end tag that finds its element gives end tokens, and at least one. -/
theorem tokens_closeNamed_of_mem {name : String} {opened : List OpenElement} {e : OpenElement}
    (start stop : Nat) (he : e ∈ opened) (hkey : e.key = lowerString name) :
    tokens (closeNamed name start stop opened).1 ≠ [] ∧
      ∀ t ∈ tokens (closeNamed name start stop opened).1, ∃ n, t = .endTag n start stop := by
  rcases closeNamed_cases name start stop opened with
    ⟨inner, e, outer, -, -, heq⟩ | ⟨hnone, -⟩
  · rw [heq, tokens_append, tokens_closeEach]
    refine ⟨by simp [closing], fun t ht => ?_⟩
    simp only [closing, tokens_token_cons, tokens_nil, List.mem_append, List.mem_map,
      List.mem_singleton] at ht
    rcases ht with ⟨e', -, rfl⟩ | rfl
    · exact ⟨_, rfl⟩
    · exact ⟨_, rfl⟩
  · exact absurd hkey (hnone e he)

theorem exists_mem_of_innermost? {opened : List OpenElement} {name : String} (h : Keyed opened)
    (hname : innermost? opened = some name) : ∃ e ∈ opened, e.key = lowerString name := by
  cases opened with
  | nil => simp [innermost?] at hname
  | cons e outer =>
      have hhead : e.name = name := by simpa [innermost?] using hname
      exact ⟨e, by simp, by rw [h e (by simp), hhead]⟩

/-- A start tag closes elements at its own end, and opens none on the way. -/
theorem tokens_closeImplied {opened : List OpenElement} (h : Keyed opened) (settings : Settings)
    (name : String) (offset : Nat) :
    ∀ t ∈ tokens (closeImplied settings name offset opened).1,
      ∃ n, t = .endTag n offset offset := by
  -- either rule asks for the innermost element, so it finds the element that it closes
  have hrule : ∀ (p : Prop) [Decidable p] (closed : String) (l : List OpenElement), Keyed l →
      (p → innermost? l = some closed) →
      ∀ t ∈ tokens (if p then closeNamed closed offset offset l else ([], l)).1,
        ∃ n, t = .endTag n offset offset := by
    intro p _ closed l hl hinner
    split
    · rename_i hp
      obtain ⟨e, he, hkey⟩ := exists_mem_of_innermost? hl (hinner hp)
      exact (tokens_closeNamed_of_mem offset offset he hkey).2
    · simp
  unfold closeImplied
  split
  · intro t ht
    simp only [tokens_append, List.mem_append] at ht
    rcases ht with ht | ht
    · exact hrule _ "p" _ h (fun hp => hp.1) t ht
    · refine hrule _ name _ ?_ (fun hp => hp.2) t ht
      split
      · exact h.closeNamed "p" offset offset
      · exact h
  · simp

/-! ### Laying out tokens -/

variable {keepComments : Bool} {offset : Nat} {s : List Char} {ts : List Token}

/-- **The tokens of a piece** are laid out along it, or it is left out. -/
theorem Layout.emit {settings : Settings} {opened : List OpenElement} {p : Piece} (last : Bool)
    (hopened : Keyed opened) (hp : p.Complete) (hne : p.source ≠ [])
    (h : Layout settings.keepComments (offset + bytes p.source) s ts) :
    Layout settings.keepComments offset (p.source ++ s)
      (tokens (emit settings p offset (offset + bytes p.source) last opened).1 ++ ts) := by
  cases p with
  | comment body =>
      simp only [Markup.emit]
      split
      · exact Layout.tile_one hne ⟨rfl, rfl, by simp [Token.SpelledAs, Piece.source]⟩ h
      · rename_i hkeep
        exact Layout.skip (Skipped.comment body (by simpa using hkeep) hp) h
  | conditional body => exact Layout.skip (Skipped.conditional body hp) h
  | doctype source =>
      exact Layout.tile_one hne ⟨rfl, rfl, by simp [Token.SpelledAs, Piece.source]⟩ h
  | endTag name tail =>
      rcases closeNamed_cases (String.ofList name) offset
          (offset + bytes (Piece.endTag name tail).source) opened with
        ⟨inner, e, outer, hsplit, hkey, -⟩ | ⟨-, events, heq, rfl | rfl | rfl⟩
      · have he : e ∈ opened := by rw [hsplit]; simp
        obtain ⟨hsome, hends⟩ := tokens_closeNamed_of_mem offset
          (offset + bytes (Piece.endTag name tail).source) he hkey
        refine Layout.tile hne hsome (fun t ht => ?_) h
        obtain ⟨n, rfl⟩ := hends t ht
        exact ⟨rfl, rfl, trivial⟩
      · simp only [Markup.emit, heq]
        exact Layout.tile_one hne ⟨rfl, rfl, trivial⟩ h
      · simp only [Markup.emit, heq]
        refine Layout.tile hne (by simp) (fun t ht => ?_) h
        simp only [tokens_token_cons, tokens_nil, List.mem_cons, List.not_mem_nil, or_false] at ht
        rcases ht with rfl | rfl
        · exact ⟨rfl, rfl, trivial⟩
        · exact ⟨rfl, rfl, trivial⟩
      · simp only [Markup.emit, heq]
        exact Layout.skip (Skipped.endTag name tail hp.1 hp.2) h
  | startTag tag =>
      simp only [Markup.emit, openTag, tokens_append, List.append_assoc]
      refine Layout.marks (tokens_closeImplied hopened settings _ _) ?_
      exact Layout.tile_one hne ⟨rfl, rfl, trivial⟩ h
  | text source =>
      have htext : tokens (Markup.emit settings (.text source) offset
          (offset + bytes (Piece.text source).source) last opened).1 =
          [.text (String.ofList source) offset (offset + bytes (Piece.text source).source)] := by
        simp only [Markup.emit]
        split <;> rfl
      rw [htext]
      exact Layout.tile_one hne ⟨rfl, rfl, by simp [Token.SpelledAs, Piece.source]⟩ h

/-- A line feed that is dropped is left out. -/
theorem Layout.lineFeed (drops : Bool)
    (h : Layout keepComments (offset + (dropLineFeed drops s).1) (dropLineFeed drops s).2 ts) :
    Layout keepComments offset s ts := by
  cases s with
  | nil => exact h
  | cons c s =>
      simp only [dropLineFeed] at h
      split at h
      · rename_i hc
        obtain rfl : c = '\n' := by simpa using (Bool.and_eq_true_iff.mp hc).2
        exact Layout.skip Skipped.lineFeed h
      · exact h

/-- **Raw text** whose marks stay is laid out as a single text, less a line feed at its start. -/
theorem Layout.rawText {content : Tag.Content} (hcontent : content ≠ .rawText) (e : OpenElement)
    {body : List Char} (h : Layout keepComments (offset + bytes body) s ts) :
    Layout keepComments offset (body ++ s)
      (tokens (rawTextEvents content e offset (offset + bytes body) body) ++ ts) := by
  -- what is left after the line feed is a tile, unless it is empty
  have htext : ∀ (start : Nat) (kept : List Char),
      Layout keepComments (start + bytes kept) s ts →
      Layout keepComments start (kept ++ s)
        (tokens (if kept = [] then []
          else [.token (.text (String.ofList kept) start (start + bytes kept))]) ++ ts) := by
    intro start kept h
    split
    · rename_i hnil
      simpa [hnil] using h
    · rename_i hne
      exact Layout.tile_one hne ⟨rfl, rfl, by simp [Token.SpelledAs]⟩ h
  simp only [rawTextEvents, if_neg hcontent]
  cases body with
  | nil => simpa [dropLineFeed] using h
  | cons c body =>
      simp only [dropLineFeed]
      split
      · rename_i hc
        obtain rfl : c = '\n' := by simpa using (Bool.and_eq_true_iff.mp hc).2
        have hone : bytes ['\n'] = 1 := rfl
        have hstop : offset + bytes ('\n' :: body) = offset + bytes ['\n'] + bytes body := by
          rw [bytes_cons, bytes_cons, bytes_nil]
          omega
        rw [hstop] at h ⊢
        exact Layout.skip (a := ['\n']) Skipped.lineFeed (htext _ body h)
      · simpa using htext offset (c :: body) h

theorem layout_closeAll (opened : List OpenElement) :
    Layout keepComments offset [] (tokens (closeAll offset opened)) := by
  have hmarks : ∀ t ∈ tokens (closeAll offset opened),
      ∃ name, t = .endTag name (offset + bytes []) (offset + bytes []) := by
    intro t ht
    rw [closeAll, tokens_closeEach] at ht
    obtain ⟨e, -, rfl⟩ := List.mem_map.mp ht
    exact ⟨e.name, rfl⟩
  simpa using Layout.marks (b := []) hmarks (Layout.nil offset)

/-- Raw text without an end is laid out as a text, after the end of its element. -/
theorem layout_unclosedRawText (e : OpenElement) (outer : List OpenElement) {rest : List Char}
    (hne : rest ≠ []) :
    Layout keepComments offset rest (tokens (unclosedRawText e outer offset rest)) := by
  have htokens : tokens (unclosedRawText e outer offset rest) =
      .endTag e.name (offset + bytes []) (offset + bytes []) ::
        .text (String.ofList rest) offset (offset + bytes rest) ::
          tokens (closeAll (offset + bytes rest) outer) := by
    simp only [unclosedRawText, tokens_append, closing]
    split <;> rfl
  have htext : Layout keepComments offset (rest ++ [])
      (.text (String.ofList rest) offset (offset + bytes rest) ::
        tokens (closeAll (offset + bytes rest) outer)) :=
    Layout.tile_one hne ⟨rfl, rfl, by simp [Token.SpelledAs]⟩ (layout_closeAll outer)
  rw [List.append_nil] at htext
  rw [htokens]
  exact Layout.mark e.name [] rest htext

/-- Without further raw-text elements, the content of raw text keeps its marks. -/
theorem content_ne_rawText {settings : Settings} (hraw : ∀ tag, settings.tags.isRawText tag = false)
    {opened outer : List OpenElement} {content : Tag.Content} {e : OpenElement}
    (h : rawElement? settings opened = some (content, e, outer)) : content ≠ .rawText := by
  cases opened with
  | nil => simp [rawElement?] at h
  | cons top opened =>
      simp only [rawElement?] at h
      split at h
      · cases h
      · cases h
        simp only [Tag.content, hraw]
        split <;> simp

/-- The tokens of the rest of a template are laid out along it. -/
theorem layout_scan {settings : Settings} (hraw : ∀ tag, settings.tags.isRawText tag = false)
    (opened : List OpenElement) (hopened : Keyed opened) (offset : Nat) (rest : List Char) :
    Layout settings.keepComments offset rest (tokens (scan settings opened offset rest)) := by
  fun_induction scan settings opened offset rest with
  | case1 opened offset => exact layout_closeAll opened
  | case2 opened offset c s _ p r hpiece _ _ stop emitted dropped ih =>
      rw [append_of_piece hpiece, tokens_append]
      refine Layout.emit r.isEmpty hopened (complete_of_piece hpiece)
        (source_ne_nil_of_piece hpiece) ?_
      exact Layout.lineFeed (dropsLineFeed p) (ih (hopened.emit settings p offset stop r.isEmpty))
  | case3 opened offset c s content e outer hraw' _ =>
      exact layout_unclosedRawText e outer (List.cons_ne_nil c s)
  | case4 opened offset c s content e outer hraw' body endTag r hsplit _ bodyEnd stop ih =>
      obtain ⟨heq, hne⟩ := append_of_splitRawText? hsplit
      rw [eq_cons_of_rawElement? hraw'] at hopened
      rw [heq, List.append_assoc, tokens_append]
      refine Layout.rawText (content_ne_rawText hraw hraw') e ?_
      exact Layout.tile_one hne ⟨rfl, rfl, trivial⟩ (ih hopened.tail)

/-- **The tokens of a template tile it**, when only the fixed elements hold raw text. -/
theorem tiles_events (settings : Settings) (template : String)
    (hraw : ∀ tag, settings.tags.isRawText tag = false) :
    Tiles settings.keepComments template.toList (tokens (events settings template)) :=
  (layout_scan hraw [] Keyed.nil 0 template.toList).tiles

/-- The web platform has no raw-text elements of its own. -/
theorem tiles_events_web :
    (∀ tag, Settings.web.tags.isRawText tag = false) ∧
      Tiles false "<pre>\na</x><!-- b --></p>".toList
        (tokens (events Settings.web "<pre>\na</x><!-- b --></p>")) :=
  ⟨fun _ => rfl, tiles_events Settings.web "<pre>\na</x><!-- b --></p>" fun _ => rfl⟩

end Templating.Markup
