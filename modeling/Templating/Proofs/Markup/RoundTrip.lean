import Templating.Markup.Scan
import Templating.Proofs.Markup.Printing

/-!
**Reading undoes printing.**

A document is printed by writing down its tags, its texts and its comments one after another.
Reading what was printed brings up the same tags, texts and comments in the same order, and there is
nothing to report.

Main definitions:

* `Templating.Markup.Content` — the content of a document or of an element;
* `Templating.Markup.Content.print` — content as it is printed;
* `Templating.Markup.Content.Printable` — content that can be told from its print;
* `Templating.Markup.Sign`, `Templating.Markup.Token.sign`, `Templating.Markup.Content.signs` — what
  tokens say apart from their places, and what content says.

Main results:

* `Templating.Markup.scan_of_piece` — reading a piece;
* `Templating.Markup.untilMarkup_append_of_endsText` — a text goes up to the next tag or comment;
* `Templating.Markup.Reads.print` — **printed content is read back**, whatever follows it;
* `Templating.Markup.signs_events_print` — reading undoes printing.
-/

set_option autoImplicit false

namespace Templating.Markup

open Text

/-! ### Documents -/

/-- The content of a document or of an element: texts, comments and elements one after another. -/
inductive Content where
  | nil
  | text (text : String) (next : Content)
  | comment (text : String) (next : Content)
  | element (name : String) (attributes : List (String × String)) (children next : Content)
  deriving Repr, DecidableEq

namespace Content

/-- Content as it is printed.  An element without content has no end tag. -/
def print (isUnary : String → Bool) : Content → List Char
  | nil => []
  | text s next => s.toList ++ next.print isUnary
  | comment s next => printComment s ++ next.print isUnary
  | element name attributes children next =>
      printStart name attributes ++
        ((if isUnary name then [] else children.print isUnary ++ printEnd name) ++
          next.print isUnary)

/-- Whether content starts with a text. -/
def startsWithText : Content → Bool
  | text .. => true
  | _ => false

/-- Content that can be told from its print: texts have no angle bracket and are never next to each
other, comments do not hold their end mark, elements hold markup unless they hold nothing, and names
can be told from what follows them. -/
def Printable (settings : Settings) : Content → Prop
  | nil => True
  | text s next =>
      s ≠ "" ∧ '<' ∉ s.toList ∧ next.startsWithText = false ∧ next.Printable settings
  | comment s next => ¬['-', '-', '>'] <:+: s.toList ∧ next.Printable settings
  | element name attributes children next =>
      (IsTagName name.toList ∧ (∀ a ∈ attributes, IsAttributeName a.1.toList) ∧
        Tag.content settings.tags.isRawText (lowerString name) = .parsable ∧
        Tag.ignoresFirstLineFeed name = false ∧
        (settings.tags.isUnary name = true → children = nil)) ∧
      children.Printable settings ∧ next.Printable settings

end Content

/-! ### Signs -/

/-- What a token says apart from its place. -/
inductive Sign where
  | opening (name : String) (attributes : List (String × String)) (unary : Bool)
  | closing (name : String)
  | text (text : String)
  | comment (text : String)
  | doctype (text : String)
  deriving Repr, DecidableEq

/-- A token without its place. -/
def Token.sign : Token → Sign
  | .startTag name attributes unary _ _ =>
      .opening name (attributes.map fun a => (a.name, a.value)) unary
  | .endTag name _ _ => .closing name
  | .text s _ _ => .text s
  | .comment s _ _ => .comment s
  | .doctype s _ _ => .doctype s

/-- The signs of events. -/
def signs (events : List Event) : List Sign := (tokens events).map Token.sign

@[simp] theorem signs_append (a b : List Event) : signs (a ++ b) = signs a ++ signs b := by
  simp [signs]

/-- The signs of content, in the order of its print. -/
def Content.signs (isUnary : String → Bool) : Content → List Sign
  | nil => []
  | text s next => .text s :: next.signs isUnary
  | comment s next => .comment s :: next.signs isUnary
  | element name attributes children next =>
      .opening name attributes (isUnary name) ::
        ((if isUnary name then [] else children.signs isUnary ++ [.closing name]) ++
          next.signs isUnary)

/-! ### Where texts end -/

/-- A text ends before what starts like this. -/
def EndsText (r : List Char) : Prop := r = [] ∨ ∃ t, r = '<' :: t ∧ beginsMarkup r = true

theorem endsText_printStart {name : String} (hname : IsTagName name.toList)
    (attributes : List (String × String)) (r : List Char) :
    EndsText (printStart name attributes ++ r) := by
  refine .inr ⟨_, rfl, ?_⟩
  -- some name is read, whatever follows it
  obtain ⟨c, s, hcons, hc⟩ := hname.exists_cons
  have hread : ∀ t, (tagName? (c :: t)).isSome = true := by
    intro t
    simp only [tagName?, simpleName?, hc, if_true]
    split
    · rfl
    · split
      · split <;> rfl
      · rfl
  simp [beginsMarkup, printStart, hcons, hread]

theorem endsText_printEnd {name : String} (hname : IsTagName name.toList) (r : List Char) :
    EndsText (printEnd name ++ r) := by
  refine .inr ⟨_, rfl, ?_⟩
  unfold beginsMarkup
  rw [endTag?_printEnd hname r]
  rfl

theorem endsText_printComment (text : String) (r : List Char) :
    EndsText (printComment text ++ r) := by
  refine .inr ⟨_, rfl, ?_⟩
  simp [printComment, beginsMarkup, startsWith, strip?]

/-- Content that does not start with a text ends the text before it. -/
theorem Content.Printable.endsText_print {settings : Settings} {d : Content}
    (h : d.Printable settings)
    (htext : d.startsWithText = false) {r : List Char} (hr : EndsText r) (isUnary : String → Bool) :
    EndsText (d.print isUnary ++ r) := by
  cases d with
  | nil => exact hr
  | text => cases htext
  | comment s next =>
      rw [Content.print, List.append_assoc]
      exact endsText_printComment s _
  | element name attributes children next =>
      rw [Content.print, List.append_assoc]
      exact endsText_printStart h.1.1 attributes _

/-- A text goes up to the next tag or comment. -/
theorem untilMarkup_append_of_endsText {s r : List Char} (hs : '<' ∉ s) (hr : EndsText r) :
    untilMarkup (s ++ r) = (s, r) := by
  induction s with
  | nil =>
      rcases hr with rfl | ⟨t, rfl, ht⟩
      · rfl
      · simp [untilMarkup, ht]
  | cons c s ih =>
      obtain ⟨hc, hs⟩ : c ≠ '<' ∧ '<' ∉ s := by simpa [eq_comm] using hs
      simp [untilMarkup, hc, ih hs]

/-! ### Reading a piece -/

/-- Reading a piece, where markup is looked for. -/
theorem scan_cons_of_piece {settings : Settings} {opened : List OpenElement} {c : Char}
    {s r : List Char} {p : Piece} (hraw : rawElement? settings opened = none)
    (hpiece : piece c s = (p, r)) (offset : Nat) :
    scan settings opened offset (c :: s) =
      (emit settings p offset (offset + bytes p.source) r.isEmpty opened).1 ++
        scan settings (emit settings p offset (offset + bytes p.source) r.isEmpty opened).2
          (offset + bytes p.source + (dropLineFeed (dropsLineFeed p) r).1)
          (dropLineFeed (dropsLineFeed p) r).2 := by
  rw [scan]
  split
  · split
    rename_i p' r' heq
    obtain ⟨rfl, rfl⟩ := Prod.mk.inj (heq.symm.trans hpiece)
    rfl
  · rename_i hsome
    rw [hraw] at hsome
    cases hsome

/-- Reading the content and the end tag of a raw-text element. -/
theorem scan_cons_of_splitRawText? {settings : Settings} {opened outer : List OpenElement}
    {c : Char} {s body endTag r : List Char} {content : Tag.Content} {e : OpenElement}
    (hraw : rawElement? settings opened = some (content, e, outer))
    (hsplit : splitRawText? e.key.toList (c :: s) = some (body, endTag, r)) (offset : Nat) :
    scan settings opened offset (c :: s) =
      rawTextEvents content e offset (offset + bytes body) body ++
        closing (offset + bytes body) (offset + bytes body + bytes endTag) e ::
          scan settings outer (offset + bytes body + bytes endTag) r := by
  rw [scan]
  split
  · rename_i hnone
    rw [hraw] at hnone
    cases hnone
  · rename_i hsome
    cases hraw.symm.trans hsome
    split
    · rename_i hnone
      rw [hsplit] at hnone
      cases hnone
    · rename_i hsome
      cases hsplit.symm.trans hsome
      rfl

/-- Reading a raw-text element whose end tag is missing. -/
theorem scan_cons_of_unclosed {settings : Settings} {opened outer : List OpenElement} {c : Char}
    {s : List Char} {content : Tag.Content} {e : OpenElement}
    (hraw : rawElement? settings opened = some (content, e, outer))
    (hsplit : splitRawText? e.key.toList (c :: s) = none) (offset : Nat) :
    scan settings opened offset (c :: s) = unclosedRawText e outer offset (c :: s) := by
  rw [scan]
  split
  · rename_i hnone
    rw [hraw] at hnone
    cases hnone
  · rename_i hsome
    cases hraw.symm.trans hsome
    split
    · rfl
    · rename_i hsome
      rw [hsplit] at hsome
      cases hsome

theorem dropLineFeed_false (s : List Char) : dropLineFeed false s = (0, s) := by
  cases s <;> rfl

/-- Reading a piece, where markup is looked for and no line feed is dropped. -/
theorem scan_of_piece {settings : Settings} {opened : List OpenElement} {c : Char}
    {s r : List Char} {p : Piece} (hraw : rawElement? settings opened = none)
    (hpiece : piece c s = (p, r)) (hdrops : dropsLineFeed p = false) (offset : Nat) :
    scan settings opened offset (c :: s) =
      (emit settings p offset (offset + bytes p.source) r.isEmpty opened).1 ++
        scan settings (emit settings p offset (offset + bytes p.source) r.isEmpty opened).2
          (offset + bytes p.source) r := by
  rw [scan_cons_of_piece hraw hpiece, hdrops, dropLineFeed_false, Nat.add_zero]

/-- Reading a piece other than text. -/
theorem scan_of_markup? {settings : Settings} {opened : List OpenElement} {s r : List Char}
    {p : Piece} (hraw : rawElement? settings opened = none) (hs : markup? s = some (p, r))
    (hdrops : dropsLineFeed p = false) (offset : Nat) :
    scan settings opened offset s =
      (emit settings p offset (offset + bytes p.source) r.isEmpty opened).1 ++
        scan settings (emit settings p offset (offset + bytes p.source) r.isEmpty opened).2
          (offset + bytes p.source) r := by
  have hne : s ≠ [] := by
    rw [append_of_markup? hs]
    simp [source_ne_nil_of_markup? hs]
  obtain ⟨c, t, rfl⟩ := List.exists_cons_of_ne_nil hne
  exact scan_of_piece hraw (by simp only [piece, hs]) hdrops offset

/-! ### Reading printed content -/

/-- Reading `s` in front of `r` takes one place and the elements open there to another place and the
elements open there; it brings up the signs `l`, and there is nothing to report. -/
def Reads (settings : Settings) (opened : List OpenElement) (offset : Nat) (s r : List Char)
    (opened' : List OpenElement) (offset' : Nat) (l : List Sign) : Prop :=
  ∃ es, scan settings opened offset (s ++ r) = es ++ scan settings opened' offset' r ∧
    signs es = l ∧ diagnostics es = []

section Reads

variable {settings : Settings} {opened opened' opened'' : List OpenElement}
  {offset offset' offset'' : Nat} {s s' r : List Char} {l l' : List Sign}

theorem Reads.nil : Reads settings opened offset [] r opened offset [] :=
  ⟨[], rfl, rfl, rfl⟩

/-- Reading one thing after another. -/
theorem Reads.append (h : Reads settings opened offset s (s' ++ r) opened' offset' l)
    (h' : Reads settings opened' offset' s' r opened'' offset'' l') :
    Reads settings opened offset (s ++ s') r opened'' offset'' (l ++ l') := by
  obtain ⟨es, hscan, hsigns, hproblems⟩ := h
  obtain ⟨es', hscan', hsigns', hproblems'⟩ := h'
  refine ⟨es ++ es', ?_, ?_, ?_⟩
  · rw [List.append_assoc, hscan, hscan', List.append_assoc]
  · rw [signs_append, hsigns, hsigns']
  · rw [diagnostics_append, hproblems, hproblems']
    rfl

/-- Reading a piece other than text, whose events are known. -/
theorem Reads.of_markup? {p : Piece} {es : List Event} (hraw : rawElement? settings opened = none)
    (hs : markup? (s ++ r) = some (p, r)) (hdrops : dropsLineFeed p = false)
    (hemit : emit settings p offset (offset + bytes p.source) r.isEmpty opened = (es, opened'))
    (hsigns : signs es = l) (hproblems : diagnostics es = []) :
    Reads settings opened offset s r opened' (offset + bytes p.source) l := by
  refine ⟨es, ?_, hsigns, hproblems⟩
  rw [scan_of_markup? hraw hs hdrops offset, hemit]

theorem reads_text {text : String} (hraw : rawElement? settings opened = none) (hne : text ≠ "")
    (htext : '<' ∉ text.toList) (hr : EndsText r) (offset : Nat) :
    ∃ offset', Reads settings opened offset text.toList r opened offset' [.text text] := by
  obtain ⟨c, t, hcons⟩ := List.exists_cons_of_ne_nil (l := text.toList) (by simpa using hne)
  obtain ⟨hc, ht⟩ : c ≠ '<' ∧ '<' ∉ t := by simpa [hcons, eq_comm] using htext
  have hpiece : piece c (t ++ r) = (.text (c :: t), r) := by
    simp only [piece, markup?_eq_none hc, untilMarkup_append_of_endsText ht hr]
  -- a text without an angle bracket is no tag gone wrong
  have hemit : ∀ stop last, emit settings (.text (c :: t)) offset stop last opened =
      ([.token (.text text offset stop)], opened) := by
    intro stop last
    have hback : String.ofList (c :: t) = text := by rw [← hcons, String.ofList_toList]
    have hhead : ((c :: t).head? == some '<') = false := by simpa using hc
    simp only [emit, hback, hhead, Bool.and_false, Bool.false_eq_true, if_false]
  refine ⟨offset + bytes (Piece.text (c :: t)).source,
    [.token (.text text offset (offset + bytes (Piece.text (c :: t)).source))], ?_, rfl, rfl⟩
  rw [hcons, List.cons_append, scan_of_piece hraw hpiece rfl offset, hemit]

theorem reads_printComment {text : String} (hraw : rawElement? settings opened = none)
    (hkeep : settings.keepComments = true) (htext : ¬['-', '-', '>'] <:+: text.toList)
    (offset : Nat) (r : List Char) :
    ∃ offset', Reads settings opened offset (printComment text) r opened offset'
      [.comment text] := by
  have hemit : ∀ stop last, emit settings (.comment text.toList) offset stop last opened =
      ([.token (.comment text offset stop)], opened) := by
    intro stop last
    simp [emit, hkeep]
  exact ⟨_, Reads.of_markup? hraw (markup?_printComment htext r) rfl (hemit _ _) rfl rfl⟩

/-- The attributes of a tag are those that were printed. -/
theorem map_placeAttributes (settings : Settings) (tag : String)
    (attributes : List (String × String)) (offset : Nat) :
    (placeAttributes settings tag offset (attributes.map rawAttribute)).map
      (fun a => (a.name, a.value)) = attributes := by
  induction attributes generalizing offset with
  | nil => rfl
  | cons a attributes ih =>
      simp [placeAttributes, rawAttribute, Entity.decode_encode, ih]

/-- The elements that are open after a start tag. -/
def after (settings : Settings) (name : String) (start stop : Nat) (opened : List OpenElement) :
    List OpenElement :=
  if settings.tags.isUnary name then opened else ⟨name, lowerString name, start, stop⟩ :: opened

theorem reads_printStart {name : String} {attributes : List (String × String)}
    (hraw : rawElement? settings opened = none) (hhtml : settings.expectHtml = false)
    (hname : IsTagName name.toList) (h : ∀ a ∈ attributes, IsAttributeName a.1.toList)
    (hfeed : Tag.ignoresFirstLineFeed name = false) (offset : Nat) (r : List Char) :
    ∃ offset', Reads settings opened offset (printStart name attributes) r
      (after settings name offset offset' opened) offset'
      [.opening name attributes (settings.tags.isUnary name)] := by
  have hemit : ∀ stop last, emit settings (.startTag (rawStartTag name attributes)) offset stop last
      opened = ([.token (.startTag name (placeAttributes settings name
        (offset + bytes ('<' :: name.toList)) (attributes.map rawAttribute))
        (settings.tags.isUnary name) offset stop)], after settings name offset stop opened) := by
    intro stop last
    simp [emit, openTag, closeImplied, hhtml, rawStartTag, after]
  refine ⟨_, Reads.of_markup? hraw (markup?_printStart hname h r) ?_ (hemit _ _) ?_ rfl⟩
  · simpa [dropsLineFeed, rawStartTag] using hfeed
  · simp [signs, Token.sign, map_placeAttributes]

theorem reads_printEnd {e : OpenElement} (hraw : rawElement? settings (e :: opened) = none)
    (hkey : e.key = lowerString e.name) (hname : IsTagName e.name.toList) (offset : Nat)
    (r : List Char) :
    ∃ offset', Reads settings (e :: opened) offset (printEnd e.name) r opened offset'
      [.closing e.name] := by
  have hemit : ∀ stop last, emit settings (.endTag e.name.toList []) offset stop last
      (e :: opened) = ([closing offset stop e], opened) := by
    intro stop last
    simp [emit, closeNamed, hkey]
  exact ⟨_, Reads.of_markup? hraw (markup?_printEnd hname r) rfl (hemit _ _) rfl rfl⟩

/-- **Printed content is read back**, whatever follows it. -/
theorem Content.reads_print (hhtml : settings.expectHtml = false)
    (hkeep : settings.keepComments = true) (d : Content) :
    ∀ (opened : List OpenElement) (offset : Nat) (r : List Char), d.Printable settings →
      rawElement? settings opened = none → EndsText r →
      ∃ offset', Reads settings opened offset (d.print settings.tags.isUnary) r opened offset'
        (d.signs settings.tags.isUnary) := by
  induction d with
  | nil => exact fun opened offset r _ _ _ => ⟨offset, Reads.nil⟩
  | text s next ih =>
      rintro opened offset r ⟨hne, hbracket, hnext, h⟩ hraw hr
      obtain ⟨_, hfirst⟩ := reads_text hraw hne hbracket (h.endsText_print hnext hr _) offset
      obtain ⟨offset', hrest⟩ := ih opened _ r h hraw hr
      exact ⟨offset', hfirst.append hrest⟩
  | comment s next ih =>
      rintro opened offset r ⟨hmark, h⟩ hraw hr
      obtain ⟨_, hfirst⟩ := reads_printComment hraw hkeep hmark offset (next.print _ ++ r)
      obtain ⟨offset', hrest⟩ := ih opened _ r h hraw hr
      exact ⟨offset', hfirst.append hrest⟩
  | element name attributes children next ih₁ ih₂ =>
      rintro opened offset r ⟨⟨hname, hattributes, hcontent, hfeed, hunary⟩, hchildren, h⟩ hraw hr
      simp only [Content.print, Content.signs]
      cases hkind : settings.tags.isUnary name with
      | true =>
          obtain ⟨stop, hstart⟩ := reads_printStart hraw hhtml hname hattributes hfeed offset
            (next.print settings.tags.isUnary ++ r)
          rw [after, if_pos hkind, hkind] at hstart
          obtain ⟨offset', hrest⟩ := ih₂ opened stop r h hraw hr
          exact ⟨offset', hstart.append hrest⟩
      | false =>
          obtain ⟨stop, hstart⟩ := reads_printStart hraw hhtml hname hattributes hfeed offset
            ((children.print settings.tags.isUnary ++ printEnd name) ++
              next.print settings.tags.isUnary ++ r)
          rw [after, if_neg (by simp [hkind]), hkind] at hstart
          -- the content of the element is markup, so its end tag is looked for
          have hraw' : ∀ start stop, rawElement? settings
              (⟨name, lowerString name, start, stop⟩ :: opened) = none := by
            intro start stop
            simp [rawElement?, hcontent]
          obtain ⟨middle, hinside⟩ := ih₁ _ stop (printEnd name ++ (next.print _ ++ r)) hchildren
            (hraw' offset stop) (endsText_printEnd hname _)
          obtain ⟨last, hend⟩ := reads_printEnd (hraw' offset stop) rfl hname middle
            (next.print settings.tags.isUnary ++ r)
          obtain ⟨offset', hrest⟩ := ih₂ opened last r h hraw hr
          exact ⟨offset', hstart.append ((hinside.append hend).append hrest)⟩

end Reads

/-! ### Templates -/

/-- **Reading undoes printing**: what is read from the print of a document are its own tags, texts
and comments in order, and there is nothing to report.  Rules of HTML about tags that are left out
do not apply, and comments are kept. -/
theorem signs_events_print {settings : Settings} (hhtml : settings.expectHtml = false)
    (hkeep : settings.keepComments = true) {d : Content} (hd : d.Printable settings) :
    signs (events settings (String.ofList (d.print settings.tags.isUnary))) =
        d.signs settings.tags.isUnary ∧
      diagnostics (events settings (String.ofList (d.print settings.tags.isUnary))) = [] := by
  obtain ⟨offset, es, hscan, hsigns, hproblems⟩ :=
    d.reads_print hhtml hkeep [] 0 [] hd rfl (.inl rfl)
  have hend : scan settings [] offset [] = [] := by simp [scan, closeAll]
  rw [List.append_nil, hend, List.append_nil] at hscan
  rw [events, String.toList_ofList, hscan]
  exact ⟨hsigns, hproblems⟩

/-- A dynamic argument, references in a value, a comment that ends in a dash, and a text next to an
element without content. -/
theorem signs_events_print_nested :
    signs (events { Settings.web with expectHtml := false, keepComments := true }
        "<Div :[k]=\"x&quot;&amp;lt;y\"><!--a--->1 & 2<br></Div>") =
      [.opening "Div" [(":[k]", "x\"&lt;y")] false, .comment "a-", .text "1 & 2",
        .opening "br" [] true, .closing "Div"] ∧
    diagnostics (events { Settings.web with expectHtml := false, keepComments := true }
        "<Div :[k]=\"x&quot;&amp;lt;y\"><!--a--->1 & 2<br></Div>") = [] := by
  have hprintable : (Content.element "Div" [(":[k]", "x\"&lt;y")]
      (.comment "a-" (.text "1 & 2" (.element "br" [] .nil .nil))) .nil).Printable
      { Settings.web with expectHtml := false, keepComments := true } := by
    have hdiv : IsTagName "Div".toList :=
      .inl ⟨'D', ['i', 'v'], by decide, by decide, List.all_eq_true.mp (by decide)⟩
    have hbr : IsTagName "br".toList :=
      .inl ⟨'b', ['r'], by decide, by decide, List.all_eq_true.mp (by decide)⟩
    have hkey : IsAttributeName ":[k]".toList := ⟨by decide, List.all_eq_true.mp (by decide)⟩
    refine ⟨⟨hdiv, by simpa using hkey, by decide +kernel, by decide +kernel, by decide +kernel⟩,
      ⟨by decide +kernel, by decide, by decide, rfl, ⟨hbr, by simp, by decide +kernel,
        by decide +kernel, fun _ => rfl⟩, trivial, trivial⟩, trivial⟩
  have h := signs_events_print rfl rfl hprintable
  have hprint : String.ofList ((Content.element "Div" [(":[k]", "x\"&lt;y")]
      (.comment "a-" (.text "1 & 2" (.element "br" [] .nil .nil))) .nil).print
        Settings.web.tags.isUnary) =
      "<Div :[k]=\"x&quot;&amp;lt;y\"><!--a--->1 & 2<br></Div>" := by decide +kernel
  have hsigns : (Content.element "Div" [(":[k]", "x\"&lt;y")]
      (.comment "a-" (.text "1 & 2" (.element "br" [] .nil .nil))) .nil).signs
        Settings.web.tags.isUnary =
      [.opening "Div" [(":[k]", "x\"&lt;y")] false, .comment "a-", .text "1 & 2",
        .opening "br" [] true, .closing "Div"] := by decide +kernel
  rwa [hprint, hsigns] at h

end Templating.Markup
