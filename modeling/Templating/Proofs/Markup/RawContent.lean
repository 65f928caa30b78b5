import Templating.Proofs.Markup.RoundTrip

/-!
**The content of raw-text elements.**

Scripts, styles and text areas hold text that is kept as it stands, up to the first place where
their end tag is written in any letter case.  At the start of a text area line feeds are left out:
one by the rule for line feeds behind a start tag, and one more by the rule for raw text.

Main definitions:

* `Templating.Markup.StartsEndTag` — an end tag of a given element stands at the start of a text;
* `Templating.Markup.lineFeeds` — the line feeds at the start of a text, up to a limit;
* `Templating.Markup.rawTokens` — the tokens of a raw-text element with its content as it stands,
  less some line feeds.

Main results:

* `Templating.Markup.rawEndTag?_eq_none_iff` — an end tag is read exactly where one stands;
* `Templating.Markup.splitRawText?_append_iff` — the content goes up to the first end tag;
* `Templating.Markup.events_rawElement` — **the content of a raw-text element is one text**, and
  a text area loses up to two line feeds.
-/

set_option autoImplicit false

namespace Templating.Markup

open Text

/-! ### End tags in any letter case -/

/-- A pattern is taken off exactly when the text starts with it up to case. -/
theorem dropFold?_eq_some_iff {pattern s r : List Char} :
    dropFold? pattern s = some r ↔ ∃ a, s = a ++ r ∧ a.map fold = pattern.map fold := by
  induction pattern generalizing s with
  | nil => simp [dropFold?]
  | cons p ps ih =>
      cases s with
      | nil => simp [dropFold?]
      | cons c s =>
          simp only [dropFold?]
          split
          · rename_i hfold
            rw [ih]
            constructor
            · rintro ⟨a, rfl, ha⟩
              exact ⟨c :: a, rfl, by simp [hfold, ha]⟩
            · rintro ⟨a, hs, ha⟩
              cases a with
              | nil => simp at ha
              | cons d a => exact ⟨a, (List.cons.inj hs).2, (List.cons.inj ha).2⟩
          · rename_i hfold
            refine iff_of_false (by simp) ?_
            rintro ⟨a, hs, ha⟩
            cases a with
            | nil => simp at ha
            | cons d a =>
                obtain rfl : c = d := (List.cons.inj hs).1
                exact absurd (List.cons.inj ha).1.symm hfold

/-- An end tag of `tag` stands at the start of a text: its mark and its name in any letter case, and
what is left up to the first closing bracket. -/
def StartsEndTag (tag s : List Char) : Prop :=
  ∃ mark tail r, s = mark ++ (tail ++ '>' :: r) ∧
    mark.map fold = ('<' :: '/' :: tag).map fold ∧ '>' ∉ tail

/-- **An end tag is read exactly where one stands.** -/
theorem rawEndTag?_eq_none_iff {tag s : List Char} :
    rawEndTag? tag s = none ↔ ¬StartsEndTag tag s := by
  unfold rawEndTag?
  split
  · rename_i hnone
    refine ⟨?_, fun _ => rfl⟩
    rintro - ⟨mark, tail, r, rfl, hmark, -⟩
    rw [dropFold?_eq_some_iff.mpr ⟨mark, rfl, hmark⟩] at hnone
    cases hnone
  · rename_i t hsome
    obtain ⟨mark, rfl, hmark⟩ := dropFold?_eq_some_iff.mp hsome
    have hparts := List.takeWhile_append_dropWhile (p := (· != '>')) (l := t)
    split
    · rename_i hrest
      refine ⟨?_, fun _ => rfl⟩
      rintro - ⟨mark', tail, r, heq, hmark', -⟩
      -- both marks are as long as the pattern, so the bracket is behind the mark
      have hlength : mark.length = mark'.length := by
        simpa using (congrArg List.length hmark).trans (congrArg List.length hmark').symm
      obtain ⟨-, rfl⟩ := List.append_inj heq hlength
      exact absurd hrest (by simp [List.dropWhile_eq_nil_iff])
    · rename_i c r hrest
      refine iff_of_false (by simp) (not_not_intro ?_)
      obtain rfl : c = '>' := by
        have hhead := List.head?_dropWhile_not (· != '>') t
        rw [hrest] at hhead
        simpa using hhead
      refine ⟨mark, t.takeWhile (· != '>'), r, by rw [← hrest, hparts], hmark, fun hmem => ?_⟩
      simpa using List.mem_takeWhile_imp hmem

/-- A printed end tag is read as one. -/
theorem rawEndTag?_printEnd (tag : String) (r : List Char) :
    rawEndTag? tag.toList (printEnd tag ++ r) = some (printEnd tag, r) := by
  have hdrop : dropFold? ('<' :: '/' :: tag.toList) (printEnd tag ++ r) = some ('>' :: r) :=
    dropFold?_eq_some_iff.mpr ⟨'<' :: '/' :: tag.toList, by simp [printEnd], rfl⟩
  have htake : (printEnd tag ++ r).take (tag.toList.length + 2) = '<' :: '/' :: tag.toList := by
    simp [printEnd]
  simp only [rawEndTag?, hdrop, htake]
  simp [printEnd]

/-- **The content goes up to the first end tag.** -/
theorem splitRawText?_append_iff {tag content rest e r : List Char} :
    splitRawText? tag (content ++ rest) = some (content, e, r) ↔
      (∀ a b, content = a ++ b → b ≠ [] → ¬StartsEndTag tag (b ++ rest)) ∧
        rawEndTag? tag rest = some (e, r) := by
  induction content with
  | nil =>
      have hnone : ∀ a b : List Char, [] = a ++ b → b ≠ [] → ¬StartsEndTag tag (b ++ rest) :=
        fun a b hsplit hb => absurd (List.append_eq_nil_iff.mp hsplit.symm).2 hb
      rw [and_iff_right hnone]
      cases rest with
      | nil => simp [splitRawText?, rawEndTag?, dropFold?]
      | cons c s =>
          rw [List.nil_append, splitRawText?]
          cases rawEndTag? tag (c :: s) with
          | none => simp
          | some p => simp [Prod.ext_iff]
  | cons c content ih =>
      rw [List.cons_append, splitRawText?]
      cases hend : rawEndTag? tag (c :: (content ++ rest)) with
      | some p =>
          -- an end tag stands at the start already
          refine iff_of_false (by simp) fun h => ?_
          have hnone := rawEndTag?_eq_none_iff.mpr
            (h.1 [] (c :: content) rfl (List.cons_ne_nil c content))
          exact Option.some_ne_none p (hend.symm.trans hnone)
      | none =>
          have hfirst : (∀ a b, c :: content = a ++ b → b ≠ [] → ¬StartsEndTag tag (b ++ rest)) ↔
              ∀ a b, content = a ++ b → b ≠ [] → ¬StartsEndTag tag (b ++ rest) := by
            refine ⟨fun h a b hsplit => h (c :: a) b (by rw [hsplit, List.cons_append]),
              fun h a b hsplit hb => ?_⟩
            cases a with
            | nil =>
                obtain rfl : c :: content = b := hsplit
                exact rawEndTag?_eq_none_iff.mp hend
            | cons d a => exact h a b (List.cons.inj hsplit).2 hb
          rw [hfirst, ← ih]
          simp only [Option.map_eq_some_iff, Prod.mk.injEq, List.cons.injEq, true_and]
          constructor
          · rintro ⟨⟨a, q⟩, hrest, rfl, rfl⟩
            exact hrest
          · exact fun hrest => ⟨(content, e, r), hrest, rfl, rfl⟩

/-! ### Line feeds -/

/-- The number of line feeds at the start of a text, up to a limit. -/
def lineFeeds (limit : Nat) (s : List Char) : Nat := min limit (s.takeWhile (· == '\n')).length

/-- One line feed is dropped. -/
theorem dropLineFeed_true (s : List Char) :
    dropLineFeed true s = (lineFeeds 1 s, s.drop (lineFeeds 1 s)) := by
  cases s with
  | nil => rfl
  | cons c s =>
      by_cases hc : c = '\n'
      · simp [dropLineFeed, lineFeeds, hc]
      · simp [dropLineFeed, lineFeeds, hc]

/-- One line feed, and one more of what is left. -/
theorem lineFeeds_two (s : List Char) :
    lineFeeds 1 s + lineFeeds 1 (s.drop (lineFeeds 1 s)) = lineFeeds 2 s := by
  cases s with
  | nil => rfl
  | cons c s =>
      by_cases hc : c = '\n'
      · simp [lineFeeds, hc]
        omega
      · simp [lineFeeds, hc]

/-- What follows a text does not count, unless it starts with a line feed. -/
theorem lineFeeds_append {limit : Nat} {s t : List Char} (ht : t.head? ≠ some '\n') :
    lineFeeds limit (s ++ t) = lineFeeds limit s := by
  have hnone : t.takeWhile (· == '\n') = [] := by
    cases t with
    | nil => rfl
    | cons c t => simpa using ht
  have hlength : ((s ++ t).takeWhile (· == '\n')).length = (s.takeWhile (· == '\n')).length := by
    induction s with
    | nil => simp [hnone]
    | cons c s ih =>
        by_cases hc : c = '\n'
        · simp [hc, ih]
        · simp [hc]
  rw [lineFeeds, lineFeeds, hlength]

theorem lineFeeds_le_length (limit : Nat) (s : List Char) : lineFeeds limit s ≤ s.length :=
  (Nat.min_le_right _ _).trans (List.takeWhile_prefix _).length_le

/-- A line feed takes a byte. -/
theorem lineFeeds_add_bytes (limit : Nat) (s : List Char) :
    lineFeeds limit s + bytes (s.drop (lineFeeds limit s)) = bytes s := by
  induction s generalizing limit with
  | nil => simp [lineFeeds]
  | cons c s ih =>
      cases limit with
      | zero => simp [lineFeeds]
      | succ limit =>
          by_cases hc : c = '\n'
          · have hsucc : lineFeeds (limit + 1) (c :: s) = lineFeeds limit s + 1 := by
              simp [lineFeeds, hc]
            have hone : '\n'.utf8Size = 1 := rfl
            have hrest := ih limit
            rw [hsucc, List.drop_succ_cons, bytes_cons, hc, hone]
            omega
          · simp [lineFeeds, hc]

/-! ### Elements -/

/-- The elements whose content is always raw text, by their names. -/
theorem facts_of_plainText {tag : String} (h : tag ∈ ["script", "style", "textarea"]) :
    IsTagName tag.toList ∧ lowerString tag = tag ∧ Tag.isPlainText tag = true ∧
      Tag.ignoresFirstLineFeed tag = decide (tag = "textarea") := by
  have hname : ∀ (c : Char) (s : List Char), isNameStart c = true → s.all isNameChar = true →
      IsTagName (c :: s) := fun c s hc hs => .inl ⟨c, s, rfl, hc, List.all_eq_true.mp hs⟩
  simp only [List.mem_cons, List.not_mem_nil, or_false] at h
  rcases h with rfl | rfl | rfl
  · exact ⟨hname 's' "cript".toList (by decide) (by decide), by decide, by decide, by decide⟩
  · exact ⟨hname 's' "tyle".toList (by decide) (by decide), by decide, by decide, by decide⟩
  · exact ⟨hname 't' "extarea".toList (by decide) (by decide), by decide, by decide, by decide⟩

/-- The text of a raw-text element, less some line feeds at its start, unless nothing is left. -/
def rawText (content : List Char) (dropped start : Nat) : List Token :=
  if content.drop dropped = [] then []
  else [.text (String.ofList (content.drop dropped)) (start + dropped) (start + bytes content)]

/-- Line feeds that are dropped before and as part of the text add up. -/
theorem rawText_drop {content : List Char} {n : Nat}
    (h : n + bytes (content.drop n) = bytes content) (dropped start : Nat) :
    rawText (content.drop n) dropped (start + n) = rawText content (n + dropped) start := by
  simp only [rawText, List.drop_drop, ← h, Nat.add_assoc]

/-- **The tokens of a raw-text element without attributes**: its content as it stands, less some
line feeds at its start. -/
def rawTokens (tag content : String) (dropped : Nat) : List Token :=
  let start := bytes (printStart tag [])
  let stop := start + bytes content.toList
  [.startTag tag [] false 0 start] ++ rawText content.toList dropped start ++
    [.endTag tag stop (stop + bytes (printEnd tag))]

section Elements

variable {settings : Settings} {tag : String}

/-- Behind the start tag of a raw-text element a line feed may be dropped. -/
theorem scan_printStart (hname : IsTagName tag.toList) (hunary : settings.tags.isUnary tag = false)
    (r : List Char) :
    scan settings [] 0 (printStart tag [] ++ r) =
      .token (.startTag tag [] false 0 (bytes (printStart tag []))) ::
        scan settings [⟨tag, lowerString tag, 0, bytes (printStart tag [])⟩]
          (bytes (printStart tag []) + (dropLineFeed (Tag.ignoresFirstLineFeed tag) r).1)
          (dropLineFeed (Tag.ignoresFirstLineFeed tag) r).2 := by
  have hread := @markup?_printStart tag [] hname (by simp) r
  have hshape : printStart tag [] ++ r = '<' :: (tag.toList ++ '>' :: r) := by simp [printStart]
  have hpiece : piece '<' (tag.toList ++ '>' :: r) = (.startTag (rawStartTag tag []), r) := by
    rw [hshape] at hread
    simp only [piece, hread]
  have hsource : (Piece.startTag (rawStartTag tag [])).source = printStart tag [] := by
    simp [Piece.source, RawStartTag.source, rawStartTag, printStart]
  have hopen : ∀ stop last, emit settings (.startTag (rawStartTag tag [])) 0 stop last [] =
      ([.token (.startTag tag [] false 0 stop)], [⟨tag, lowerString tag, 0, stop⟩]) := by
    intro stop last
    simp [emit, openTag, closeImplied, innermost?, rawStartTag, placeAttributes, hunary]
  rw [hshape, scan_cons_of_piece rfl hpiece, hsource, hopen]
  simp [dropsLineFeed, rawStartTag]

/-- **The content of a raw-text element** is one text, less the line feed that raw text drops. -/
theorem scan_rawText {content : List Char} (hplain : Tag.isPlainText tag = true) (start stop : Nat)
    (hfirst : ∀ a b, content = a ++ b → b ≠ [] → ¬StartsEndTag tag.toList (b ++ printEnd tag))
    (offset : Nat) :
    scan settings [⟨tag, tag, start, stop⟩] offset (content ++ printEnd tag) =
      (rawText content (dropLineFeed (Tag.ignoresFirstLineFeed tag) content).1 offset).map .token ++
        [.token (.endTag tag (offset + bytes content)
          (offset + bytes content + bytes (printEnd tag)))] := by
  have hraw : rawElement? settings [⟨tag, tag, start, stop⟩] =
      some (.plainText, ⟨tag, tag, start, stop⟩, []) := by
    simp [rawElement?, Tag.content, hplain]
  have hend := rawEndTag?_printEnd tag []
  rw [List.append_nil] at hend
  have hsplit := splitRawText?_append_iff.mpr ⟨hfirst, hend⟩
  have hkept : (dropLineFeed (Tag.ignoresFirstLineFeed tag) content).2 =
      content.drop (dropLineFeed (Tag.ignoresFirstLineFeed tag) content).1 := by
    cases Tag.ignoresFirstLineFeed tag with
    | true => rw [dropLineFeed_true]
    | false => rw [dropLineFeed_false, List.drop_zero]
  obtain ⟨c, s, hcons⟩ := List.exists_cons_of_ne_nil
    (show content ++ printEnd tag ≠ [] by simp [printEnd])
  rw [hcons] at hsplit ⊢
  rw [scan_cons_of_splitRawText? hraw hsplit, scan, rawTextEvents, rawText]
  simp only [reduceCtorEq, if_false, hkept, closeAll, List.flatMap_nil, closing]
  split <;> rfl

end Elements

/-- **The content of a raw-text element is one text**, exactly as it stands in a script or a style.
A text area loses up to two line feeds at the start of its content.  There is nothing to report. -/
theorem events_rawElement {settings : Settings} {tag content : String}
    (htag : tag ∈ ["script", "style", "textarea"]) (hunary : settings.tags.isUnary tag = false)
    (hfirst : ∀ a b, content.toList = a ++ b → b ≠ [] →
      ¬StartsEndTag tag.toList (b ++ printEnd tag)) :
    events settings ("<" ++ tag ++ ">" ++ content ++ "</" ++ tag ++ ">") =
      (rawTokens tag content
        (if tag = "textarea" then lineFeeds 2 content.toList else 0)).map .token := by
  obtain ⟨hname, hlower, hplain, hdrops⟩ := facts_of_plainText htag
  have hsource : ("<" ++ tag ++ ">" ++ content ++ "</" ++ tag ++ ">").toList =
      printStart tag [] ++ (content.toList ++ printEnd tag) := by
    simp [printStart, printEnd, String.toList_append]
  have hhead : (printEnd tag).head? ≠ some '\n' := by simp [printEnd]
  rw [events, hsource, scan_printStart hname hunary, hlower, hdrops]
  by_cases harea : tag = "textarea"
  · -- the first line feed is dropped behind the start tag, the second one as part of raw text
    have hbytes := lineFeeds_add_bytes 1 content.toList
    have hdrop : (content.toList ++ printEnd tag).drop (lineFeeds 1 content.toList) =
        content.toList.drop (lineFeeds 1 content.toList) ++ printEnd tag :=
      List.drop_append_of_le_length (lineFeeds_le_length 1 content.toList)
    have hfirst' : ∀ a b, content.toList.drop (lineFeeds 1 content.toList) = a ++ b → b ≠ [] →
        ¬StartsEndTag tag.toList (b ++ printEnd tag) := fun a b hsplit =>
      hfirst (content.toList.take (lineFeeds 1 content.toList) ++ a) b (by
        rw [List.append_assoc, ← hsplit, List.take_append_drop])
    rw [decide_eq_true harea, dropLineFeed_true, lineFeeds_append hhead, hdrop,
      scan_rawText hplain _ _ hfirst', hdrops, decide_eq_true harea, dropLineFeed_true]
    dsimp only
    rw [rawText_drop hbytes, lineFeeds_two, Nat.add_assoc (bytes (printStart tag [])), hbytes,
      rawTokens, if_pos harea]
    simp
  · rw [decide_eq_false harea, dropLineFeed_false, scan_rawText hplain _ _ hfirst, hdrops,
      decide_eq_false harea, dropLineFeed_false, rawTokens, if_neg harea]
    simp

/-- A text area that starts with three line feeds, with tags, a comment and an unfinished end
tag. -/
theorem events_rawElement_textarea :
    ("textarea" ∈ ["script", "style", "textarea"] ∧
      Settings.web.tags.isUnary "textarea" = false ∧
      ∀ a b, "\n\n\n<b></TEXT><!-- </texta".toList = a ++ b → b ≠ [] →
        ¬StartsEndTag "textarea".toList (b ++ printEnd "textarea")) ∧
    events Settings.web "<textarea>\n\n\n<b></TEXT><!-- </texta</textarea>" =
      [.token (.startTag "textarea" [] false 0 10),
        .token (.text "\n<b></TEXT><!-- </texta" 12 35),
        .token (.endTag "textarea" 35 46)] := by
  have hsplit : splitRawText? "textarea".toList
      ("\n\n\n<b></TEXT><!-- </texta".toList ++ printEnd "textarea") =
        some ("\n\n\n<b></TEXT><!-- </texta".toList, printEnd "textarea", []) := by
    decide +kernel
  have hfirst := (splitRawText?_append_iff.mp hsplit).1
  have hevents := @events_rawElement Settings.web "textarea" _ (by decide) (by decide) hfirst
  exact ⟨⟨by decide, by decide, hfirst⟩, hevents.trans (by decide +kernel)⟩

/-- **A second line feed that is lost**: the content of this text area is more than its text and one
line feed. -/
theorem exists_lost_lineFeed :
    Settings.web.tags.isUnary "textarea" = false ∧
      (∀ a b, "\n\nx".toList = a ++ b → b ≠ [] →
        ¬StartsEndTag "textarea".toList (b ++ printEnd "textarea")) ∧
      tokens (events Settings.web "<textarea>\n\nx</textarea>") =
        [.startTag "textarea" [] false 0 10, .text "x" 12 13, .endTag "textarea" 13 24] ∧
      tokens (events Settings.web "<textarea>\n\nx</textarea>") ≠
        rawTokens "textarea" "\n\nx" (lineFeeds 1 "\n\nx".toList) := by
  have hsplit : splitRawText? "textarea".toList ("\n\nx".toList ++ printEnd "textarea") =
      some ("\n\nx".toList, printEnd "textarea", []) := by
    decide +kernel
  refine ⟨by decide, (splitRawText?_append_iff.mp hsplit).1, ?_, ?_⟩
  · decide +kernel
  · decide +kernel

end Templating.Markup
