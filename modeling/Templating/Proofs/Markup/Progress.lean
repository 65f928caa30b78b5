import Templating.Proofs.Markup.Boundaries
import Templating.Proofs.Markup.RawContent

/-!
**Reading goes on.**

Reading a template can be told as a loop with a guard.  A turn of the loop reads at the place that
is reached: markup, or the content of a raw-text element.  A turn that reads nothing would be
repeated for ever, so it gives up instead, and the rest of the template is a text.  Where markup is
looked for something is always read; the guard is there for raw-text elements without an end tag.

Main definitions:

* `Templating.Markup.Cursor.Inside` — a state of reading stands between two characters of a
  template;
* `Templating.Markup.Cursor.Passes` — a state comes up behind some characters;
* `Templating.Markup.Cursor.readMarkup`, `Templating.Markup.Cursor.readRawText` — the two ways to
  read;
* `Templating.Markup.Turn`, `Templating.Markup.turns` — the turns of the loop;
* `Templating.Markup.Proceeds` — what the turns of a template are.

Main results:

* `Templating.Markup.Cursor.passes_readMarkup` — reading markup takes up some characters, whatever
  elements are open;
* `Templating.Markup.Cursor.turn_cases` — a turn takes up some characters, or gives up in a raw-text
  element without an end tag;
* `Templating.Markup.scan_eq_turns` — the loop brings up the events of the template;
* `Templating.Markup.proceeds_turns` — **reading goes on**, up to the one turn that may give up.
-/

set_option autoImplicit false

namespace Templating.Markup

open Text

/-! ### Places in a template -/

namespace Cursor

/-- What is left to read stands in the template at the place that is reached. -/
def Inside (template : String) (k : Cursor) : Prop :=
  ∃ front, template.toList = front ++ k.rest ∧ bytes front = k.offset

/-- The state `k'` comes up behind the characters `a` that are next at `k`. -/
def Passes (k : Cursor) (a : List Char) (k' : Cursor) : Prop :=
  k.rest = a ++ k'.rest ∧ k'.offset = k.offset + bytes a

/-- The state in which reading starts. -/
def start (template : String) : Cursor := ⟨[], 0, template.toList⟩

theorem inside_start (template : String) : (start template).Inside template := ⟨[], rfl, rfl⟩

variable {template : String} {k k' : Cursor} {a : List Char}

theorem Inside.offset_add (h : k.Inside template) :
    k.offset + bytes k.rest = bytes template.toList := by
  obtain ⟨front, hsource, hfront⟩ := h
  rw [hsource, bytes_append, hfront]

theorem Inside.passes (h : k.Inside template) (hpasses : k.Passes a k') : k'.Inside template := by
  obtain ⟨front, hsource, hfront⟩ := h
  refine ⟨front ++ a, ?_, ?_⟩
  · rw [hsource, hpasses.1, List.append_assoc]
  · rw [bytes_append, hfront, hpasses.2]

theorem Passes.offset_lt (h : k.Passes a k') (ha : a ≠ []) : k.offset < k'.offset := by
  have hpos : bytes a ≠ 0 := fun hzero => ha (bytes_eq_zero_iff.mp hzero)
  have hoffset := h.2
  omega

theorem Passes.length_lt (h : k.Passes a k') (ha : a ≠ []) : k'.rest.length < k.rest.length := by
  have hpos := List.length_pos_iff.mpr ha
  rw [h.1, List.length_append]
  omega

/-! ### Reading -/

/-- Reading markup: the events of the next piece, and the state behind it. -/
def readMarkup (settings : Settings) (k : Cursor) : List Event × Cursor :=
  match k.rest with
  | [] => ([], k)
  | c :: s =>
      let read := piece c s
      let stop := k.offset + bytes read.1.source
      let emitted := emit settings read.1 k.offset stop read.2.isEmpty k.opened
      let dropped := dropLineFeed (dropsLineFeed read.1) read.2
      (emitted.1, ⟨emitted.2, stop + dropped.1, dropped.2⟩)

/-- Reading in the raw-text element `e`: the events of its content and its end tag, and the state
behind them.  Without an end tag the element is closed and nothing is read. -/
def readRawText (content : Tag.Content) (e : OpenElement) (outer : List OpenElement) (k : Cursor) :
    List Event × Cursor :=
  match splitRawText? e.key.toList k.rest with
  | none => ([closing k.offset k.offset e], { k with opened := outer })
  | some (body, endTag, r) =>
      let bodyEnd := k.offset + bytes body
      let stop := bodyEnd + bytes endTag
      (rawTextEvents content e k.offset bodyEnd body ++ [closing bodyEnd stop e], ⟨outer, stop, r⟩)

/-- Reading by what the innermost open element asks for. -/
def read (settings : Settings) (k : Cursor) : List Event × Cursor :=
  match rawElement? settings k.opened with
  | none => k.readMarkup settings
  | some (content, e, outer) => k.readRawText content e outer

/-- **Reading markup takes up some characters**, whatever elements are open. -/
theorem passes_readMarkup (settings : Settings) {k : Cursor} (hrest : k.rest ≠ []) :
    ∃ a, a ≠ [] ∧ k.Passes a (k.readMarkup settings).2 := by
  obtain ⟨opened, offset, rest⟩ := k
  obtain ⟨c, s, rfl⟩ := List.exists_cons_of_ne_nil hrest
  have hpiece : piece c s = ((piece c s).1, (piece c s).2) := rfl
  obtain ⟨a, ha, hbytes⟩ := exists_append_dropLineFeed (dropsLineFeed (piece c s).1) (piece c s).2
  refine ⟨(piece c s).1.source ++ a, ?_, ?_, ?_⟩
  · exact List.append_ne_nil_of_left_ne_nil (source_ne_nil_of_piece hpiece) a
  · simp only [readMarkup]
    rw [append_of_piece hpiece, List.append_assoc, ← ha]
  · simp only [readMarkup]
    rw [bytes_append, hbytes, Nat.add_assoc]

/-- Reading up to the end tag of a raw-text element takes up some characters. -/
theorem passes_readRawText (content : Tag.Content) {e : OpenElement} (outer : List OpenElement)
    {k : Cursor} {body endTag r : List Char}
    (hsplit : splitRawText? e.key.toList k.rest = some (body, endTag, r)) :
    ∃ a, a ≠ [] ∧ k.Passes a (k.readRawText content e outer).2 := by
  obtain ⟨happend, hend⟩ := append_of_splitRawText? hsplit
  refine ⟨body ++ endTag, List.append_ne_nil_of_right_ne_nil body hend, ?_, ?_⟩
  · simp only [readRawText, hsplit]
    exact happend
  · simp only [readRawText, hsplit]
    rw [bytes_append, Nat.add_assoc]

end Cursor

/-! ### Raw text without an end -/

/-- **Raw text has no end** exactly when its end tag stands nowhere. -/
theorem splitRawText?_eq_none_iff {tag s : List Char} :
    splitRawText? tag s = none ↔ ∀ a b, s = a ++ b → ¬StartsEndTag tag b := by
  induction s with
  | nil =>
      refine iff_of_true rfl fun a b hsplit => ?_
      rintro ⟨mark, tail, r, hb, -, -⟩
      simp [hb] at hsplit
  | cons c s ih =>
      have hfirst : (∀ a b, c :: s = a ++ b → ¬StartsEndTag tag b) ↔
          ¬StartsEndTag tag (c :: s) ∧ ∀ a b, s = a ++ b → ¬StartsEndTag tag b := by
        refine ⟨fun h => ⟨h [] _ rfl, fun a b hsplit => h (c :: a) b (by rw [hsplit]; rfl)⟩,
          fun h a b hsplit => ?_⟩
        cases a with
        | nil =>
            obtain rfl : c :: s = b := hsplit
            exact h.1
        | cons d a => exact h.2 a b (List.cons.inj hsplit).2
      rw [hfirst, ← ih, ← rawEndTag?_eq_none_iff, splitRawText?]
      cases rawEndTag? tag (c :: s) with
      | none => simp
      | some p => simp

/-- The innermost open element is a raw-text element, and its end tag stands nowhere in what is left
to read. -/
def Cursor.Unending (settings : Settings) (k : Cursor) (e : OpenElement)
    (outer : List OpenElement) : Prop :=
  k.opened = e :: outer ∧ Tag.content settings.tags.isRawText e.key ≠ .parsable ∧
    ∀ a b, k.rest = a ++ b → ¬StartsEndTag e.key.toList b

theorem rawElement?_cons_iff {settings : Settings} {opened outer : List OpenElement}
    {content : Tag.Content} {e : OpenElement} :
    rawElement? settings opened = some (content, e, outer) ↔ opened = e :: outer ∧
      content = Tag.content settings.tags.isRawText e.key ∧ content ≠ .parsable := by
  cases opened with
  | nil => simp [rawElement?]
  | cons e' outer' =>
      simp only [rawElement?]
      split
      · rename_i hparsable
        refine iff_of_false (by simp) ?_
        rintro ⟨heq, rfl, hraw⟩
        obtain rfl := (List.cons.inj heq).1
        exact hraw hparsable
      · rename_i hraw
        simp only [Option.some.injEq, Prod.mk.injEq, List.cons.injEq]
        constructor
        · rintro ⟨rfl, rfl, rfl⟩
          exact ⟨⟨rfl, rfl⟩, rfl, hraw⟩
        · rintro ⟨⟨rfl, rfl⟩, rfl, -⟩
          exact ⟨rfl, rfl, rfl⟩

/-! ### Turns -/

/-- A turn of the loop: where it starts, what it brings up, whether it gives up, and where it
ends. -/
structure Turn where
  start : Cursor
  events : List Event
  gaveUp : Bool
  stop : Cursor

namespace Cursor

/-- The rest of the template is a text.  With no element left open this is reported. -/
def giveUp (k : Cursor) : List Event × Cursor :=
  let stop := k.offset + bytes k.rest
  (.token (.text (String.ofList k.rest) k.offset stop) ::
    (if k.opened = [] then [malformedEnd k.rest (.point stop)] else []), ⟨k.opened, stop, []⟩)

theorem tokens_giveUp (k : Cursor) : tokens k.giveUp.1 =
    [.text (String.ofList k.rest) k.offset (k.offset + bytes k.rest)] := by
  simp only [giveUp, tokens_token_cons]
  split <;> rfl

/-- One turn: reading gives up when it did not go on. -/
def turn (settings : Settings) (k : Cursor) : Turn :=
  let next := k.read settings
  if next.2.offset = k.offset then ⟨k, next.1 ++ next.2.giveUp.1, true, next.2.giveUp.2⟩
  else ⟨k, next.1, false, next.2⟩

@[simp] theorem start_turn (settings : Settings) (k : Cursor) : (k.turn settings).start = k := by
  simp only [turn]
  split <;> rfl

/-- A turn in a raw-text element whose end tag stands nowhere closes the element and takes the rest
of the template as a text. -/
theorem turn_of_unending {settings : Settings} {k : Cursor} {e : OpenElement}
    {outer : List OpenElement} (h : k.Unending settings e outer) :
    k.turn settings = ⟨k, closing k.offset k.offset e :: (giveUp { k with opened := outer }).1,
      true, (giveUp { k with opened := outer }).2⟩ := by
  obtain ⟨hopened, hcontent, hnone⟩ := h
  have hstays : k.read settings =
      ([closing k.offset k.offset e], { k with opened := outer }) := by
    rw [read, rawElement?_cons_iff.mpr ⟨hopened, rfl, hcontent⟩]
    simp only [readRawText, splitRawText?_eq_none_iff.mpr hnone]
  rw [turn, hstays]
  exact if_pos rfl

/-- Reading takes up some characters, but in a raw-text element whose end tag stands nowhere. -/
theorem passes_read {settings : Settings} {k : Cursor} (hrest : k.rest ≠ [])
    (hends : ∀ e outer, ¬k.Unending settings e outer) :
    ∃ a, a ≠ [] ∧ k.Passes a (k.read settings).2 := by
  cases hraw : rawElement? settings k.opened with
  | none =>
      rw [read, hraw]
      exact passes_readMarkup settings hrest
  | some found =>
      obtain ⟨content, e, outer⟩ := found
      obtain ⟨hopened, hcontent, hparsable⟩ := rawElement?_cons_iff.mp hraw
      rw [read, hraw]
      cases hsplit : splitRawText? e.key.toList k.rest with
      | none =>
          exact absurd ⟨hopened, hcontent ▸ hparsable, splitRawText?_eq_none_iff.mp hsplit⟩
            (hends e outer)
      | some parts => exact passes_readRawText content outer hsplit

/-- **What a turn does.**  It reads some characters, or it gives up in a raw-text element whose end
tag stands nowhere. -/
theorem turn_cases (settings : Settings) {k : Cursor} (hrest : k.rest ≠ []) :
    (∃ a, a ≠ [] ∧ k.Passes a (k.read settings).2 ∧ (∀ e outer, ¬k.Unending settings e outer) ∧
        k.turn settings = ⟨k, (k.read settings).1, false, (k.read settings).2⟩) ∨
      ∃ e outer, k.Unending settings e outer ∧
        k.turn settings = ⟨k, closing k.offset k.offset e :: (giveUp { k with opened := outer }).1,
          true, (giveUp { k with opened := outer }).2⟩ := by
  by_cases hends : ∃ e outer, k.Unending settings e outer
  · obtain ⟨e, outer, h⟩ := hends
    exact .inr ⟨e, outer, h, turn_of_unending h⟩
  · simp only [not_exists] at hends
    obtain ⟨a, ha, hpasses⟩ := passes_read hrest hends
    exact .inl ⟨a, ha, hpasses, hends, if_neg (Nat.ne_of_gt (hpasses.offset_lt ha))⟩

/-- Every turn takes up some characters. -/
theorem passes_turn (settings : Settings) {k : Cursor} (hrest : k.rest ≠ []) :
    ∃ a, a ≠ [] ∧ k.Passes a (k.turn settings).stop := by
  rcases turn_cases settings hrest with ⟨a, ha, hpasses, -, heq⟩ | ⟨e, outer, -, heq⟩
  · rw [heq]
    exact ⟨a, ha, hpasses⟩
  · rw [heq]
    exact ⟨k.rest, hrest, (List.append_nil k.rest).symm, rfl⟩

/-- A turn leaves less to read. -/
theorem length_turn (settings : Settings) {k : Cursor} (hrest : k.rest ≠ []) :
    (k.turn settings).stop.rest.length < k.rest.length := by
  obtain ⟨a, ha, hpasses⟩ := passes_turn settings hrest
  exact hpasses.length_lt ha

/-- A turn stays in the template. -/
theorem Inside.turn {template : String} {k : Cursor} (h : k.Inside template) (settings : Settings)
    (hrest : k.rest ≠ []) : (k.turn settings).stop.Inside template := by
  obtain ⟨a, -, hpasses⟩ := passes_turn settings hrest
  exact h.passes hpasses

end Cursor

/-- The turns of the loop from a state on, while there is something left to read. -/
def turns (settings : Settings) (k : Cursor) : List Turn :=
  if h : k.rest = [] then []
  else
    have := Cursor.length_turn settings h
    k.turn settings :: turns settings (k.turn settings).stop
termination_by k.rest.length
decreasing_by exact this

/-- The state behind some turns. -/
def afterTurns : Cursor → List Turn → Cursor
  | k, [] => k
  | _, t :: ts => afterTurns t.stop ts

theorem turns_of_rest_eq_nil {settings : Settings} {k : Cursor} (h : k.rest = []) :
    turns settings k = [] := by
  rw [turns, dif_pos h]

theorem turns_of_rest_ne_nil {settings : Settings} {k : Cursor} (h : k.rest ≠ []) :
    turns settings k = k.turn settings :: turns settings (k.turn settings).stop := by
  rw [turns, dif_neg h]

/-- One turn of reading that goes on is one step of the scan. -/
theorem scan_eq_read {settings : Settings} {k : Cursor} (hrest : k.rest ≠ [])
    (hends : ∀ e outer, ¬k.Unending settings e outer) :
    scan settings k.opened k.offset k.rest = (k.read settings).1 ++
      scan settings (k.read settings).2.opened (k.read settings).2.offset
        (k.read settings).2.rest := by
  obtain ⟨opened, offset, rest⟩ := k
  obtain ⟨c, s, rfl⟩ := List.exists_cons_of_ne_nil hrest
  cases hraw : rawElement? settings opened with
  | none =>
      simp only [Cursor.read, hraw, Cursor.readMarkup]
      exact scan_cons_of_piece hraw rfl offset
  | some found =>
      obtain ⟨content, e, outer⟩ := found
      obtain ⟨hopened, hcontent, hparsable⟩ := rawElement?_cons_iff.mp hraw
      cases hsplit : splitRawText? e.key.toList (c :: s) with
      | none =>
          exact absurd ⟨hopened, hcontent ▸ hparsable, splitRawText?_eq_none_iff.mp hsplit⟩
            (hends e outer)
      | some parts =>
          obtain ⟨body, endTag, r⟩ := parts
          simp only [Cursor.read, hraw, Cursor.readRawText, hsplit]
          rw [scan_cons_of_splitRawText? hraw hsplit offset]
          simp

/-- A turn that gives up is the end of the scan. -/
theorem scan_eq_giveUp {settings : Settings} {k : Cursor} {e : OpenElement}
    {outer : List OpenElement} (hrest : k.rest ≠ []) (h : k.Unending settings e outer) :
    scan settings k.opened k.offset k.rest =
      closing k.offset k.offset e :: (Cursor.giveUp { k with opened := outer }).1 ++
        closeAll (k.offset + bytes k.rest) outer := by
  obtain ⟨opened, offset, rest⟩ := k
  obtain ⟨c, s, rfl⟩ := List.exists_cons_of_ne_nil hrest
  obtain ⟨hopened, hcontent, hnone⟩ := h
  have hraw := rawElement?_cons_iff.mpr ⟨hopened, rfl, hcontent⟩
  rw [scan_cons_of_unclosed hraw (splitRawText?_eq_none_iff.mpr hnone)]
  simp [unclosedRawText, Cursor.giveUp]

/-- **The loop brings up the events** of the rest of the template. -/
theorem scan_eq_turns (settings : Settings) (k : Cursor) :
    scan settings k.opened k.offset k.rest = (turns settings k).flatMap Turn.events ++
      closeAll (afterTurns k (turns settings k)).offset
        (afterTurns k (turns settings k)).opened := by
  fun_induction turns settings k with
  | case1 k hnil =>
      rw [hnil, scan]
      rfl
  | case2 k hrest hlength ih =>
      rw [afterTurns, List.flatMap_cons, List.append_assoc, ← ih]
      rcases Cursor.turn_cases settings hrest with
        ⟨a, -, -, hends, heq⟩ | ⟨e, outer, hunending, heq⟩
      · rw [heq, scan_eq_read hrest hends]
      · rw [heq, scan_eq_giveUp hrest hunending]
        simp [Cursor.giveUp, scan]

/-! ### Templates -/

/-- What holds of every turn that starts in the template holds of all its turns. -/
theorem forall_turns {settings : Settings} {template : String} {motive : Turn → Prop}
    (hturn : ∀ k : Cursor, k.Inside template → k.rest ≠ [] → motive (k.turn settings))
    {k : Cursor} (hinside : k.Inside template) : ∀ t ∈ turns settings k, motive t := by
  fun_induction turns settings k with
  | case1 => simp
  | case2 k hrest hlength ih =>
      intro t ht
      rcases List.mem_cons.mp ht with rfl | ht
      · exact hturn k hinside hrest
      · exact ih (hinside.turn settings hrest) t ht

/-- The loop ends at the end of the template. -/
theorem offset_afterTurns {settings : Settings} {template : String} {k : Cursor}
    (hinside : k.Inside template) :
    (afterTurns k (turns settings k)).offset = bytes template.toList := by
  fun_induction turns settings k with
  | case1 k hnil =>
      have hoffset := hinside.offset_add
      rw [hnil] at hoffset
      exact hoffset
  | case2 k hrest hlength ih =>
      rw [afterTurns]
      exact ih (hinside.turn settings hrest)

/-- A turn that gives up is the last one. -/
theorem turns_eq_nil_of_gaveUp {settings : Settings} {k : Cursor} (hrest : k.rest ≠ [])
    (hgave : (k.turn settings).gaveUp = true) : turns settings (k.turn settings).stop = [] := by
  rcases Cursor.turn_cases settings hrest with ⟨a, -, -, -, heq⟩ | ⟨e, outer, -, heq⟩
  · simp [heq] at hgave
  · rw [heq]
    exact turns_of_rest_eq_nil rfl

theorem eq_nil_of_gaveUp {settings : Settings} {k : Cursor} {before after : List Turn} {t : Turn}
    (hturns : turns settings k = before ++ t :: after) (hgave : t.gaveUp = true) : after = [] := by
  induction before generalizing k with
  | nil =>
      have hrest : k.rest ≠ [] := fun hnil => by simp [turns_of_rest_eq_nil hnil] at hturns
      rw [turns_of_rest_ne_nil hrest] at hturns
      obtain ⟨rfl, rfl⟩ := List.cons.inj hturns
      exact turns_eq_nil_of_gaveUp hrest hgave
  | cons t' before ih =>
      have hrest : k.rest ≠ [] := fun hnil => by simp [turns_of_rest_eq_nil hnil] at hturns
      rw [turns_of_rest_ne_nil hrest] at hturns
      exact ih (List.cons.inj hturns).2

/-- At most one turn gives up. -/
theorem length_filter_gaveUp (settings : Settings) (k : Cursor) :
    ((turns settings k).filter Turn.gaveUp).length ≤ 1 := by
  fun_induction turns settings k with
  | case1 => simp
  | case2 k hrest hlength ih =>
      by_cases hgave : (k.turn settings).gaveUp = true
      · simp [hgave, turns_eq_nil_of_gaveUp hrest hgave]
      · simpa [hgave] using ih

/-- **How reading a template goes on.** -/
structure Proceeds (settings : Settings) (template : String) : Prop where
  /-- Reading markup goes on from every place before the end, whatever elements are open, and stays
  in the template. -/
  markup : ∀ k : Cursor, k.Inside template → k.offset < bytes template.toList →
    (k.readMarkup settings).2.Inside template ∧ k.offset < (k.readMarkup settings).2.offset ∧
      (k.readMarkup settings).2.offset ≤ bytes template.toList
  /-- The events of the template are those of the turns, and then all that is open is closed. -/
  events_eq : events settings template =
    (turns settings (.start template)).flatMap Turn.events ++
      closeAll (bytes template.toList)
        (afterTurns (.start template) (turns settings (.start template))).opened
  /-- Every turn starts between two characters of the template. -/
  inside : ∀ t ∈ turns settings (.start template), t.start.Inside template
  /-- A turn gives up exactly in a raw-text element whose end tag stands nowhere in the rest. -/
  gaveUp_iff : ∀ t ∈ turns settings (.start template),
    t.gaveUp = true ↔ ∃ e outer, t.start.Unending settings e outer
  /-- At most one turn gives up. -/
  once : ((turns settings (.start template)).filter Turn.gaveUp).length ≤ 1
  /-- It closes this element and takes all that is left as one text, and it is the last turn. -/
  rest_eq : ∀ before t after, turns settings (.start template) = before ++ t :: after →
    ∀ e outer, t.start.Unending settings e outer →
      tokens t.events = [.endTag e.name t.start.offset t.start.offset,
        .text (String.ofList t.start.rest) t.start.offset (bytes template.toList)] ∧
      t.stop.opened = outer ∧ after = []

/-- **Reading goes on**, up to the one turn that may give up. -/
theorem proceeds_turns (settings : Settings) (template : String) : Proceeds settings template where
  markup := by
    intro k hinside hoffset
    have hrest : k.rest ≠ [] := fun hnil => by
      have hadd := hinside.offset_add
      rw [hnil, bytes_nil] at hadd
      omega
    obtain ⟨a, ha, hpasses⟩ := Cursor.passes_readMarkup settings hrest
    have hstop := hinside.passes hpasses
    have hadd := hstop.offset_add
    exact ⟨hstop, hpasses.offset_lt ha, by omega⟩
  events_eq := by
    have hevents := scan_eq_turns settings (.start template)
    rw [offset_afterTurns (Cursor.inside_start template)] at hevents
    exact hevents
  inside := by
    refine forall_turns (fun k hinside _ => ?_) (Cursor.inside_start template)
    rwa [Cursor.start_turn]
  gaveUp_iff := by
    refine forall_turns (fun k _ hrest => ?_) (Cursor.inside_start template)
    rcases Cursor.turn_cases settings hrest with ⟨a, -, -, hends, heq⟩ | ⟨e, outer, hunending, heq⟩
    · rw [heq]
      refine iff_of_false (by simp) ?_
      rintro ⟨e, outer, h⟩
      exact hends e outer h
    · rw [heq]
      exact iff_of_true rfl ⟨e, outer, hunending⟩
  once := length_filter_gaveUp settings (.start template)
  rest_eq := by
    have hgives : ∀ t ∈ turns settings (.start template), ∀ e outer,
        t.start.Unending settings e outer → t.gaveUp = true ∧
          tokens t.events = [.endTag e.name t.start.offset t.start.offset,
            .text (String.ofList t.start.rest) t.start.offset (bytes template.toList)] ∧
          t.stop.opened = outer := by
      refine forall_turns (fun k hinside hrest e outer hunending => ?_)
        (Cursor.inside_start template)
      rw [Cursor.start_turn] at hunending
      rw [Cursor.turn_of_unending hunending]
      refine ⟨rfl, ?_, rfl⟩
      rw [closing, tokens_token_cons, Cursor.tokens_giveUp, hinside.offset_add]
    intro before t after hturns e outer hunending
    obtain ⟨hgave, htokens, hopened⟩ := hgives t (by simp [hturns]) e outer hunending
    exact ⟨htokens, hopened, eq_nil_of_gaveUp hturns hgave⟩

example : (turns .web (.start "<p>a<script>b</p>")).map Turn.gaveUp =
    [false, false, false, true] := by decide +kernel

end Templating.Markup
