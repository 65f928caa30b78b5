import Mathlib.Data.List.Forall2
import Templating.Proofs.Markup.Nesting
import Templating.Proofs.Markup.Reports
import Templating.Proofs.Markup.RoundTrip

/-!
**The places of attributes.**

Where places are recorded, an attribute of a start tag knows the bytes it comes from.  They start
with its name and go up to the end of its value, and only spaces stand between two attributes and in
front of the first one.  Recording the places changes nothing else.

Main definitions:

* `Templating.Markup.Spaced`, `Templating.Markup.WrittenAt` — two places with only spaces between
  them, and an attribute that is written at a place;
* `Templating.Markup.AttributePlaces` — the places of the attributes of a start tag;
* `Templating.Markup.FromSource` — a start tag that stands in the template;
* `Templating.Markup.Event.unplaced` — an event without the places of attributes.

Main results:

* `Templating.Markup.exists_places` — the attributes of a start tag are placed one behind the other;
* `Templating.Markup.fromSource_scan` — every start tag with attributes stands in the template;
* `Templating.Markup.scan_unplaced` — recording places adds the places of attributes only;
* `Templating.Markup.attributesExact_events` — **the places of attributes are exact**.
-/

set_option autoImplicit false

namespace Templating.Markup

open Text

/-! ### Attributes as they are written -/

/-- An attribute is read with only spaces in front of its name. -/
theorem isBlank_lead_of_attribute? {s r : List Char} {a : RawAttribute}
    (h : attribute? s = some (a, r)) : isBlank a.lead = true := by
  have hspaces : isBlank (s.takeWhile isSpace) = true := List.all_takeWhile
  unfold attribute? at h
  dsimp only at h
  split at h
  · cases h
  · split at h
    · cases h
      exact hspaces
    · cases h
      exact hspaces

/-- The attributes of a start tag have names, with only spaces in front of them. -/
theorem forall_of_attributes? {s e r : List Char} {l : List RawAttribute} {slash : Bool}
    (h : attributes? s = some (l, e, slash, r)) : ∀ a ∈ l, isBlank a.lead = true ∧ a.name ≠ [] := by
  fun_induction attributes? s generalizing l with
  | case1 =>
      cases h
      simp
  | case2 => cases h
  | case3 s _ a r' ha _ ih =>
      obtain ⟨⟨l', rest⟩, hp, heq⟩ := Option.map_eq_some_iff.mp h
      cases heq
      intro a' ha'
      rcases List.mem_cons.mp ha' with rfl | ha'
      · exact ⟨isBlank_lead_of_attribute? ha, attribute?_name_ne_nil ha⟩
      · exact ih hp a' ha'

theorem forall_of_startTag? {s r : List Char} {tag : RawStartTag}
    (h : startTag? s = some (tag, r)) :
    (∀ a ∈ tag.attributes, isBlank a.lead = true ∧ a.name ≠ []) ∧ tag.tagEnd ≠ [] := by
  cases s with
  | nil => simp [startTag?] at h
  | cons c s =>
      simp only [startTag?] at h
      split at h
      · split at h
        · cases h
        · obtain ⟨⟨l, e, slash, r'⟩, hattributes, heq⟩ := Option.map_eq_some_iff.mp h
          cases heq
          exact ⟨forall_of_attributes? hattributes, (append_of_attributes? hattributes).2⟩
      · cases h

/-! ### Places -/

/-- A place follows another with only spaces between them. -/
def Spaced (source : List Char) (p q : Nat × Nat) : Prop :=
  p.2 ≤ q.1 ∧ ∃ gap, slice? source p.2 q.1 = some gap ∧ isBlank gap = true

/-- An attribute is written at a place: it starts with the name. -/
def WrittenAt (source : List Char) (a : Attribute) (p : Nat × Nat) : Prop :=
  a.range = some p ∧ p.1 < p.2 ∧
    ∃ assignment, slice? source p.1 p.2 = some (a.name.toList ++ assignment)

/-- **The places of the attributes** of a start tag with the given name and place. -/
structure AttributePlaces (source : List Char) (name : String) (attributes : List Attribute)
    (start stop : Nat) (places : List (Nat × Nat)) : Prop where
  /-- A start tag with attributes starts with its name. -/
  name_eq : attributes ≠ [] →
    slice? source start (start + bytes ('<' :: name.toList)) = some ('<' :: name.toList)
  /-- Each attribute is written at its place. -/
  written : List.Forall₂ (WrittenAt source) attributes places
  /-- The places follow each other and the name, with only spaces between them. -/
  spaced : ((start, start + bytes ('<' :: name.toList)) :: places).IsChain (Spaced source)
  /-- They are inside the start tag. -/
  within : ∀ p ∈ places, start < p.1 ∧ p.2 < stop

/-- A start tag without attributes. -/
theorem AttributePlaces.nil (source : List Char) (name : String) (start stop : Nat) :
    AttributePlaces source name [] start stop [] where
  name_eq := absurd rfl
  written := .nil
  spaced := List.isChain_singleton _
  within := by simp

/-- **Attributes are placed one behind the other**, from the place where the first one is
written. -/
theorem exists_places {settings : Settings} (hranges : settings.sourceRanges = true) (tag : String)
    (l : List RawAttribute) (hl : ∀ a ∈ l, isBlank a.lead = true ∧ a.name ≠ [])
    {source front rest : List Char}
    (hsource : source = front ++ l.flatMap RawAttribute.source ++ rest) (start : Nat) :
    ∃ places,
      List.Forall₂ (WrittenAt source) (placeAttributes settings tag (bytes front) l) places ∧
      ((start, bytes front) :: places).IsChain (Spaced source) ∧
      ∀ p ∈ places, bytes front ≤ p.1 ∧
        p.2 ≤ bytes front + bytes (l.flatMap RawAttribute.source) := by
  induction l generalizing front start with
  | nil => exact ⟨[], .nil, List.isChain_singleton _, by simp⟩
  | cons a l ih =>
      obtain ⟨⟨hlead, hname⟩, hl⟩ := List.forall_mem_cons.mp hl
      have hnext : source = front ++ a.source ++ l.flatMap RawAttribute.source ++ rest := by
        simp [hsource]
      obtain ⟨places, hwritten, hspaced, hwithin⟩ := ih hl hnext (bytes front + bytes a.lead)
      rw [bytes_append] at hwritten hspaced hwithin
      have hpos : bytes a.name ≠ 0 := fun hzero => hname (bytes_eq_zero_iff.mp hzero)
      have hbytes : bytes a.source = bytes a.lead + (bytes a.name + bytes a.assignment) := by
        simp only [RawAttribute.source, bytes_append, Nat.add_assoc]
      have hgap : slice? source (bytes front) (bytes front + bytes a.lead) = some a.lead :=
        slice?_eq_some_iff.mpr ⟨front,
          a.name ++ a.assignment ++ l.flatMap RawAttribute.source ++ rest,
          by simp [hsource, RawAttribute.source], rfl, rfl⟩
      have hplace : slice? source (bytes front + bytes a.lead) (bytes front + bytes a.source) =
          some (a.name ++ a.assignment) :=
        slice?_eq_some_iff.mpr ⟨front ++ a.lead, l.flatMap RawAttribute.source ++ rest,
          by simp [hsource, RawAttribute.source], bytes_append front a.lead, by
            rw [bytes_append, bytes_append, hbytes, Nat.add_assoc]⟩
      refine ⟨(bytes front + bytes a.lead, bytes front + bytes a.source) :: places,
        .cons ⟨?_, ?_, a.assignment, ?_⟩ hwritten, ?_, ?_⟩
      · simp [hranges]
      · dsimp only
        omega
      · rw [String.toList_ofList]
        exact hplace
      · exact List.isChain_cons_cons.mpr
          ⟨⟨Nat.le_add_right _ _, a.lead, hgap, hlead⟩, hspaced⟩
      · intro p hp
        rw [List.flatMap_cons, bytes_append]
        rcases List.mem_cons.mp hp with rfl | hp
        · dsimp only
          omega
        · have := hwithin p hp
          omega

/-! ### Start tags and the template -/

/-- A start tag has no attributes, or it was read at its place in the template. -/
def FromSource (settings : Settings) (source : List Char) : Token → Prop
  | .startTag name attributes _ start stop =>
      attributes = [] ∨ ∃ front tag r,
        source = front ++ (tag.source ++ r) ∧ bytes front = start ∧
        startTag? (tag.source ++ r) = some (tag, r) ∧ name = String.ofList tag.name ∧
        stop = start + bytes tag.source ∧
        attributes = placeAttributes settings name (start + bytes ('<' :: tag.name)) tag.attributes
  | _ => True

variable {settings : Settings} {source : List Char}

/-- Only start tags have attributes. -/
theorem fromSource_of_opens? {t : Token} (h : t.opens? = none) : FromSource settings source t := by
  cases t with
  | startTag name attributes unary start stop => cases h
  | endTag | text | comment | doctype => trivial

/-- Closing elements brings up no attributes. -/
theorem fromSource_of_isBare {t : Token} (h : (Event.token t).IsBare) :
    FromSource settings source t := by
  cases t with
  | startTag name attributes unary start stop => exact .inl h
  | endTag | text | comment | doctype => trivial

theorem mem_tokens {t : Token} {es : List Event} : t ∈ tokens es ↔ .token t ∈ es := by
  simp only [tokens, List.mem_filterMap]
  constructor
  · rintro ⟨x, hx, hxt⟩
    cases x with
    | token t' => exact Option.some.inj hxt ▸ hx
    | problem d => cases hxt
  · exact fun h => ⟨_, h, rfl⟩

/-- **The start tag of a piece** stands where the piece was read. -/
theorem fromSource_emit (settings : Settings) (front : List Char) {c : Char} {s r : List Char}
    {p : Piece} (hpiece : piece c s = (p, r)) (last : Bool) (opened : List OpenElement) :
    ∀ t ∈ tokens (emit settings p (bytes front) (bytes front + bytes p.source) last opened).1,
      FromSource settings (front ++ c :: s) t := by
  cases p with
  | comment body =>
      simp only [emit]
      split <;> simp [FromSource]
  | conditional body => simp [emit]
  | doctype body => simp [emit, FromSource]
  | endTag name tail =>
      exact fun t ht => fromSource_of_isBare (isBare_closeNamed (mem_tokens.mp ht))
  | text body =>
      simp only [emit, tokens_token_cons]
      split <;> simp [FromSource, malformedEnd]
  | startTag tag =>
      have happend : c :: s = tag.source ++ r := append_of_piece hpiece
      have htag := startTag?_of_piece hpiece
      rw [happend] at htag ⊢
      intro t ht
      simp only [emit, openTag, tokens_append, List.mem_append] at ht
      rcases ht with ht | ht
      · exact fromSource_of_isBare (isBare_closeImplied (mem_tokens.mp ht))
      · obtain rfl := List.mem_singleton.mp ht
        exact .inr ⟨front, tag, r, rfl, rfl, htag, rfl, rfl, rfl⟩

/-- **Every start tag with attributes stands in the template.** -/
theorem fromSource_scan (opened : List OpenElement) (offset : Nat) (rest : List Char) :
    ∀ front, source = front ++ rest → bytes front = offset →
      ∀ t ∈ tokens (scan settings opened offset rest), FromSource settings source t := by
  fun_induction scan settings opened offset rest with
  | case1 opened offset =>
      intro _ _ _ t ht
      exact fromSource_of_opens? (opens?_closeAll offset opened t ht)
  | case2 opened offset c s _ p r hpiece _ _ stop emitted dropped ih =>
      intro front hsource hfront
      obtain ⟨a, ha, hbytes⟩ := exists_append_dropLineFeed (dropsLineFeed p) r
      rw [tokens_append]
      refine List.forall_mem_append.mpr ⟨?_, ih (front ++ p.source ++ a) ?_ ?_⟩
      · have hemit := fromSource_emit settings front hpiece r.isEmpty opened
        rwa [hfront, ← hsource] at hemit
      · rw [hsource, append_of_piece hpiece, List.append_assoc, List.append_assoc, ← ha]
      · rw [bytes_append, bytes_append, hfront, hbytes]
  | case3 opened offset c s content e outer _ _ =>
      intro _ _ _ t ht
      exact fromSource_of_opens? (opens?_unclosedRawText e outer offset (c :: s) t ht)
  | case4 opened offset c s content e outer _ body endTag r hsplit _ bodyEnd stop ih =>
      intro front hsource hfront
      rw [tokens_append, closing, tokens_token_cons]
      refine List.forall_mem_append.mpr ⟨fun t ht => ?_, List.forall_mem_cons.mpr ⟨trivial, ?_⟩⟩
      · exact fromSource_of_opens? (opens?_rawTextEvents content e offset bodyEnd body t ht)
      · refine ih (front ++ body ++ endTag) ?_ ?_
        · rw [hsource, (append_of_splitRawText? hsplit).1]
          simp
        · rw [bytes_append, bytes_append, hfront]

/-- The places of the attributes of a start tag that stands in the template. -/
theorem FromSource.exists_attributePlaces (hranges : settings.sourceRanges = true) {name : String}
    {attributes : List Attribute} {unary : Bool} {start stop : Nat}
    (h : FromSource settings source (.startTag name attributes unary start stop)) :
    ∃ places, AttributePlaces source name attributes start stop places := by
  rcases h with rfl | ⟨front, tag, r, hsource, rfl, htag, rfl, rfl, rfl⟩
  · exact ⟨[], .nil source name start stop⟩
  · obtain ⟨hattributes, hend⟩ := forall_of_startTag? htag
    have hpos : bytes tag.tagEnd ≠ 0 := fun hzero => hend (bytes_eq_zero_iff.mp hzero)
    have hparts : source = (front ++ '<' :: tag.name) ++
        tag.attributes.flatMap RawAttribute.source ++ (tag.tagEnd ++ r) := by
      simp [hsource, RawStartTag.source]
    obtain ⟨places, hwritten, hspaced, hwithin⟩ := exists_places hranges (String.ofList tag.name)
      tag.attributes hattributes hparts (bytes front)
    rw [bytes_append] at hwritten hspaced hwithin
    refine ⟨places, fun _ => ?_, hwritten, ?_, fun p hp => ?_⟩
    · rw [String.toList_ofList, slice?_eq_some_iff]
      exact ⟨front, _, hparts.trans (List.append_assoc _ _ _), rfl, rfl⟩
    · rwa [String.toList_ofList]
    · have hplace := hwithin p hp
      have hbytes : bytes tag.source = bytes ('<' :: tag.name) +
          bytes (tag.attributes.flatMap RawAttribute.source) + bytes tag.tagEnd := by
        simp [RawStartTag.source, Nat.add_assoc]
      have hname := Char.utf8Size_pos '<'
      rw [bytes_cons] at hplace hbytes
      omega

/-! ### Places that are not recorded -/

/-- An attribute without its place. -/
def Attribute.unplaced (a : Attribute) : Attribute := { a with range := none }

/-- A token without the places of its attributes. -/
def Token.unplaced : Token → Token
  | .startTag name attributes unary start stop =>
      .startTag name (attributes.map Attribute.unplaced) unary start stop
  | .endTag name start stop => .endTag name start stop
  | .text s start stop => .text s start stop
  | .comment s start stop => .comment s start stop
  | .doctype s start stop => .doctype s start stop

/-- An event without the places of attributes. -/
def Event.unplaced : Event → Event
  | .token t => .token t.unplaced
  | .problem d => .problem d

/-- Events without attributes stay as they are. -/
theorem map_unplaced_of_isBare {es : List Event} (h : ∀ x ∈ es, x.IsBare) :
    es.map Event.unplaced = es := by
  refine (List.map_congr_left fun x hx => ?_).trans (List.map_id' es)
  have hbare := h x hx
  cases x with
  | problem d => rfl
  | token t =>
      cases t with
      | startTag name attributes unary start stop =>
          obtain rfl : attributes = [] := hbare
          rfl
      | endTag | text | comment | doctype => rfl

theorem closeAll_unplaced (offset : Nat) (opened : List OpenElement) :
    (closeAll offset opened).map Event.unplaced = closeAll offset opened :=
  map_unplaced_of_isBare fun _ => isBare_closeEach

/-- Attributes whose places are not recorded. -/
theorem placeAttributes_unplaced (settings : Settings) (tag : String) (offset : Nat)
    (l : List RawAttribute) :
    placeAttributes { settings with sourceRanges := false } tag offset l =
      (placeAttributes { settings with sourceRanges := true } tag offset l).map
        Attribute.unplaced := by
  induction l generalizing offset with
  | nil => rfl
  | cons a l ih =>
      simp only [placeAttributes, List.map_cons, ih]
      rfl

/-- The events of a piece, without and with the places of attributes. -/
theorem emit_unplaced (settings : Settings) (p : Piece) (start stop : Nat) (last : Bool)
    (opened : List OpenElement) :
    emit { settings with sourceRanges := false } p start stop last opened =
      ((emit { settings with sourceRanges := true } p start stop last opened).1.map Event.unplaced,
        (emit { settings with sourceRanges := true } p start stop last opened).2) := by
  cases p with
  | comment body =>
      simp only [emit]
      split <;> rfl
  | conditional body => rfl
  | doctype body => rfl
  | endTag name tail =>
      simp only [emit]
      rw [map_unplaced_of_isBare fun _ => isBare_closeNamed]
  | text body =>
      simp only [emit]
      split <;> rfl
  | startTag tag =>
      have himplied : ((closeImplied settings (String.ofList tag.name) stop opened).1).map
          Event.unplaced = (closeImplied settings (String.ofList tag.name) stop opened).1 :=
        map_unplaced_of_isBare fun _ => isBare_closeImplied
      simp only [emit, openTag, List.map_append, placeAttributes_unplaced]
      exact Prod.ext (congrArg (· ++ _) himplied.symm) rfl

theorem rawTextEvents_unplaced (content : Tag.Content) (e : OpenElement) (start stop : Nat)
    (body : List Char) : (rawTextEvents content e start stop body).map Event.unplaced =
      rawTextEvents content e start stop body := by
  unfold rawTextEvents
  dsimp only
  generalize (if content = .rawText then unwrapMarks body else body) = kept
  split <;> rfl

theorem unclosedRawText_unplaced (e : OpenElement) (outer : List OpenElement) (start : Nat)
    (rest : List Char) : (unclosedRawText e outer start rest).map Event.unplaced =
      unclosedRawText e outer start rest := by
  simp only [unclosedRawText, List.map_append, closeAll_unplaced]
  split <;> rfl

/-- **Recording places adds the places of attributes** and nothing else. -/
theorem scan_unplaced (settings : Settings) (opened : List OpenElement) (offset : Nat)
    (rest : List Char) :
    scan { settings with sourceRanges := false } opened offset rest =
      (scan { settings with sourceRanges := true } opened offset rest).map Event.unplaced := by
  fun_induction scan { settings with sourceRanges := true } opened offset rest with
  | case1 opened offset => rw [scan, closeAll_unplaced]
  | case2 opened offset c s hraw p r hpiece _ _ stop emitted dropped ih =>
      have hraw' : rawElement? { settings with sourceRanges := false } opened = none := hraw
      rw [scan_cons_of_piece hraw' hpiece, List.map_append, ← ih, emit_unplaced]
  | case3 opened offset c s content e outer hraw hsplit =>
      have hraw' : rawElement? { settings with sourceRanges := false } opened =
        some (content, e, outer) := hraw
      rw [scan_cons_of_unclosed hraw' hsplit, unclosedRawText_unplaced]
  | case4 opened offset c s content e outer hraw body endTag r hsplit _ bodyEnd stop ih =>
      have hraw' : rawElement? { settings with sourceRanges := false } opened =
        some (content, e, outer) := hraw
      rw [scan_cons_of_splitRawText? hraw' hsplit, List.map_append, List.map_cons, ← ih,
        rawTextEvents_unplaced]
      rfl

/-! ### Templates -/

/-- **What the places of attributes are.** -/
structure AttributesExact (settings : Settings) (template : String) : Prop where
  /-- Where places are recorded, the attributes of every start tag have theirs. -/
  placed : ∀ name attributes unary start stop,
    Token.startTag name attributes unary start stop ∈
        tokens (events { settings with sourceRanges := true } template) →
      ∃ places, AttributePlaces template.toList name attributes start stop places
  /-- Otherwise there are the same events without these places. -/
  unplaced : events { settings with sourceRanges := false } template =
    (events { settings with sourceRanges := true } template).map Event.unplaced

/-- **The places of attributes are exact.** -/
theorem attributesExact_events (settings : Settings) (template : String) :
    AttributesExact settings template where
  placed := by
    intro name attributes unary start stop ht
    exact (fromSource_scan [] 0 template.toList [] rfl rfl _ ht).exists_attributePlaces rfl
  unplaced := scan_unplaced settings [] 0 template.toList

example : tokens (events { sourceRanges := true } "<p  é='b' :[c d]>") =
    [.startTag "p" [⟨"é", "b", some (4, 10)⟩, ⟨":[c d]", "", some (11, 17)⟩] false 0 18,
      .endTag "p" 18 18] := by decide +kernel

end Templating.Markup
