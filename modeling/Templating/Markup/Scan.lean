import Templating.Entity
import Templating.Markup.Piece
import Templating.Markup.RawText
import Templating.Markup.Token
import Templating.Settings
import Templating.Tag.Content

/-!
**Reading a template into events.**

A template is read from left to right, with the elements that are open at hand.  Nothing stops the
reading: what is no markup becomes text, and every element that was opened is closed in the end.

Main definitions:

* `Templating.Markup.OpenElement` — an element that is open;
* `Templating.Markup.closeNamed`, `Templating.Markup.closeAll` — what an end tag closes, and what
  the end of the template closes;
* `Templating.Markup.emit` — the events of a piece;
* `Templating.Markup.scan` — the events of the rest of a template;
* `Templating.Markup.events` — the events of a template.
-/

set_option autoImplicit false

namespace Templating.Markup

open Text

/-- An element that is open, with the place of its start tag. -/
structure OpenElement where
  name : String
  /-- The lower-case form of the name, by which end tags find the element. -/
  key : String
  start : Nat
  stop : Nat
  deriving Repr, DecidableEq

/-! ### Closing elements -/

/-- An element has no end tag of its own. -/
def missingEndTag (problem : Problem) (e : OpenElement) : Event :=
  .problem ⟨problem, "tag <" ++ e.name ++ "> has no matching end tag.",
    some (.between e.start e.stop)⟩

/-- The end of an element, with the place that ends it. -/
def closing (start stop : Nat) (e : OpenElement) : Event := .token (.endTag e.name start stop)

/-- The end of the template closes every open element; `opened` has the innermost one first. -/
def closeAll (offset : Nat) (opened : List OpenElement) : List Event :=
  opened.flatMap fun e => [missingEndTag .unclosedTag e, closing offset offset e]

/-- An end tag closes the innermost open element of its name and everything inside it.  Without
such an element, an end tag of a line break stands for a line break and one of a paragraph for an
empty paragraph; any other is dropped. -/
def closeNamed (name : String) (start stop : Nat) (opened : List OpenElement) :
    List Event × List OpenElement :=
  let key := lowerString name
  let inner := opened.takeWhile (·.key != key)
  match opened.dropWhile (·.key != key) with
  | e :: outer =>
      (inner.flatMap (fun e => [missingEndTag .unmatchedEndTag e, closing start stop e]) ++
        [closing start stop e], outer)
  | [] =>
      if key = "br" then ([.token (.startTag name [] true start stop)], opened)
      else if key = "p" then
        ([.token (.startTag name [] false start stop), .token (.endTag name start stop)], opened)
      else ([], opened)

/-! ### Start tags -/

/-- The name of the innermost open element. -/
def innermost? (opened : List OpenElement) : Option String := opened.head?.map (·.name)

/-- The elements that a start tag closes under the rules of HTML: an open paragraph in front of
block content, and an open neighbour of the same name that may be left open. -/
def closeImplied (settings : Settings) (name : String) (offset : Nat)
    (opened : List OpenElement) : List Event × List OpenElement :=
  if settings.expectHtml then
    let first :=
      if innermost? opened = some "p" ∧ settings.tags.isNonPhrasing name then
        closeNamed "p" offset offset opened
      else ([], opened)
    let second :=
      if settings.tags.canBeLeftOpen name ∧ innermost? first.2 = some name then
        closeNamed name offset offset first.2
      else ([], first.2)
    (first.1 ++ second.1, second.2)
  else ([], opened)

/-- The attributes of a start tag named `tag`, the first of them written at `offset`. -/
def placeAttributes (settings : Settings) (tag : String) :
    (offset : Nat) → List RawAttribute → List Attribute
  | _, [] => []
  | offset, a :: rest =>
      let name := String.ofList a.name
      let newlines :=
        if tag = "a" ∧ name = "href" then settings.decodeNewlinesForHref
        else settings.decodeNewlines
      let stop := offset + bytes a.source
      { name
        value := String.ofList (Entity.decode newlines a.value)
        range := if settings.sourceRanges then some (offset + bytes a.lead, stop) else none } ::
        placeAttributes settings tag stop rest

/-- The events of a start tag, and the elements open after it. -/
def openTag (settings : Settings) (tag : RawStartTag) (start stop : Nat)
    (opened : List OpenElement) : List Event × List OpenElement :=
  let name := String.ofList tag.name
  let implied := closeImplied settings name stop opened
  let unary := settings.tags.isUnary name || tag.selfClosing
  let attributes :=
    placeAttributes settings name (start + bytes ('<' :: tag.name)) tag.attributes
  let opened :=
    if unary then implied.2 else ⟨name, lowerString name, start, stop⟩ :: implied.2
  (implied.1 ++ [.token (.startTag name attributes unary start stop)], opened)

/-! ### Pieces -/

/-- The template ends in something that looks like markup and is none. -/
def malformedEnd (text : List Char) (span : Span) : Event :=
  .problem ⟨.malformedTag,
    "Mal-formatted tag at end of template: \"" ++ String.ofList text ++ "\"", some span⟩

/-- The events of a piece, and the elements open after it.  `last` says that nothing follows. -/
def emit (settings : Settings) (piece : Piece) (start stop : Nat) (last : Bool)
    (opened : List OpenElement) : List Event × List OpenElement :=
  match piece with
  | .comment body =>
      (if settings.keepComments then [.token (.comment (String.ofList body) start stop)] else [],
        opened)
  | .conditional _ => ([], opened)
  | .doctype source => ([.token (.doctype (String.ofList source) start stop)], opened)
  | .endTag name _ => closeNamed (String.ofList name) start stop opened
  | .startTag tag => openTag settings tag start stop opened
  | .text source =>
      (.token (.text (String.ofList source) start stop) ::
        (if last && source.head? == some '<' then
          [malformedEnd source (.between start stop)] else []), opened)

/-- Whether a line feed right after a piece is dropped. -/
def dropsLineFeed : Piece → Bool
  | .startTag tag => Tag.ignoresFirstLineFeed (String.ofList tag.name)
  | _ => false

/-- The text after a line feed that is to be dropped, and the number of bytes dropped. -/
def dropLineFeed (drops : Bool) : List Char → Nat × List Char
  | [] => (0, [])
  | c :: s => if drops && c == '\n' then (1, s) else (0, c :: s)

/-- What is left is no longer than before. -/
theorem length_dropLineFeed (drops : Bool) (s : List Char) :
    (dropLineFeed drops s).2.length ≤ s.length := by
  cases s with
  | nil => simp [dropLineFeed]
  | cons c s => simp only [dropLineFeed]; split <;> simp

/-! ### Raw text -/

/-- The events of the content of a raw-text element, up to `stop`. -/
def rawTextEvents (content : Tag.Content) (e : OpenElement) (start stop : Nat)
    (body : List Char) : List Event :=
  let body := if content = .rawText then unwrapMarks body else body
  let dropped := dropLineFeed (Tag.ignoresFirstLineFeed e.key) body
  if dropped.2 = [] then []
  else [.token (.text (String.ofList dropped.2) (start + dropped.1) stop)]

/-- The innermost open element with its way of reading content, when that is raw, and the elements
around it. -/
def rawElement? (settings : Settings) :
    List OpenElement → Option (Tag.Content × OpenElement × List OpenElement)
  | [] => none
  | e :: outer =>
      let content := Tag.content settings.tags.isRawText e.key
      if content = .parsable then none else some (content, e, outer)

/-- A raw-text element that is never closed: it ends where its content starts, and the rest of the
template is text. -/
def unclosedRawText (e : OpenElement) (outer : List OpenElement) (start : Nat)
    (rest : List Char) : List Event :=
  let stop := start + bytes rest
  [closing start start e, .token (.text (String.ofList rest) start stop)] ++
    (if outer = [] then [malformedEnd rest (.point stop)] else []) ++ closeAll stop outer

/-! ### The whole template -/

/-- The events of the rest of a template that starts at byte `offset`, with the elements `opened`,
innermost first. -/
def scan (settings : Settings) (opened : List OpenElement) (offset : Nat) (rest : List Char) :
    List Event :=
  match rest with
  | [] => closeAll offset opened
  | c :: s =>
      match rawElement? settings opened with
      | none =>
          match h : piece c s with
          | (p, r) =>
              have := length_of_piece h
              have := length_dropLineFeed (dropsLineFeed p) r
              let stop := offset + bytes p.source
              let emitted := emit settings p offset stop r.isEmpty opened
              let dropped := dropLineFeed (dropsLineFeed p) r
              emitted.1 ++ scan settings emitted.2 (stop + dropped.1) dropped.2
      | some (content, e, outer) =>
          match h : splitRawText? e.key.toList (c :: s) with
          | none => unclosedRawText e outer offset (c :: s)
          | some (body, endTag, r) =>
              have := length_of_splitRawText? h
              let bodyEnd := offset + bytes body
              let stop := bodyEnd + bytes endTag
              rawTextEvents content e offset bodyEnd body ++
                closing bodyEnd stop e :: scan settings outer stop r
termination_by rest.length
decreasing_by all_goals (simp only [List.length_cons] at *; omega)

/-- The events of a template. -/
def events (settings : Settings) (template : String) : List Event :=
  scan settings [] 0 template.toList

end Templating.Markup
