import Templating.Text.Case

/-!
**The tags of the web platform.**

The vocabulary of HTML and SVG with the parsing rules attached to its tags.  HTML names are known
in exactly one spelling.  SVG names are known in any letter case, because they are commonly written
in camel case.

Main definitions:

* `Templating.Tag.Definition`, `Templating.Tag.definition?` — what is known about a tag;
* `Templating.Tag.isReserved` — the tags that are not user components;
* `Templating.Tag.isVoid`, `Templating.Tag.canBeLeftOpen`, `Templating.Tag.isNonPhrasing`,
  `Templating.Tag.isPreformatted` — the parsing rules.
-/

set_option autoImplicit false

namespace Templating.Tag

/-! ### The vocabulary -/

/-- The elements of HTML. -/
def htmlNames : List String := [
  "html", "body", "base", "head", "link", "meta", "style", "title", "address", "article",
  "aside", "footer", "header", "h1", "h2", "h3", "h4", "h5", "h6", "hgroup", "nav", "section",
  "div", "dd", "dl", "dt", "figcaption", "figure", "picture", "hr", "img", "li", "main", "ol",
  "p", "pre", "ul", "a", "b", "abbr", "bdi", "bdo", "br", "cite", "code", "data", "dfn", "em",
  "i", "kbd", "mark", "q", "rp", "rt", "rtc", "ruby", "s", "samp", "small", "span", "strong",
  "sub", "sup", "time", "u", "var", "wbr", "area", "audio", "map", "track", "video", "embed",
  "object", "param", "source", "canvas", "script", "noscript", "del", "ins", "caption", "col",
  "colgroup", "table", "thead", "tbody", "td", "th", "tr", "button", "datalist", "fieldset",
  "form", "input", "label", "legend", "meter", "optgroup", "option", "output", "progress",
  "select", "textarea", "details", "dialog", "menu", "menuitem", "summary", "content",
  "element", "shadow", "template", "blockquote", "iframe", "tfoot"]

/-- The elements of SVG, in lower case. -/
def svgNames : List String := [
  "svg", "animate", "circle", "clippath", "cursor", "defs", "desc", "ellipse", "filter",
  "font-face", "foreignobject", "g", "glyph", "image", "line", "marker", "mask",
  "missing-glyph", "path", "pattern", "polygon", "polyline", "rect", "switch", "symbol", "text",
  "textpath", "tspan", "use", "view"]

/-- Elements that never have content. -/
def voidNames : List String := [
  "area", "base", "br", "col", "embed", "frame", "hr", "img", "input", "isindex", "keygen",
  "link", "meta", "param", "source", "track", "wbr"]

/-- Elements that may be left open: one closes an open neighbour of the same name. -/
def leftOpenNames : List String := [
  "colgroup", "dd", "dt", "li", "options", "p", "td", "tfoot", "th", "thead", "tr", "source"]

/-- Elements that may not stand inside a paragraph. -/
def nonPhrasingNames : List String := [
  "address", "article", "aside", "base", "blockquote", "body", "caption", "col", "colgroup",
  "dd", "details", "dialog", "div", "dl", "dt", "fieldset", "figcaption", "figure", "footer",
  "form", "h1", "h2", "h3", "h4", "h5", "h6", "head", "header", "hgroup", "hr", "html",
  "legend", "li", "menuitem", "meta", "optgroup", "option", "param", "rp", "rt", "source",
  "style", "summary", "tbody", "td", "tfoot", "th", "thead", "title", "tr", "track"]

/-- Names that have parsing rules but are not elements a template may rely on. -/
def unreservedNames : List String := ["frame", "isindex", "keygen", "options"]

/-! ### What is known about a tag -/

/-- The language a tag belongs to. -/
inductive Vocabulary where
  | html
  | svg
  deriving Repr, DecidableEq

/-- The parsing rules of a tag. -/
structure Definition where
  vocabulary : Vocabulary
  isVoid : Bool
  canBeLeftOpen : Bool
  isNonPhrasing : Bool
  deriving Repr, DecidableEq

/-- Whether a name is listed at all. -/
def isListed (tag : String) : Bool :=
  htmlNames.contains tag || svgNames.contains tag || voidNames.contains tag ||
    leftOpenNames.contains tag || nonPhrasingNames.contains tag

/-- The definition of a name in exactly this spelling. -/
def exactDefinition? (tag : String) : Option Definition :=
  if isListed tag then
    some {
      vocabulary := if svgNames.contains tag then .svg else .html
      isVoid := voidNames.contains tag
      canBeLeftOpen := leftOpenNames.contains tag
      isNonPhrasing := nonPhrasingNames.contains tag }
  else
    none

/-- The definition of a tag: of its exact spelling, or else of its lower-case form if that is an
element of SVG. -/
def definition? (tag : String) : Option Definition :=
  match exactDefinition? tag with
  | some d => some d
  | none => (exactDefinition? (Text.lowerString tag)).filter (·.vocabulary = .svg)

/-- Elements of HTML. -/
def isHtml (tag : String) : Bool :=
  match definition? tag with
  | some d => d.vocabulary = .html && !unreservedNames.contains tag
  | none => false

/-- Elements of SVG. -/
def isSvg (tag : String) : Bool :=
  match definition? tag with
  | some d => d.vocabulary = .svg
  | none => false

/-- Elements of the platform, as opposed to user components. -/
def isReserved (tag : String) : Bool := isHtml tag || isSvg tag

/-- Elements without content. -/
def isVoid (tag : String) : Bool := ((definition? tag).map (·.isVoid)).getD false

/-- Elements closed by an equally named neighbour. -/
def canBeLeftOpen (tag : String) : Bool := ((definition? tag).map (·.canBeLeftOpen)).getD false

/-- Elements that close an open paragraph. -/
def isNonPhrasing (tag : String) : Bool := ((definition? tag).map (·.isNonPhrasing)).getD false

/-- The element that keeps its blanks. -/
def isPreformatted (tag : String) : Bool := tag == "pre"

end Templating.Tag
