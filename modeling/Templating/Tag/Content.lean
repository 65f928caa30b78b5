import Templating.Text.Case

/-!
**How the content of an element is read.**

Some elements hold text that is not looked into for markup, whatever platform the template is
written for.

Main definitions:

* `Templating.Tag.Content`, `Templating.Tag.content` — the three ways to read content;
* `Templating.Tag.ignoresFirstLineFeed` — elements that drop a line feed after their start tag;
* `Templating.Tag.isBuiltIn` — tags that the rendering itself understands.
-/

set_option autoImplicit false

namespace Templating.Tag

/-- How the content of an element is read. -/
inductive Content where
  /-- Text up to the end tag, as it stands. -/
  | plainText
  /-- Text up to the end tag, with the marks of comments and character data taken off. -/
  | rawText
  /-- Markup. -/
  | parsable
  deriving Repr, DecidableEq

/-- The name of a way to read content. -/
def Content.name : Content → String
  | plainText => "PlainText"
  | rawText => "RawText"
  | parsable => "ParsableData"

/-- Elements whose content is never read as markup, in any letter case. -/
def isPlainText (tag : String) : Bool :=
  ["script", "style", "textarea"].any (Text.equalFoldAscii · tag)

/-- Elements that drop a line feed right after their start tag, in any letter case. -/
def ignoresFirstLineFeed (tag : String) : Bool :=
  ["pre", "textarea"].any (Text.equalFoldAscii · tag)

/-- Tags that the rendering itself understands. -/
def isBuiltIn (tag : String) : Bool := tag == "slot" || tag == "component"

/-- How the content of `tag` is read; `isRawText` adds raw elements to the fixed ones. -/
def content (isRawText : String → Bool) (tag : String) : Content :=
  if isPlainText tag then .plainText else if isRawText tag then .rawText else .parsable

end Templating.Tag
