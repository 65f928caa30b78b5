import Templating.Tag.Web
import Templating.Text.Visible

/-!
**Settings of a compilation.**

Main definitions:

* `Templating.Whitespace` — what becomes of blank text between elements;
* `Templating.TagRules` — the predicates on tag names that a platform brings along;
* `Templating.Settings` — everything a compilation depends on besides the template;
* `Templating.Settings.delimiters` — the marks around an interpolation, checked to be usable;
* `Templating.CompileError` — why a compilation can fail.
-/

set_option autoImplicit false

namespace Templating

/-- What becomes of blank text between elements. -/
inductive Whitespace where
  /-- It is kept as one space. -/
  | preserve
  /-- It is dropped when it holds a line break, and runs of blanks in text become one space. -/
  | condense
  deriving Repr, DecidableEq

/-- The predicates on tag names that a platform brings along. -/
structure TagRules where
  /-- Elements of the platform, as opposed to user components. -/
  isReserved : String → Bool := fun _ => false
  /-- Elements without content. -/
  isUnary : String → Bool := fun _ => false
  /-- Elements closed by an equally named neighbour. -/
  canBeLeftOpen : String → Bool := fun _ => false
  /-- Elements that close an open paragraph. -/
  isNonPhrasing : String → Bool := fun _ => false
  /-- Elements that keep their blanks. -/
  isPre : String → Bool := fun _ => false
  /-- Elements with raw text, besides the fixed ones; asked with the lower-case name. -/
  isRawText : String → Bool := fun _ => false

/-- No tag is special. -/
def TagRules.bare : TagRules := {}

/-- The rules of the web platform. -/
def TagRules.web : TagRules where
  isReserved := Tag.isReserved
  isUnary := Tag.isVoid
  canBeLeftOpen := Tag.canBeLeftOpen
  isNonPhrasing := Tag.isNonPhrasing
  isPre := Tag.isPreformatted

/-- Everything a compilation depends on besides the template. -/
structure Settings where
  /-- The marks around an interpolation, when they are not double braces. -/
  customDelimiters : Option (String × String) := none
  /-- Further keys, separated by commas, that a static element may have. -/
  staticKeys : String := ""
  /-- Whether static parts are looked for. -/
  optimize : Bool := true
  /-- Whether HTML's rules for omitted end tags apply. -/
  expectHtml : Bool := false
  /-- Whether comments become nodes. -/
  keepComments : Bool := false
  /-- Whether references to line feeds and tabs in attribute values are decoded. -/
  decodeNewlines : Bool := false
  /-- The same for the target of a link. -/
  decodeNewlinesForHref : Bool := false
  /-- Whether places in the template are recorded in the tree. -/
  sourceRanges : Bool := false
  /-- Whether blank text between elements is kept when it is not condensed. -/
  preserveWhitespace : Bool := true
  /-- What becomes of blank text between elements. -/
  whitespace : Whitespace := .preserve
  /-- The platform's rules on tags. -/
  tags : TagRules := {}

instance : Inhabited Settings := ⟨{}⟩

/-- Why a compilation can fail. -/
inductive CompileError where
  /-- One of the two interpolation marks is empty. -/
  | invalidDelimiters (opening closing : String)
  deriving Repr, DecidableEq

/-- The wording of an error. -/
def CompileError.message : CompileError → String
  | invalidDelimiters opening closing =>
      "invalid delimiters " ++ Text.visible opening ++ " / " ++ Text.visible closing ++
        ": both delimiters must be non-empty"

namespace Settings

/-- Settings for templates of web pages. -/
def web : Settings :=
  { expectHtml := true, staticKeys := "staticClass,staticStyle", tags := .web }

/-- The marks around an interpolation.  Custom ones must not be empty. -/
def delimiters (s : Settings) : Except CompileError (Option (String × String)) :=
  match s.customDelimiters with
  | none => .ok none
  | some (opening, closing) =>
      if opening = "" ∨ closing = "" then .error (.invalidDelimiters opening closing)
      else .ok (some (opening, closing))

/-- A boolean in a summary. -/
def summaryBool (b : Bool) : String := if b then "true" else "false"

/-- The settings on one line, for a reader. -/
def summary (s : Settings) : String :=
  let delimiters :=
    match s.customDelimiters with
    | none => "None"
    | some (opening, closing) =>
        "Some((" ++ Text.visible opening ++ ", " ++ Text.visible closing ++ "))"
  let whitespace :=
    match s.whitespace with
    | .preserve => "Preserve"
    | .condense => "Condense"
  "CompilerOptions \x7b delimiters: " ++ delimiters ++
    ", static_keys: " ++ Text.visible s.staticKeys ++
    ", optimize: " ++ summaryBool s.optimize ++
    ", expect_html: " ++ summaryBool s.expectHtml ++
    ", should_keep_comments: " ++ summaryBool s.keepComments ++
    ", should_decode_newlines: " ++ summaryBool s.decodeNewlines ++
    ", should_decode_newlines_for_href: " ++ summaryBool s.decodeNewlinesForHref ++
    ", output_source_range: " ++ summaryBool s.sourceRanges ++
    ", preserve_whitespace: " ++ summaryBool s.preserveWhitespace ++
    ", whitespace: " ++ whitespace ++ ", warn: false, .. \x7d"

end Settings

end Templating
