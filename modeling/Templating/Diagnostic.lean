import Templating.Json
import Templating.Text.Bytes

/-!
**Diagnostics.**

A template that is not well formed is compiled all the same; what was wrong with it is reported as
a list of diagnostics, each with a place in the template.

Main definitions:

* `Templating.Span` — a place in a template, in bytes, with or without an end;
* `Templating.Problem`, `Templating.Diagnostic` — what is reported;
* `Templating.Diagnostic.display` — the message with its place;
* `Templating.Diagnostic.inContext` — the message with the text around its place.
-/

set_option autoImplicit false

namespace Templating

/-- A place in a template: the byte where it starts and, when known, the byte after its end. -/
structure Span where
  start : Nat
  stop : Option Nat
  deriving Repr, DecidableEq

namespace Span

/-- The bytes from `start` up to `stop`. -/
def between (start stop : Nat) : Span := ⟨start, some stop⟩

/-- The place that starts at a byte. -/
def point (start : Nat) : Span := ⟨start, none⟩

/-- A span as JSON. -/
def json (s : Span) : Json :=
  .object [("start", .nat s.start), ("end", .orNull .nat s.stop)]

end Span

/-- What kind of problem a diagnostic reports. -/
inductive Problem where
  /-- An element was closed by the end tag of one of its ancestors. -/
  | unmatchedEndTag
  /-- An element was still open when the template ended. -/
  | unclosedTag
  /-- The template ends in something that is no markup. -/
  | malformedTag
  /-- A root, a sibling or a directive stands where it may not. -/
  | templateStructure
  /-- A tag with side effects, which is left out of the tree. -/
  | forbiddenTag
  deriving Repr, DecidableEq

/-- The name of a kind of problem. -/
def Problem.name : Problem → String
  | unmatchedEndTag => "UnmatchedEndTag"
  | unclosedTag => "UnclosedTag"
  | malformedTag => "MalformedTag"
  | templateStructure => "TemplateStructure"
  | forbiddenTag => "ForbiddenTag"

/-- A problem that did not keep the template from being compiled. -/
structure Diagnostic where
  problem : Problem
  message : String
  span : Option Span
  deriving Repr, DecidableEq

/-! ### The text around a place -/

/-- The longest prefix of at most `chars` characters with fewer than `lines` line feeds. -/
def window : (chars lines : Nat) → List Char → List Char
  | 0, _, _ => []
  | _ + 1, _, [] => []
  | n + 1, lines, c :: s =>
      if c = '\n' then
        if lines ≤ 1 then [] else c :: window n (lines - 1) s
      else
        c :: window n lines s

/-- The text before and after a byte position, each side at most `chars` characters and fewer than
`lines` line feeds long.  An empty text has no surroundings. -/
def surroundings? (source : List Char) (offset chars lines : Nat) :
    Option (List Char × List Char) :=
  if source = [] then none
  else
    let p := Text.splitAtByte offset source
    some ((window chars lines p.1.reverse).reverse, window chars lines p.2)

namespace Diagnostic

/-- The message, followed by its place. -/
def display (d : Diagnostic) : String :=
  match d.span with
  | none => d.message
  | some ⟨start, none⟩ => d.message ++ " @" ++ toString start
  | some ⟨start, some stop⟩ => d.message ++ " @" ++ toString start ++ ".." ++ toString stop

/-- The message, followed by the text of `source` around its place: up to 100 characters and three
lines on each side. -/
def inContext (d : Diagnostic) (source : String) : String :=
  match d.span with
  | none => d.message
  | some span =>
      match surroundings? source.toList span.start 100 3 with
      | none => d.message
      | some (before, after) =>
          d.message ++ " (\"" ++ String.ofList before ++ "[WARNING ->]" ++ String.ofList after ++
            "\")"

/-- A diagnostic as JSON. -/
def json (d : Diagnostic) : Json :=
  .object [("kind", .string d.problem.name), ("msg", .string d.message),
    ("range", .orNull Span.json d.span)]

end Diagnostic

end Templating
