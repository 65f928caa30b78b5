import Templating.Json.Reader
import Templating.Settings

/-!
**Reading settings from JSON.**

Settings are written as an object of named fields, or as an array of the fields in their order.
What is left out keeps its default.  An object may hold members with other names, which are
skipped, but no field twice.

Main definitions:

* `Templating.Settings.Field`, `Templating.Settings.Field.ofKey?` — the fields and their names;
* `Templating.Settings.readField?` — the value of a field;
* `Templating.Settings.ofJson?` — settings from the text of a JSON value.
-/

set_option autoImplicit false

namespace Templating.Settings

open Json.Reader

/-- The fields of settings that can be written down, in their order. -/
inductive Field where
  | delimiters
  | staticKeys
  | optimize
  | expectHtml
  | keepComments
  | decodeNewlines
  | decodeNewlinesForHref
  | sourceRanges
  | preserveWhitespace
  | whitespace
  deriving Repr, DecidableEq

/-- All fields in their order. -/
def Field.all : List Field :=
  [.delimiters, .staticKeys, .optimize, .expectHtml, .keepComments, .decodeNewlines,
    .decodeNewlinesForHref, .sourceRanges, .preserveWhitespace, .whitespace]

/-- The field with a given name. -/
def Field.ofKey? (key : String) : Option Field :=
  [("delimiters", Field.delimiters), ("staticKeys", .staticKeys), ("optimize", .optimize),
    ("expectHtml", .expectHtml), ("shouldKeepComments", .keepComments),
    ("comments", .keepComments), ("shouldDecodeNewlines", .decodeNewlines),
    ("shouldDecodeNewlinesForHref", .decodeNewlinesForHref),
    ("outputSourceRange", .sourceRanges), ("preserveWhitespace", .preserveWhitespace),
    ("whitespace", .whitespace)].lookup key

/-! ### Values of fields -/

/-- Either `null` or an array of two strings. -/
def delimiters? (s : List Char) : Option (Option (String × String) × List Char) :=
  match null? s with
  | some r => some (none, r)
  | none => do
      let r ← punctuation? '[' s
      let (opening, r) ← string? r
      let r ← punctuation? ',' r
      let (closing, r) ← string? r
      let r ← punctuation? ']' r
      return (some (opening, closing), r)

/-- The way of treating blank text with a given name. -/
def whitespaceOfName? (name : String) : Option Whitespace :=
  if name = "preserve" then some .preserve
  else if name = "condense" then some .condense
  else none

/-- The name of a way of treating blank text, alone or as the only member of an object, with the
value `null`. -/
def whitespace? (s : List Char) : Option (Whitespace × List Char) :=
  match punctuation? '\x7b' s with
  | none => do
      let (name, r) ← string? s
      let mode ← whitespaceOfName? name
      return (mode, r)
  | some r => do
      let (name, r) ← string? r
      let mode ← whitespaceOfName? name
      let r ← punctuation? ':' r
      let r ← null? r
      let r ← punctuation? '\x7d' r
      return (mode, r)

/-- Set a field to the value that the text starts with. -/
def readField? (settings : Settings) (field : Field) (s : List Char) :
    Option (Settings × List Char) :=
  match field with
  | .delimiters => (delimiters? s).map fun p => ({ settings with customDelimiters := p.1 }, p.2)
  | .staticKeys => (string? s).map fun p => ({ settings with staticKeys := p.1 }, p.2)
  | .optimize => (bool? s).map fun p => ({ settings with optimize := p.1 }, p.2)
  | .expectHtml => (bool? s).map fun p => ({ settings with expectHtml := p.1 }, p.2)
  | .keepComments => (bool? s).map fun p => ({ settings with keepComments := p.1 }, p.2)
  | .decodeNewlines => (bool? s).map fun p => ({ settings with decodeNewlines := p.1 }, p.2)
  | .decodeNewlinesForHref =>
      (bool? s).map fun p => ({ settings with decodeNewlinesForHref := p.1 }, p.2)
  | .sourceRanges => (bool? s).map fun p => ({ settings with sourceRanges := p.1 }, p.2)
  | .preserveWhitespace =>
      (bool? s).map fun p => ({ settings with preserveWhitespace := p.1 }, p.2)
  | .whitespace => (whitespace? s).map fun p => ({ settings with whitespace := p.1 }, p.2)

/-! ### Objects and arrays -/

/-- The members of an object that has at least one, up to its closing brace.  `seen` holds the
fields set so far, and `fuel` bounds the number of members. -/
def members? : (fuel : Nat) → (seen : List Field) → Settings → List Char →
    Option (Settings × List Char)
  | 0, _, _, _ => none
  | fuel + 1, seen, settings, s => do
      let (key, r) ← string? s
      let r ← punctuation? ':' r
      let (seen, settings, r) ←
        match Field.ofKey? key with
        | none => (skip? r).map fun r => (seen, settings, r)
        | some field =>
            if field ∈ seen then none
            else (readField? settings field r).map fun p => (field :: seen, p.1, p.2)
      match punctuation? ',' r with
      | some r => members? fuel seen settings r
      | none => (punctuation? '\x7d' r).map fun r => (settings, r)

/-- The items of an array for the given fields, up to its closing bracket. -/
def items? : List Field → Settings → List Char → Option (Settings × List Char)
  | [], _, _ => none
  | field :: fields, settings, s => do
      let (settings, r) ← readField? settings field s
      match punctuation? ',' r with
      | some r => items? fields settings r
      | none => (punctuation? ']' r).map fun r => (settings, r)

/-- The settings that the text starts with. -/
def value? (s : List Char) : Option (Settings × List Char) :=
  match punctuation? '\x7b' s with
  | some r =>
      match punctuation? '\x7d' r with
      | some r => some ({}, r)
      | none => members? (r.length + 1) [] {} r
  | none =>
      match punctuation? '[' s with
      | none => none
      | some r =>
          match punctuation? ']' r with
          | some r => some ({}, r)
          | none => items? Field.all {} r

/-- Settings from the text of a JSON value, without any rules on tags. -/
def ofJson? (text : String) : Option Settings :=
  match value? text.toList with
  | none => none
  | some (settings, r) => if skipBlanks r = [] then some settings else none

end Templating.Settings
