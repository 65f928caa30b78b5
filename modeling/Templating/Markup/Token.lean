import Templating.Diagnostic

/-!
**Tokens of a template.**

Main definitions:

* `Templating.Markup.Attribute` — an attribute with its decoded value;
* `Templating.Markup.Token` — start tags, end tags, texts, comments and document types;
* `Templating.Markup.Event` — a token or a diagnostic, in the order in which they come up;
* `Templating.Markup.tokens`, `Templating.Markup.diagnostics` — the two kinds of events apart.
-/

set_option autoImplicit false

namespace Templating.Markup

/-- An attribute of a start tag.  Its place is known when places are recorded. -/
structure Attribute where
  name : String
  value : String
  range : Option (Nat × Nat) := none
  deriving Repr, DecidableEq

namespace Attribute

/-- The place of an attribute. -/
def span (a : Attribute) : Option Span := a.range.map fun r => .between r.1 r.2

/-- An attribute as JSON. -/
def json (a : Attribute) : Json :=
  .object ([("name", .string a.name), ("value", .string a.value)] ++
    Json.optional "start" .nat (a.range.map (·.1)) ++ Json.optional "end" .nat (a.range.map (·.2)))

end Attribute

/-- A token, with the bytes of the template that it comes from. -/
inductive Token where
  | startTag (name : String) (attributes : List Attribute) (unary : Bool) (start stop : Nat)
  | endTag (name : String) (start stop : Nat)
  | text (text : String) (start stop : Nat)
  | comment (text : String) (start stop : Nat)
  | doctype (text : String) (start stop : Nat)
  deriving Repr, DecidableEq

namespace Token

/-- The name of the kind of a token. -/
def kind : Token → String
  | startTag .. => "StartTag"
  | endTag .. => "EndTag"
  | text .. => "Text"
  | comment .. => "Comment"
  | doctype .. => "DocType"

/-- Where a token starts. -/
def start : Token → Nat
  | startTag _ _ _ start _ => start
  | endTag _ start _ => start
  | text _ start _ => start
  | comment _ start _ => start
  | doctype _ start _ => start

/-- Where a token ends. -/
def stop : Token → Nat
  | startTag _ _ _ _ stop => stop
  | endTag _ _ stop => stop
  | text _ _ stop => stop
  | comment _ _ stop => stop
  | doctype _ _ stop => stop

/-- A token as JSON. -/
def json (t : Token) : Json :=
  let place := [("start", Json.nat t.start), ("end", Json.nat t.stop)]
  let members :=
    match t with
    | startTag name attributes unary _ _ =>
        [("name", .string name), ("attrs", .array (attributes.map Attribute.json)),
          ("unary", .bool unary)]
    | endTag name _ _ => [("name", .string name)]
    | text s _ _ => [("text", .string s)]
    | comment s _ _ => [("text", .string s)]
    | doctype s _ _ => [("text", .string s)]
  .object [(t.kind, .object (members ++ place))]

end Token

/-- What reading a template brings up. -/
inductive Event where
  | token (token : Token)
  | problem (diagnostic : Diagnostic)
  deriving Repr, DecidableEq

/-- The token of an event. -/
def Event.token? : Event → Option Token
  | token t => some t
  | problem _ => none

/-- The diagnostic of an event. -/
def Event.diagnostic? : Event → Option Diagnostic
  | token _ => none
  | problem d => some d

/-- The tokens among the events. -/
def tokens (events : List Event) : List Token := events.filterMap Event.token?

/-- The diagnostics among the events. -/
def diagnostics (events : List Event) : List Diagnostic := events.filterMap Event.diagnostic?

@[simp] theorem tokens_nil : tokens [] = [] := rfl

@[simp] theorem tokens_token_cons (t : Token) (es : List Event) :
    tokens (.token t :: es) = t :: tokens es := rfl

@[simp] theorem tokens_problem_cons (d : Diagnostic) (es : List Event) :
    tokens (.problem d :: es) = tokens es := rfl

@[simp] theorem tokens_append (a b : List Event) : tokens (a ++ b) = tokens a ++ tokens b := by
  simp [tokens]

@[simp] theorem diagnostics_append (a b : List Event) :
    diagnostics (a ++ b) = diagnostics a ++ diagnostics b := by
  simp [diagnostics]

end Templating.Markup
