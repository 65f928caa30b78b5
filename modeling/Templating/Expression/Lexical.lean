/-!
**Where a character of an expression stands.**

To find the parts of an expression it is enough to know whether a character is code or belongs to a
literal, and how many brackets are open.

Main definitions:

* `Templating.Expression.Context`, `Templating.Expression.Context.next` — code, or one of the
  literals;
* `Templating.Expression.Nesting` — the number of open brackets of each kind;
* `Templating.Expression.endsOperand` — the characters after which a slash divides.
-/

set_option autoImplicit false

namespace Templating.Expression

/-- What a character of an expression belongs to. -/
inductive Context where
  | code
  | singleQuote
  | doubleQuote
  | templateLiteral
  | regex
  deriving Repr, DecidableEq

/-- The name of a context. -/
def Context.name : Context → String
  | code => "Code"
  | singleQuote => "SingleQuote"
  | doubleQuote => "DoubleQuote"
  | templateLiteral => "TemplateLiteral"
  | regex => "Regex"

/-- The context with a given name. -/
def Context.ofName? (name : String) : Option Context :=
  [code, singleQuote, doubleQuote, templateLiteral, regex].find? (·.name = name)

/-- The character that ends a literal; code has none. -/
def Context.terminator? : Context → Option Char
  | code => none
  | singleQuote => some '\x27'
  | doubleQuote => some '"'
  | templateLiteral => some '\x60'
  | regex => some '/'

/-- The context after the character `c`, which `prev` precedes.  A literal ends at its terminator,
unless a backslash stands before it; `regexAllowed` says whether a slash in code starts a regular
expression. -/
def Context.next (ctx : Context) (c : Char) (prev : Option Char) (regexAllowed : Bool) : Context :=
  if ctx = code then
    if c = '\x27' then singleQuote
    else if c = '"' then doubleQuote
    else if c = '\x60' then templateLiteral
    else if c = '/' ∧ regexAllowed then regex
    else code
  else if ctx.terminator? = some c ∧ prev ≠ some '\\' then code
  else ctx

/-- The number of open brackets of each kind, in 32 bits; negative when more were closed than
opened. -/
structure Nesting where
  curly : Int32 := 0
  square : Int32 := 0
  paren : Int32 := 0
  deriving Repr, DecidableEq

namespace Nesting

/-- The brackets open after the character `c`. -/
def after (n : Nesting) (c : Char) : Nesting :=
  if c = '(' then { n with paren := n.paren + 1 }
  else if c = ')' then { n with paren := n.paren - 1 }
  else if c = '[' then { n with square := n.square + 1 }
  else if c = ']' then { n with square := n.square - 1 }
  else if c = '\x7b' then { n with curly := n.curly + 1 }
  else if c = '\x7d' then { n with curly := n.curly - 1 }
  else n

/-- No bracket is open. -/
def isClosed (n : Nesting) : Bool := n.curly == 0 && n.square == 0 && n.paren == 0

end Nesting

/-- Quotation marks of expressions. -/
def isQuotationMark (c : Char) : Bool := c == '\x27' || c == '"' || c == '\x60'

/-- Characters that end an operand, so that a slash after them divides. -/
def endsOperand (c : Char) : Bool :=
  c.isAlphanum || c == '_' || c == ')' || c == '.' || c == '+' || c == '-' || c == '$' || c == ']'

end Templating.Expression
