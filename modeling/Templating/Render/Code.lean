import Templating.Expression.Loop
import Templating.Text.Cut
import Templating.Tree.Element

/-!
**Generated code.**

The code of a render function is a tree of calls.  Every call knows the node of the template that
it renders.

Main definitions:

* `Templating.Render.Code` — calls and their arguments;
* `Templating.Render.Code.render` — the code as text;
* `Templating.Render.Code.isWhole` — whether a code has all its parts;
* `Templating.Render.functionBody` — the body of a function that returns a value.
-/

set_option autoImplicit false

namespace Templating.Render

open Text

/-- Generated code; `origin` is the node that is rendered. -/
inductive Code where
  /-- No code at all: an argument that is left out. -/
  | absent
  /-- Nothing to render. -/
  | nothing
  /-- A reference to code that is rendered once and for all. -/
  | hoisted (origin : NodeId) (index : Nat) (inFor : Bool)
  /-- Code that is rendered once for every key. -/
  | keyed (origin : NodeId) (body : Code) (number : Nat) (key : String)
  /-- Code that is rendered for every item of a source. -/
  | loop (origin : NodeId) (loop : Expression.Loop) (body : Code)
  /-- One of two codes, after a condition. -/
  | choice (origin : NodeId) (condition : String) (yes no : Code)
  /-- The children of an element that has no rendering of its own. -/
  | fragment (origin : NodeId) (children : Code)
  /-- The content given for a slot, or else its children. -/
  | slot (origin : NodeId) (name : String) (children : Code) (properties : Option String)
  /-- An element or a component. -/
  | create (origin : NodeId) (tag : String) (data : Option String) (children : Code)
  /-- A text. -/
  | text (origin : NodeId) (code : String)
  /-- A comment. -/
  | comment (origin : NodeId) (code : String)
  /-- Several children, and how far they have to be flattened. -/
  | list (items : List Code) (flattening : Nat)
  /-- A single child that is a list by itself, and how far it has to be flattened. -/
  | alone (item : Code) (flattening : Option Nat)
  deriving Repr, Inhabited

namespace Code

/-- Whether there is no code at all. -/
def isAbsent : Code → Bool
  | absent => true
  | _ => false

/-- A further parameter of a function. -/
def parameter : Option String → String
  | none => ""
  | some name => "," ++ name

mutual

/-- The code as text. -/
def render : Code → String
  | absent => ""
  | nothing => "_e()"
  | hoisted _ index inFor => "_m(" ++ toString index ++ (if inFor then ",true" else "") ++ ")"
  | keyed _ body number key => "_o(" ++ render body ++ "," ++ toString number ++ "," ++ key ++ ")"
  | loop _ l body =>
      "_l((" ++ l.source ++ "),function(" ++ l.item ++ parameter l.iterator1 ++
        parameter l.iterator2 ++ ")\x7breturn " ++ render body ++ "\x7d)"
  | choice _ condition yes no => "(" ++ condition ++ ")?" ++ render yes ++ ":" ++ render no
  | fragment _ children => if children.isAbsent then "void 0" else render children
  | slot _ name children properties =>
      "_t(" ++ name ++
        (if children.isAbsent then "" else ",function()\x7breturn " ++ render children ++ "\x7d") ++
        (match properties with
          | none => ""
          | some code => (if children.isAbsent then ",null," else ",") ++ code) ++ ")"
  | create _ tag data children =>
      "_c(" ++ tag ++ parameter data ++
        (if children.isAbsent then "" else "," ++ render children) ++ ")"
  | text _ code => "_v(" ++ code ++ ")"
  | comment _ code => "_e(" ++ code ++ ")"
  | list items flattening =>
      "[" ++ join "," (renderAll items) ++ "]" ++
        (if flattening = 0 then "" else "," ++ toString flattening)
  | alone item flattening =>
      render item ++
        (match flattening with
          | none => ""
          | some n => "," ++ toString n)

/-- Several codes as text. -/
def renderAll : List Code → List String
  | [] => []
  | c :: rest => render c :: renderAll rest

end

mutual

/-- Whether a code has all its parts.  Only the children of an element may be left out. -/
def isWhole : Code → Bool
  | absent => false
  | nothing | hoisted .. | text .. | comment .. => true
  | keyed _ body _ _ => isWhole body
  | loop _ _ body => isWhole body
  | choice _ _ yes no => isWhole yes && isWhole no
  | fragment _ children => children.isAbsent || isWhole children
  | slot _ _ children _ => children.isAbsent || isWhole children
  | create _ _ _ children => children.isAbsent || isWhole children
  | list items _ => areWhole items
  | alone item _ => isWhole item

/-- Whether several codes have all their parts. -/
def areWhole : List Code → Bool
  | [] => true
  | c :: rest => isWhole c && areWhole rest

end

end Code

/-- The body of a function that returns the value of the code. -/
def functionBody (code : String) : String := "with(this)\x7breturn " ++ code ++ "\x7d"

end Templating.Render
