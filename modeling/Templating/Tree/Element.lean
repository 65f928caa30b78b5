import Templating.Dict
import Templating.Expression.Interpolation
import Templating.Expression.Loop
import Templating.Markup.Token

/-!
**Nodes of the template tree.**

A node is an element, a text with interpolations, or plain text, which comments count as.  Nodes
refer to each other by number.

Main definitions:

* `Templating.Element` — an element with everything its directives say;
* `Templating.Property`, `Templating.Listener`, `Templating.Directive`, `Templating.Branch` — what
  directives put on an element;
* `Templating.ExpressionNode`, `Templating.TextNode`, `Templating.Node` — the nodes;
* `Templating.Element.keysInUse` — the names of what an element has.
-/

set_option autoImplicit false

namespace Templating

/-- The number of a node in its tree. -/
abbrev NodeId := Nat

/-- An attribute or a property that is set on an element; its value is code. -/
structure Property where
  name : String
  value : String
  /-- Whether the name is code too. -/
  dynamic : Bool := false
  deriving Repr, DecidableEq

/-- A listener for an event. -/
structure Listener where
  value : String
  /-- Whether the name of the event is code. -/
  dynamic : Bool := false
  modifiers : List String := []
  deriving Repr, DecidableEq

/-- A directive that is not built in. -/
structure Directive where
  name : String
  rawName : String
  value : String
  argument : Option String := none
  /-- Whether the argument is code. -/
  dynamicArgument : Bool := false
  modifiers : List String := []
  deriving Repr, DecidableEq

/-- One branch of a conditional: its condition, if it has one, and the element it renders. -/
structure Branch where
  condition : Option String
  block : NodeId
  deriving Repr, DecidableEq

/-- An element. -/
structure Element where
  tag : String
  /-- The attributes that no directive has taken yet. -/
  pending : List Markup.Attribute := []
  /-- All attributes with their values. -/
  attributes : Dict String := ∅
  /-- All attributes with their places, when places are recorded. -/
  places : Dict Markup.Attribute := ∅
  parent : Option NodeId := none
  children : List NodeId := []
  start : Option Nat := none
  stop : Option Nat := none
  /-- Nothing but the tag is to be rendered. -/
  plain : Bool := false
  hasBindings : Bool := false
  /-- The element and what is inside it are rendered as they stand. -/
  pre : Bool := false
  once : Bool := false
  condition : Option String := none
  elseCondition : Option String := none
  isElse : Bool := false
  /-- The branches of the conditional that starts at this element, itself included. -/
  branches : List Branch := []
  loop : Option Expression.Loop := none
  key : Option String := none
  ref : Option String := none
  refInFor : Bool := false
  component : Option String := none
  inlineTemplate : Bool := false
  slotName : Option String := none
  staticClass : Option String := none
  classBinding : Option String := none
  staticStyle : Option String := none
  styleBinding : Option String := none
  attrs : List Property := []
  props : List Property := []
  events : Dict (List Listener) := ∅
  nativeEvents : Dict (List Listener) := ∅
  directives : List Directive := []
  /-- A tag with side effects, which is never attached to the tree. -/
  forbidden : Bool := false
  /-- Whether nothing in the element can change, once that is known. -/
  isStatic : Option Bool := none
  /-- Whether the element is rendered once and for all, once that is known. -/
  staticRoot : Option Bool := none
  /-- Whether a static element stands in a loop, once that is known. -/
  staticInFor : Option Bool := none
  deriving Repr, DecidableEq

/-- An element as it is first met. -/
def Element.new (tag : String) (attributes : List Markup.Attribute) (parent : Option NodeId) :
    Element where
  tag
  pending := attributes
  attributes := Dict.ofList (attributes.map fun a => (a.name, a.value))
  parent

/-- A text with interpolations. -/
structure ExpressionNode where
  expression : String
  parts : List Expression.Part := []
  text : String
  start : Option Nat := none
  stop : Option Nat := none
  isStatic : Option Bool := none
  deriving Repr, DecidableEq

/-- A text without interpolations, or a comment. -/
structure TextNode where
  text : String
  isComment : Bool := false
  start : Option Nat := none
  stop : Option Nat := none
  isStatic : Option Bool := none
  deriving Repr, DecidableEq

/-- A node of a template tree. -/
inductive Node where
  | element (element : Element)
  | expression (expression : ExpressionNode)
  | text (text : TextNode)
  deriving Repr, DecidableEq

namespace Node

/-- The element of a node. -/
def element? : Node → Option Element
  | element e => some e
  | _ => none

/-- The text of a node, as it stands in the template. -/
def text? : Node → Option String
  | element _ => none
  | expression e => some e.text
  | text t => some t.text

/-- Whether nothing in the node can change, once that is known. -/
def isStatic : Node → Option Bool
  | element e => e.isStatic
  | expression e => e.isStatic
  | text t => t.isStatic

/-- Record whether nothing in the node can change. -/
def setStatic (value : Bool) : Node → Node
  | element e => element { e with isStatic := some value }
  | expression e => expression { e with isStatic := some value }
  | text t => text { t with isStatic := some value }

@[simp] theorem isStatic_setStatic (value : Bool) (n : Node) :
    (n.setStatic value).isStatic = some value := by
  cases n <;> rfl

@[simp] theorem text?_setStatic (value : Bool) (n : Node) :
    (n.setStatic value).text? = n.text? := by
  cases n <;> rfl

end Node

/-- The names of what an element has.  What is known about static parts does not count. -/
def Element.keysInUse (e : Element) : List String :=
  ["type", "tag", "attrsList", "attrsMap", "rawAttrsMap", "parent", "children", "plain"] ++
    ([("start", e.start.isSome), ("end", e.stop.isSome), ("attrs", !e.attrs.isEmpty),
      ("props", !e.props.isEmpty), ("hasBindings", e.hasBindings), ("pre", e.pre),
      ("if", e.condition.isSome), ("elseif", e.elseCondition.isSome), ("else", e.isElse),
      ("ifConditions", !e.branches.isEmpty), ("for", e.loop.isSome), ("alias", e.loop.isSome),
      ("iterator1", (e.loop.bind (·.iterator1)).isSome),
      ("iterator2", (e.loop.bind (·.iterator2)).isSome), ("once", e.once), ("key", e.key.isSome),
      ("ref", e.ref.isSome), ("refInFor", e.ref.isSome), ("component", e.component.isSome),
      ("inlineTemplate", e.inlineTemplate), ("slotName", e.slotName.isSome),
      ("staticClass", e.staticClass.isSome), ("classBinding", e.classBinding.isSome),
      ("staticStyle", e.staticStyle.isSome), ("styleBinding", e.styleBinding.isSome),
      ("events", !e.events.isEmpty), ("nativeEvents", !e.nativeEvents.isEmpty),
      ("directives", !e.directives.isEmpty)].filter (·.2)).map (·.1)

end Templating
