import Templating.Tree.Basic

/-!
**Trees as JSON.**

Main definitions:

* `Templating.Element.members`, `Templating.Node.json`, `Templating.Tree.json`.
-/

set_option autoImplicit false

namespace Templating

open Json (optional flag nonEmpty)

/-- A property as JSON. -/
def Property.json (p : Property) : Json :=
  .object ([("name", .string p.name), ("value", .string p.value)] ++ flag "dynamic" p.dynamic)

/-- A listener as JSON. -/
def Listener.json (h : Listener) : Json :=
  .object ([("value", .string h.value)] ++ flag "dynamic" h.dynamic ++
    nonEmpty "modifiers" Json.strings h.modifiers)

/-- A directive as JSON. -/
def Directive.json (d : Directive) : Json :=
  .object ([("name", .string d.name), ("rawName", .string d.rawName), ("value", .string d.value)] ++
    optional "arg" .string d.argument ++ flag "isDynamicArg" d.dynamicArgument ++
    nonEmpty "modifiers" Json.strings d.modifiers)

/-- A branch of a conditional as JSON. -/
def Branch.json (b : Branch) : Json :=
  .object [("exp", .orNull .string b.condition), ("block", .nat b.block)]

/-- Listeners by the name of their event. -/
def listenersJson (events : List (String × List Listener)) : Json :=
  .object (events.map fun p => (p.1, .array (p.2.map Listener.json)))

/-- The members of an element, in their order. -/
def Element.members (e : Element) : List (String × Json) :=
  [("tag", .string e.tag), ("attrsList", .array (e.pending.map Markup.Attribute.json)),
    ("attrsMap", .object (e.attributes.entries.map fun p => (p.1, .string p.2))),
    ("rawAttrsMap", .object (e.places.entries.map fun p => (p.1, p.2.json))),
    ("parent", .orNull .nat e.parent), ("children", .array (e.children.map .nat))] ++
  optional "start" .nat e.start ++ optional "end" .nat e.stop ++
  [("plain", .bool e.plain), ("hasBindings", .bool e.hasBindings), ("pre", .bool e.pre),
    ("once", .bool e.once)] ++
  optional "if" .string e.condition ++ optional "elseif" .string e.elseCondition ++
  [("else", .bool e.isElse)] ++
  nonEmpty "ifConditions" (fun l => .array (l.map Branch.json)) e.branches ++
  ((e.loop.map Expression.Loop.members).getD []) ++
  optional "key" .string e.key ++ optional "ref" .string e.ref ++
  [("refInFor", .bool e.refInFor)] ++
  optional "component" .string e.component ++
  [("inlineTemplate", .bool e.inlineTemplate)] ++
  optional "slotName" .string e.slotName ++
  optional "staticClass" .string e.staticClass ++
  optional "classBinding" .string e.classBinding ++
  optional "staticStyle" .string e.staticStyle ++
  optional "styleBinding" .string e.styleBinding ++
  nonEmpty "attrs" (fun l => .array (l.map Property.json)) e.attrs ++
  nonEmpty "props" (fun l => .array (l.map Property.json)) e.props ++
  nonEmpty "events" listenersJson e.events.entries ++
  nonEmpty "nativeEvents" listenersJson e.nativeEvents.entries ++
  nonEmpty "directives" (fun l => .array (l.map Directive.json)) e.directives ++
  optional "static" .bool e.isStatic ++ optional "staticRoot" .bool e.staticRoot ++
  optional "staticInFor" .bool e.staticInFor

/-- A node as JSON. -/
def Node.json : Node → Json
  | element e => .object (("kind", .string "Element") :: e.members)
  | expression n =>
      .object ([("kind", .string "Expression"), ("expression", .string n.expression),
          ("tokens", .array (n.parts.map Expression.Part.json)), ("text", .string n.text)] ++
        optional "start" .nat n.start ++ optional "end" .nat n.stop ++
        optional "static" .bool n.isStatic)
  | text n =>
      .object ([("kind", .string "Text"), ("text", .string n.text)] ++
        flag "isComment" n.isComment ++ optional "start" .nat n.start ++
        optional "end" .nat n.stop ++ optional "static" .bool n.isStatic)

/-- A tree as JSON. -/
def Tree.json (t : Tree) : Json :=
  .object [("nodes", .array (t.nodes.toList.map Node.json)), ("root", .orNull .nat t.root)]

end Templating
