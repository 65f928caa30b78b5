import Templating.Tree.Element

/-!
**Template trees.**

A tree is a table of nodes with the number of its root.  Nodes are only ever added, so a node that
is cut off stays in the table.

Main definitions:

* `Templating.Tree` — the table and the root;
* `Templating.Tree.node?`, `Templating.Tree.element?` — looking a node up;
* `Templating.Tree.push` — adding a node;
* `Templating.Tree.modifyNode`, `Templating.Tree.modifyElement` — changing a node;
* `Templating.Tree.nearestLoop?` — the nearest element, from a node on upwards, that is rendered in
  a loop.
-/

set_option autoImplicit false

namespace Templating

/-- A template tree. -/
structure Tree where
  nodes : Array Node := #[]
  root : Option NodeId := none
  deriving Repr, DecidableEq

namespace Tree

/-- The number of nodes in the table. -/
def size (t : Tree) : Nat := t.nodes.size

/-- The node with a number. -/
def node? (t : Tree) (id : NodeId) : Option Node := t.nodes[id]?

/-- The element with a number. -/
def element? (t : Tree) (id : NodeId) : Option Element := (t.node? id).bind Node.element?

/-- The root, when it is an element. -/
def rootElement? (t : Tree) : Option Element := t.root.bind t.element?

/-- Add a node to the table; its number is the size of the table before. -/
def push (t : Tree) (node : Node) : Tree := { t with nodes := t.nodes.push node }

/-- Change the node with a number. -/
def modifyNode (t : Tree) (id : NodeId) (f : Node → Node) : Tree :=
  { t with nodes := t.nodes.modify id f }

/-- Change the element with a number; other nodes stay. -/
def modifyElement (t : Tree) (id : NodeId) (f : Element → Element) : Tree :=
  t.modifyNode id fun
    | .element e => .element (f e)
    | n => n

/-- Add a child to an element. -/
def addChild (t : Tree) (parent child : NodeId) : Tree :=
  t.modifyElement parent fun e => { e with children := e.children ++ [child] }

/-! ### What the operations do to the table -/

@[simp] theorem size_push (t : Tree) (n : Node) : (t.push n).size = t.size + 1 := by
  simp [size, push]

@[simp] theorem size_modifyNode (t : Tree) (id : NodeId) (f : Node → Node) :
    (t.modifyNode id f).size = t.size := by
  simp [size, modifyNode]

@[simp] theorem size_modifyElement (t : Tree) (id : NodeId) (f : Element → Element) :
    (t.modifyElement id f).size = t.size := by
  simp [modifyElement]

@[simp] theorem root_push (t : Tree) (n : Node) : (t.push n).root = t.root := rfl

@[simp] theorem root_modifyNode (t : Tree) (id : NodeId) (f : Node → Node) :
    (t.modifyNode id f).root = t.root := rfl

@[simp] theorem root_modifyElement (t : Tree) (id : NodeId) (f : Element → Element) :
    (t.modifyElement id f).root = t.root := rfl

theorem node?_push (t : Tree) (n : Node) (id : NodeId) :
    (t.push n).node? id = if id = t.size then some n else t.node? id := by
  simp only [node?, push, size, Array.getElem?_push]
  rfl

theorem node?_modifyNode (t : Tree) (id : NodeId) (f : Node → Node) (k : NodeId) :
    (t.modifyNode id f).node? k = if id = k then (t.node? k).map f else t.node? k := by
  simp [node?, modifyNode, Array.getElem?_modify]

theorem element?_modifyElement (t : Tree) (id : NodeId) (f : Element → Element) (k : NodeId) :
    (t.modifyElement id f).element? k =
      if id = k then (t.element? k).map f else t.element? k := by
  simp only [element?, modifyElement, node?_modifyNode]
  split
  · cases t.node? k with
    | none => rfl
    | some n => cases n <;> rfl
  · rfl

theorem element?_push (t : Tree) (n : Node) (id : NodeId) :
    (t.push n).element? id = if id = t.size then n.element? else t.element? id := by
  simp only [element?, node?_push]
  split <;> simp

/-! ### Ancestors -/

/-- The nearest element with a loop, from a node on upwards; `fuel` bounds the number of steps. -/
def loopFuel? (t : Tree) : (fuel : Nat) → Option NodeId → Option Element
  | 0, _ => none
  | _ + 1, none => none
  | fuel + 1, some id =>
      match t.element? id with
      | none => none
      | some e => if e.loop.isSome then some e else t.loopFuel? fuel e.parent

/-- The nearest element that is rendered in a loop, from a node on upwards.  No way up a tree is
longer than its table. -/
def nearestLoop? (t : Tree) (id : Option NodeId) : Option Element := t.loopFuel? t.size id

/-- Whether the nearest ancestors, given the parent, are `<template>` elements up to one with a
loop; `fuel` bounds the number of steps. -/
def templateLoopFrom (t : Tree) : (fuel : Nat) → Option NodeId → Bool
  | 0, _ => false
  | _ + 1, none => false
  | fuel + 1, some id =>
      match t.element? id with
      | none => false
      | some e =>
          if e.tag ≠ "template" then false
          else if e.loop.isSome then true
          else t.templateLoopFrom fuel e.parent

/-- Whether an element is a direct part of a `<template>` that is rendered in a loop. -/
def inTemplateLoop (t : Tree) (e : Element) : Bool := t.templateLoopFrom t.size e.parent

end Tree

end Templating
