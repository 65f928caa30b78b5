import Templating.Tree.Basic

/-!
**Walking a tree.**

A walk meets an element, its children, the element again on the way out, and then the further
branches of its conditional.

Main definitions:

* `Templating.Visit` — a step of a walk;
* `Templating.Tree.walkFrom`, `Templating.Tree.walk` — the walk from a node, and from the root;
* `Templating.Tree.texts` — the texts of a walk;
* `Templating.Tree.staticRootCount` — the number of elements that are rendered once and for all;
* `Templating.Tree.missing` — the numbers that a walk meets and that belong to no node.
-/

set_option autoImplicit false

namespace Templating

/-- A step of a walk through a tree. -/
inductive Visit where
  | enter (id : NodeId) (element : Element)
  | leave (id : NodeId) (element : Element)
  | expression (id : NodeId) (node : ExpressionNode)
  | text (id : NodeId) (node : TextNode)
  /-- A number that belongs to no node. -/
  | missing (id : NodeId)
  deriving Repr, DecidableEq

namespace Visit

/-- The text of a step, comments included. -/
def text? : Visit → Option String
  | text _ n => some n.text
  | _ => none

/-- Whether a step enters an element that is rendered once and for all. -/
def entersStaticRoot : Visit → Bool
  | enter _ e => e.staticRoot == some true
  | _ => false

/-- The number of a step that meets no node. -/
def missing? : Visit → Option NodeId
  | missing id => some id
  | _ => none

/-- A step of a walk as JSON. -/
def json : Visit → Json
  | enter id e => .array [.string "enter", .nat id, .string e.tag]
  | leave id e => .array [.string "leave", .nat id, .string e.tag]
  | expression id n => .array [.string "expression", .nat id, .string n.expression]
  | text id n =>
      .array [.string (if n.isComment then "comment" else "text"), .nat id, .string n.text]
  | missing id => .array [.string "missing", .nat id]

end Visit

namespace Tree

/-- The walk from a node, `fuel` steps deep.  The children of an element are met when `descend`
says so, its further branches always. -/
def walkFuel (t : Tree) (descend : Element → Bool) : (fuel : Nat) → NodeId → List Visit
  | 0, _ => []
  | fuel + 1, id =>
      match t.node? id with
      | none => [.missing id]
      | some (.text n) => [.text id n]
      | some (.expression n) => [.expression id n]
      | some (.element e) =>
          .enter id e ::
            (if descend e then e.children.flatMap (t.walkFuel descend fuel) else []) ++
            .leave id e ::
              (e.branches.drop 1).flatMap fun b => t.walkFuel descend fuel b.block

/-- The walk from a node.  No way down a tree is longer than its table. -/
def walkFrom (t : Tree) (descend : Element → Bool) (id : NodeId) : List Visit :=
  t.walkFuel descend (t.size + 1) id

/-- The walk from the root. -/
def walk (t : Tree) (descend : Element → Bool) : List Visit :=
  match t.root with
  | none => []
  | some root => t.walkFrom descend root

/-- The texts of the walk from a node. -/
def texts (t : Tree) (id : NodeId) : List String :=
  (t.walkFrom (fun _ => true) id).filterMap Visit.text?

/-- The number of elements that are rendered once and for all; what is inside them is not looked
into. -/
def staticRootCount (t : Tree) : Nat :=
  (t.walk fun e => e.staticRoot != some true).countP Visit.entersStaticRoot

/-- The numbers that a walk from a node meets and that belong to no node. -/
def missing (t : Tree) (descend : Element → Bool) (id : NodeId) : List NodeId :=
  (t.walkFrom descend id).filterMap Visit.missing?

end Tree

end Templating
