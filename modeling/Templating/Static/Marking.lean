import Templating.Settings
import Templating.Static.Keys
import Templating.Tag.Content
import Templating.Tree.Basic

/-!
**Marking what never changes.**

A first pass finds the nodes whose rendering never changes.  A second pass chooses among them the
elements that are worth rendering once and for all.

Main definitions:

* `Templating.Static.isStaticElement`, `Templating.Static.ownsContent` — what an element says about
  itself;
* `Templating.Static.markNodes` — the first pass;
* `Templating.Static.isRoot`, `Templating.Static.markRoots` — the second pass;
* `Templating.Static.mark` — both passes, from the root.
-/

set_option autoImplicit false

namespace Templating.Static

/-- Whether an element by itself never changes, its children aside. -/
def isStaticElement (settings : Settings) (t : Tree) (e : Element) : Bool :=
  e.pre ||
    (!e.hasBindings && e.condition.isNone && e.loop.isNone && !Tag.isBuiltIn e.tag &&
      settings.tags.isReserved e.tag && !t.inTemplateLoop e &&
      e.keysInUse.all (keys settings.staticKeys).contains)

/-- Whether a node by itself never changes. -/
def isStaticNode (settings : Settings) (t : Tree) : Node → Bool
  | .expression _ => false
  | .text _ => true
  | .element e => isStaticElement settings t e

/-- Whether the children of an element belong to a component, which decides about them. -/
def ownsContent (settings : Settings) (e : Element) : Bool :=
  !settings.tags.isReserved e.tag && e.tag != "slot" && !e.attributes.contains "inline-template"

/-- The nodes that an element depends on: its children and the further branches of its
conditional. -/
def dependents (e : Element) : List NodeId :=
  e.children ++ (e.branches.drop 1).map (·.block)

/-! ### The nodes that never change -/

/-- Mark a node and what it depends on, `fuel` steps deep; says whether the node never changes. -/
def markNodes (settings : Settings) : (fuel : Nat) → Tree → NodeId → Tree × Bool
  | 0, t, _ => (t, false)
  | fuel + 1, t, id =>
      match t.node? id with
      | none => (t, false)
      | some node =>
          let own := isStaticNode settings t node
          let below :=
            match node with
            | .element e =>
                if ownsContent settings e then (t, own)
                else
                  (dependents e).foldl
                    (fun p child =>
                      let marked := markNodes settings fuel p.1 child
                      (marked.1, p.2 && marked.2))
                    (t, own)
            | _ => (t, own)
          (below.1.modifyNode id (Node.setStatic below.2), below.2)

/-! ### The roots of what never changes -/

/-- Whether an element is a single text, which is not worth keeping. -/
def isSingleText (t : Tree) (e : Element) : Bool :=
  match e.children with
  | [child] =>
      match t.node? child with
      | some (.text _) => true
      | _ => false
  | _ => false

/-- Whether an element is rendered once and for all. -/
def isRoot (t : Tree) (e : Element) : Bool :=
  e.isStatic == some true && !e.children.isEmpty && !isSingleText t e

/-- Note of an element whether it is rendered once and for all.  `inFor` says whether it stands in a
loop, which matters when it is rendered once. -/
def noteRoot (root inFor : Bool) (e : Element) : Element :=
  { e with
    staticInFor := if e.isStatic == some true || e.once then some inFor else e.staticInFor
    staticRoot := some root }

/-- The nodes that the second pass goes on to, each with whether it stands in a loop.  The further
branches of a conditional stand outside the loop of its first element. -/
def followers (e : Element) (inFor : Bool) : List (NodeId × Bool) :=
  e.children.map (fun child => (child, inFor || e.loop.isSome)) ++
    (e.branches.drop 1).map fun branch => (branch.block, inFor)

/-- Mark an element as root or not, and the elements below one that is none, `fuel` steps deep.
`inFor` says whether the element stands in a loop. -/
def markRoots : (fuel : Nat) → Tree → NodeId → (inFor : Bool) → Tree
  | 0, t, _, _ => t
  | fuel + 1, t, id, inFor =>
      match t.element? id with
      | none => t
      | some e =>
          let root := isRoot t e
          let t := t.modifyElement id (noteRoot root inFor)
          if root then t
          else (followers e inFor).foldl (fun t next => markRoots fuel t next.1 next.2) t

/-- Mark what never changes, from the root.  No way down a tree is longer than its table. -/
def mark (settings : Settings) (t : Tree) : Tree :=
  match t.root with
  | none => t
  | some root => markRoots (t.size + 1) (markNodes settings (t.size + 1) t root).1 root false

end Templating.Static
