import Templating.Static.Marking

/-!
**Marking a tree with gaps.**

A tree that was put together by hand may refer to numbers that belong to no node.  Marking stops at
the first such gap that it meets and keeps the marks that it has made; an element whose dependents
were not all looked at keeps the mark that it has by itself.

Main definitions:

* `Templating.Static.nodesPresent`, `Templating.Static.rootsPresent` — whether a pass meets no gap;
* `Templating.Static.isMarkable` — whether neither pass does;
* `Templating.Static.markToGap` — both passes, up to the first gap.
-/

set_option autoImplicit false

namespace Templating.Static

/-! ### The first pass -/

/-- Whether the first pass meets no gap from a node on, `fuel` steps deep. -/
def nodesPresent (settings : Settings) (t : Tree) : (fuel : Nat) → NodeId → Bool
  | 0, _ => true
  | fuel + 1, id =>
      match t.node? id with
      | none => false
      | some (.element e) =>
          ownsContent settings e || (dependents e).all (nodesPresent settings t fuel)
      | some _ => true

/-- The first pass from a node on, up to the first gap.  The dependents before the gap are marked
completely. -/
def markNodesToGap (settings : Settings) : (fuel : Nat) → Tree → NodeId → Tree
  | 0, t, _ => t
  | fuel + 1, t, id =>
      match t.node? id with
      | none => t
      | some node =>
          let own := t.modifyNode id (Node.setStatic (isStaticNode settings t node))
          match node with
          | .element e =>
              if ownsContent settings e then own
              else
                let parts := (dependents e).span (nodesPresent settings t fuel)
                let marked := parts.1.foldl (fun t child => (markNodes settings fuel t child).1) own
                match parts.2 with
                | [] => marked
                | gap :: _ => markNodesToGap settings fuel marked gap
          | _ => own

/-! ### The second pass -/

/-- Whether an element has a single child and that is a gap.  Only then the second pass looks at a
node that is no element. -/
def hasLoneGap (t : Tree) (e : Element) : Bool :=
  match e.children with
  | [child] => (t.node? child).isNone
  | _ => false

/-- Whether the second pass meets no gap from an element on, `fuel` steps deep. -/
def rootsPresent (t : Tree) : (fuel : Nat) → NodeId → Bool
  | 0, _ => true
  | fuel + 1, id =>
      match t.element? id with
      | none => true
      | some e =>
          !hasLoneGap t e &&
            (isRoot t e || (followers e false).all fun next => rootsPresent t fuel next.1)

/-- The second pass from an element on, up to the first gap. -/
def markRootsToGap : (fuel : Nat) → Tree → NodeId → (inFor : Bool) → Tree
  | 0, t, _, _ => t
  | fuel + 1, t, id, inFor =>
      match t.element? id with
      | none => t
      | some e =>
          if hasLoneGap t e then t
          else
            let root := isRoot t e
            let noted := t.modifyElement id (noteRoot root inFor)
            if root then noted
            else
              let parts := (followers e inFor).span fun next => rootsPresent t fuel next.1
              let marked := parts.1.foldl (fun t next => markRoots fuel t next.1 next.2) noted
              match parts.2 with
              | [] => marked
              | gap :: _ => markRootsToGap fuel marked gap.1 gap.2

/-! ### Both passes -/

/-- Whether marking a tree meets no gap. -/
def isMarkable (settings : Settings) (t : Tree) : Bool :=
  match t.root with
  | none => true
  | some root =>
      nodesPresent settings t (t.size + 1) root &&
        rootsPresent (markNodes settings (t.size + 1) t root).1 (t.size + 1) root

/-- Mark what never changes, from the root and up to the first gap. -/
def markToGap (settings : Settings) (t : Tree) : Tree :=
  match t.root with
  | none => t
  | some root =>
      if nodesPresent settings t (t.size + 1) root then
        markRootsToGap (t.size + 1) (markNodes settings (t.size + 1) t root).1 root false
      else markNodesToGap settings (t.size + 1) t root

end Templating.Static
