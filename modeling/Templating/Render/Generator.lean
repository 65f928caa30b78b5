import Templating.Render.Code
import Templating.Render.Data
import Templating.Settings
import Templating.Tree.Basic

/-!
**Generating code.**

The code of an element is generated from the outside in: what is rendered once and for all, what is
rendered once, the loop, the conditional, and at last the element itself.  Each of these is dealt
with once for every element; what was dealt with is remembered.

Main definitions:

* `Templating.Render.Generator` — what was generated and dealt with so far;
* `Templating.Render.Job` — a node to render;
* `Templating.Render.work` — one job, when others do what it calls for;
* `Templating.Render.run` — the code of a node;
* `Templating.Render.generate` — the code of a tree.
-/

set_option autoImplicit false

namespace Templating.Render

open Text

/-- What was generated and dealt with so far. -/
structure Generator where
  /-- The codes that are rendered once and for all. -/
  hoisted : List Code := []
  /-- The elements dealt with as rendered once and for all. -/
  staticDone : List NodeId := []
  /-- The elements dealt with as rendered once. -/
  onceDone : List NodeId := []
  /-- The elements whose loop was dealt with. -/
  loopDone : List NodeId := []
  /-- The elements whose conditional was dealt with. -/
  choiceDone : List NodeId := []
  /-- The number of codes that are rendered once for every key. -/
  onceCount : Nat := 0
  /-- Whether an element around is rendered as it stands. -/
  verbatim : Bool := false
  deriving Repr

/-- A node to render. -/
inductive Job where
  /-- From the outside in. -/
  | element (id : NodeId)
  /-- An element that is rendered once. -/
  | once (id : NodeId)
  deriving Repr, DecidableEq

/-- Rendering a node. -/
abbrev Renderer := Job → Generator → Code × Generator

/-! ### Nodes without children -/

/-- A literal that may stand in code. -/
def literalCode (s : String) : String := escapeLineSeparators (quote s)

/-- The code of a node that is no element. -/
def leafCode (t : Tree) (id : NodeId) : Code :=
  match t.node? id with
  | some (.text n) =>
      if n.isComment then .comment id (literalCode n.text) else .text id (literalCode n.text)
  | some (.expression n) => .text id n.expression
  | _ => .absent

/-! ### Children -/

/-- Whether an element may be a component, whose rendering may be a list. -/
def mayBeComponent (settings : Settings) (e : Element) : Bool :=
  e.component.isSome || !settings.tags.isReserved e.tag

/-- Whether the rendering of an element is a list. -/
def rendersList (e : Element) : Bool := e.loop.isSome || e.tag == "template" || e.tag == "slot"

/-- Whether an element or a branch of its conditional has a property. -/
def anyBranch (t : Tree) (p : Element → Bool) (e : Element) : Bool :=
  p e || e.branches.any fun b => (t.element? b.block).any p

/-- How far the children have to be flattened: not at all, by one level, or completely. -/
def flattening (settings : Settings) (t : Tree) (children : List NodeId) : Nat :=
  let elements := children.filterMap t.element?
  if elements.any (anyBranch t rendersList) then 2
  else if elements.any (anyBranch t (mayBeComponent settings)) then 1
  else 0

/-- The codes of several nodes, from left to right. -/
def renderEach (recur : Renderer) : List NodeId → Generator → List Code × Generator
  | [], g => ([], g)
  | id :: rest, g =>
      let first := recur (.element id) g
      let others := renderEach recur rest first.2
      (first.1 :: others.1, others.2)

/-- The element that is the only child and is rendered in a loop, which makes a list by itself. -/
def onlyLoop? (t : Tree) (e : Element) : Option (NodeId × Element) :=
  match e.children with
  | [id] =>
      match t.element? id with
      | some child =>
          if child.loop.isSome && child.tag != "template" && child.tag != "slot" then
            some (id, child)
          else none
      | none => none
  | _ => none

/-- The code of the children of an element; `flatten` says whether flattening is asked for. -/
def renderChildren (settings : Settings) (t : Tree) (recur : Renderer) (e : Element)
    (flatten : Bool) (g : Generator) : Code × Generator :=
  match onlyLoop? t e with
  | some (id, child) =>
      let item := recur (.element id) g
      (.alone item.1
        (if flatten then some (if mayBeComponent settings child then 1 else 0) else none), item.2)
  | none =>
      if e.children = [] then (.absent, g)
      else
        let items := renderEach recur e.children g
        (.list items.1 (if flatten then flattening settings t e.children else 0), items.2)

/-! ### Elements -/

/-- The code of an element itself. -/
def renderElement (settings : Settings) (t : Tree) (recur : Renderer) (id : NodeId) (e : Element)
    (g : Generator) : Code × Generator :=
  if e.tag = "template" ∧ !g.verbatim then
    let children := renderChildren settings t recur e false g
    (.fragment id children.1, children.2)
  else if e.tag = "slot" then
    let children := renderChildren settings t recur e false g
    (.slot id (e.slotName.getD "\"default\"") children.1
      (if e.attrs = [] then none else some (propertiesCode e.attrs)), children.2)
  else
    let children :=
      if e.inlineTemplate then (.absent, g) else renderChildren settings t recur e true g
    match e.component with
    | some code => (.create id code (some (dataCode e)) children.1, children.2)
    | none =>
        let data :=
          if !e.plain || (e.pre && mayBeComponent settings e) then some (dataCode e) else none
        (.create id ("'" ++ e.tag ++ "'") data children.1, children.2)

/-- Put the code of an element among those that are rendered once and for all, and refer to it. -/
def renderStatic (recur : Renderer) (id : NodeId) (e : Element) (g : Generator) :
    Code × Generator :=
  let body := recur (.element id)
    { g with staticDone := id :: g.staticDone, verbatim := g.verbatim || e.pre }
  (.hoisted id body.2.hoisted.length (e.staticInFor == some true),
    { body.2 with hoisted := body.2.hoisted ++ [body.1], verbatim := g.verbatim })

/-- A branch of a conditional is rendered once when it says so. -/
def branchJob (t : Tree) (id : NodeId) : Job :=
  if (t.element? id).any (·.once) then .once id else .element id

/-- The branches of a conditional, up to the first without a condition. -/
def renderBranches (t : Tree) (recur : Renderer) (origin : NodeId) :
    List Branch → Generator → Code × Generator
  | [], g => (.nothing, g)
  | b :: rest, g =>
      let block := recur (branchJob t b.block) g
      match b.condition with
      | none => block
      | some exp =>
          let others := renderBranches t recur origin rest block.2
          (.choice origin exp block.1 others.1, others.2)

/-- The conditional that starts at an element. -/
def renderChoice (t : Tree) (recur : Renderer) (id : NodeId) (e : Element) (g : Generator) :
    Code × Generator :=
  renderBranches t recur id e.branches { g with choiceDone := id :: g.choiceDone }

/-- The loop of an element. -/
def renderLoop (recur : Renderer) (id : NodeId) (l : Expression.Loop) (g : Generator) :
    Code × Generator :=
  let body := recur (.element id) { g with loopDone := id :: g.loopDone }
  (.loop id l body.1, body.2)

/-- An element that is rendered once.  In a loop it is rendered once for every key of the loop, and
every time when the loop has no key. -/
def renderOnce (t : Tree) (recur : Renderer) (id : NodeId) (e : Element) (g : Generator) :
    Code × Generator :=
  let g := { g with onceDone := id :: g.onceDone }
  if e.condition.isSome && !g.choiceDone.contains id then renderChoice t recur id e g
  else if e.staticInFor ≠ some true then renderStatic recur id e g
  else
    let body := recur (.element id) g
    match (t.nearestLoop? e.parent).bind (·.key) with
    | none => body
    | some key =>
        (.keyed id body.1 body.2.onceCount key,
          { body.2 with onceCount := body.2.onceCount + 1 })

/-- One job, when `recur` does the jobs that it calls for. -/
def work (settings : Settings) (t : Tree) (recur : Renderer) : Renderer
  | .element id, g =>
      match t.element? id with
      | none => (leafCode t id, g)
      | some e =>
          if e.staticRoot = some true ∧ !g.staticDone.contains id then renderStatic recur id e g
          else if e.once ∧ !g.onceDone.contains id then renderOnce t recur id e g
          else
            match (if g.loopDone.contains id then none else e.loop) with
            | some l => renderLoop recur id l g
            | none =>
                if e.condition.isSome ∧ !g.choiceDone.contains id then
                  renderChoice t recur id e g
                else renderElement settings t recur id e g
  | .once id, g =>
      match t.element? id with
      | none => (.absent, g)
      | some e => renderOnce t recur id e g

/-- The code of a node, `fuel` jobs deep. -/
def run (settings : Settings) (t : Tree) : (fuel : Nat) → Renderer
  | 0, _, g => (.absent, g)
  | fuel + 1, job, g => work settings t (run settings t fuel) job g

/-! ### Trees -/

/-- The code of a tree: of its root, if it has one, and what is rendered once and for all. -/
structure Rendered where
  root : Option Code
  hoisted : List Code
  deriving Repr

namespace Rendered

/-- The body of the render function. -/
def render (r : Rendered) : String :=
  functionBody (match r.root with
    | none => "_c('div')"
    | some code => code.render)

/-- The bodies of the functions that are rendered once and for all, in the order of their
numbers. -/
def staticRenderFns (r : Rendered) : List String := r.hoisted.map fun c => functionBody c.render

/-- Whether the code has all its parts.  A number in the tree that belongs to no node leaves one
out. -/
def isWhole (r : Rendered) : Bool := r.root.all Code.isWhole && r.hoisted.all Code.isWhole

end Rendered

/-- A bound on the depth of jobs: no way down a tree is longer than its table, and no node is the
subject of more than eight jobs on such a way. -/
def fuelFor (t : Tree) : Nat := 8 * (t.size + 1)

/-- The code of a tree. -/
def generate (settings : Settings) (t : Tree) : Rendered :=
  match t.root with
  | none => ⟨none, []⟩
  | some root =>
      let code := run settings t (fuelFor t) (.element root) {}
      ⟨some code.1, code.2.hoisted⟩

end Templating.Render
