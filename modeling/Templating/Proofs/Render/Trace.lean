import Templating.Render.Generator

/-!
**What the generator does, step by step.**

The generator deals with an element in stages, and each stage calls for the next one.  A trace has
every stage that was gone through, when it was done, and what came of those that put the code of an
element aside.

Main definitions:

* `Templating.Render.StaticCall` — the code of an element that was put aside, and the answer;
* `Templating.Render.Step` — a stage that was gone through;
* `Templating.Render.traceWork` — the stages of one job, when others have those that it calls for;
* `Templating.Render.trace`, `Templating.Render.traceOf` — the stages of a job, and of a whole tree;
* `Templating.Render.staticCalls` — the codes that were put aside, in order.
-/

set_option autoImplicit false

namespace Templating.Render

/-- An element was put among those that are rendered once and for all. -/
structure StaticCall where
  element : NodeId
  /-- The code of the element. -/
  body : Code
  /-- The code that stands in its place. -/
  answer : Code

/-- A stage of the generator that is done. -/
inductive Step where
  /-- The code of an element was put aside. -/
  | static (call : StaticCall)
  /-- The loop of an element was opened. -/
  | loop (element : NodeId)
  /-- The conditional that starts at an element was decided. -/
  | choice (element : NodeId)
  /-- A node itself was made. -/
  | made (node : NodeId)

/-- The code that was put aside. -/
def Step.call? : Step → Option StaticCall
  | static call => some call
  | _ => none

/-- The stages of a job. -/
abbrev Tracer := Job → Generator → List Step

/-- The stages of several nodes, from left to right. -/
def traceEach (recur : Renderer) (trace : Tracer) : List NodeId → Generator → List Step
  | [], _ => []
  | id :: rest, g =>
      trace (.element id) g ++ traceEach recur trace rest (recur (.element id) g).2

/-- The stages of the children of an element. -/
def traceChildren (t : Tree) (recur : Renderer) (trace : Tracer) (e : Element) (g : Generator) :
    List Step :=
  match onlyLoop? t e with
  | some (id, _) => trace (.element id) g
  | none => traceEach recur trace e.children g

/-- The stages of an element itself.  The children of an element with an inline template are not
rendered, unless it has no rendering of its own. -/
def traceElement (t : Tree) (recur : Renderer) (trace : Tracer) (id : NodeId) (e : Element)
    (g : Generator) : List Step :=
  (if e.tag = "template" ∧ !g.verbatim then traceChildren t recur trace e g
    else if e.tag = "slot" then traceChildren t recur trace e g
    else if e.inlineTemplate then [] else traceChildren t recur trace e g) ++ [.made id]

/-- The stages of an element whose code is put aside. -/
def traceStatic (recur : Renderer) (trace : Tracer) (id : NodeId) (e : Element) (g : Generator) :
    List Step :=
  let inside := { g with staticDone := id :: g.staticDone, verbatim := g.verbatim || e.pre }
  trace (.element id) inside ++
    [.static ⟨id, (recur (.element id) inside).1, (renderStatic recur id e g).1⟩]

/-- The stages of the branches of a conditional, up to the first without a condition. -/
def traceBranches (t : Tree) (recur : Renderer) (trace : Tracer) :
    List Branch → Generator → List Step
  | [], _ => []
  | b :: rest, g =>
      trace (branchJob t b.block) g ++
        match b.condition with
        | none => []
        | some _ => traceBranches t recur trace rest (recur (branchJob t b.block) g).2

/-- The stages of the conditional that starts at an element. -/
def traceChoice (t : Tree) (recur : Renderer) (trace : Tracer) (id : NodeId) (e : Element)
    (g : Generator) : List Step :=
  traceBranches t recur trace e.branches { g with choiceDone := id :: g.choiceDone } ++
    [.choice id]

/-- The stages of the loop of an element. -/
def traceLoop (trace : Tracer) (id : NodeId) (g : Generator) : List Step :=
  trace (.element id) { g with loopDone := id :: g.loopDone } ++ [.loop id]

/-- The stages of an element that is rendered once. -/
def traceOnce (t : Tree) (recur : Renderer) (trace : Tracer) (id : NodeId) (e : Element)
    (g : Generator) : List Step :=
  let g := { g with onceDone := id :: g.onceDone }
  if e.condition.isSome && !g.choiceDone.contains id then traceChoice t recur trace id e g
  else if e.staticInFor ≠ some true then traceStatic recur trace id e g
  else trace (.element id) g

/-- The stages of one job, when `steps` has those of the jobs that it calls for. -/
def traceWork (t : Tree) (recur : Renderer) (steps : Tracer) : Tracer
  | .element id, g =>
      match t.element? id with
      | none => [.made id]
      | some e =>
          if e.staticRoot = some true ∧ !g.staticDone.contains id then
            traceStatic recur steps id e g
          else if e.once ∧ !g.onceDone.contains id then traceOnce t recur steps id e g
          else
            match (if g.loopDone.contains id then none else e.loop) with
            | some _ => traceLoop steps id g
            | none =>
                if e.condition.isSome ∧ !g.choiceDone.contains id then
                  traceChoice t recur steps id e g
                else traceElement t recur steps id e g
  | .once id, g =>
      match t.element? id with
      | none => []
      | some e => traceOnce t recur steps id e g

/-- The stages of a job, `fuel` jobs deep. -/
def trace (settings : Settings) (t : Tree) : (fuel : Nat) → Tracer
  | 0, _, _ => []
  | fuel + 1, job, g => traceWork t (run settings t fuel) (trace settings t fuel) job g

/-- The stages of the generator for a whole tree. -/
def traceOf (settings : Settings) (t : Tree) : List Step :=
  match t.root with
  | none => []
  | some root => trace settings t (fuelFor t) (.element root) {}

/-- The codes that are put aside for a whole tree, in order. -/
def staticCalls (settings : Settings) (t : Tree) : List StaticCall :=
  (traceOf settings t).filterMap Step.call?

end Templating.Render
