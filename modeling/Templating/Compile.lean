import Templating.Build.Builder
import Templating.Render.Generator
import Templating.Static.Marking
import Templating.Tree.Json
import Templating.Tree.Walk

/-!
**Compiling templates.**

A template is compiled in three steps: its tree is built, what never changes is marked in it, and
code is generated from it.

Main definitions:

* `Templating.Compiled` — a compiled template;
* `Templating.compileTree` — the tree of a template, marked as the settings say;
* `Templating.compile`, `Templating.compileAll` — compiling one template, and several.
-/

set_option autoImplicit false

namespace Templating

/-- The tree of a template without the spaces around it, marked when the settings ask for it. -/
def compileTree (settings : Settings) (template : String) : Except CompileError Build.Parsed :=
  match Build.parse settings (String.ofList (Text.trim template.toList)) with
  | .error e => .error e
  | .ok parsed =>
      .ok (if settings.optimize then
        { parsed with tree := Static.mark settings parsed.tree } else parsed)

/-- A compiled template. -/
structure Compiled where
  tree : Tree
  render : String
  staticRenderFns : List String
  problems : List Diagnostic
  deriving Repr

namespace Compiled

/-- A compiled template as JSON. -/
def json (c : Compiled) : Json :=
  .object [("ast", c.tree.json), ("render", .string c.render),
    ("staticRenderFns", .strings c.staticRenderFns),
    ("warnings", .array (c.problems.map Diagnostic.json))]

end Compiled

/-- Compile a template. -/
def compile (settings : Settings) (template : String) : Except CompileError Compiled :=
  match compileTree settings template with
  | .error e => .error e
  | .ok parsed =>
      let code := Render.generate settings parsed.tree
      .ok {
        tree := parsed.tree
        render := code.render
        staticRenderFns := code.staticRenderFns
        problems := parsed.problems }

/-- Compile several templates, each on its own. -/
def compileAll (settings : Settings) (templates : List String) :
    List (Except CompileError Compiled) :=
  templates.map (compile settings)

end Templating
