import Templating.Build.Directives
import Templating.Entity
import Templating.Markup.Scan
import Templating.Tree.Basic

/-!
**Building the tree.**

The tree grows with every event: a start tag adds an element, an end tag finishes it and attaches
it to its parent or to the conditional it belongs to, and text becomes a node of its own.

Main definitions:

* `Templating.Build.Builder` — the tree so far, with the elements that are open;
* `Templating.Build.Builder.openElement`, `Templating.Build.Builder.finishElement`,
  `Templating.Build.Builder.addText`, `Templating.Build.Builder.addComment` — what the events do;
* `Templating.Build.Builder.step` — one event;
* `Templating.Build.parse` — the tree of a template, and what there is to report.
-/

set_option autoImplicit false

namespace Templating.Build

open Expression

/-- What building a tree depends on. -/
structure Source where
  settings : Settings
  template : String
  /-- The marks around an interpolation. -/
  delimiters : Option (String × String)

/-- The tree so far. -/
structure Builder where
  tree : Tree := {}
  /-- The elements that are open, innermost first. -/
  opened : List NodeId := []
  /-- Whether an open element is rendered as it stands. -/
  inVerbatim : Bool := false
  /-- Whether blanks are kept. -/
  inPre : Bool := false
  /-- Whether a problem with the root was reported. -/
  rootReported : Bool := false
  problems : List Diagnostic := []
  deriving Repr

namespace Builder

/-! ### Reporting -/

/-- Report a problem. -/
def report (b : Builder) (d : Diagnostic) : Builder := { b with problems := b.problems ++ [d] }

/-- Report problems in order. -/
def reportAll (b : Builder) (ds : List Diagnostic) : Builder :=
  { b with problems := b.problems ++ ds }

/-- Report a problem with the root of the template, unless one was reported before. -/
def reportRoot (b : Builder) (message : String) (start : Nat) : Builder :=
  if b.rootReported then b
  else { b.report (structural message (some (.point start))) with rootReported := true }

/-- What may not be the root: an element that can stand for several. -/
def checkRoot (b : Builder) (id : NodeId) : Builder :=
  match b.tree.element? id with
  | none => b
  | some e =>
      if e.tag = "slot" ∨ e.tag = "template" then
        b.reportRoot
          ("Cannot use <" ++ e.tag ++
            "> as component root element because it may contain multiple nodes.")
          (e.start.getD 0)
      else if e.attributes.contains "v-for" then
        b.reportRoot
          ("Cannot use v-for on stateful component root element because it renders " ++
            "multiple elements.") (e.start.getD 0)
      else b

/-! ### Start tags -/

/-- Attributes that were met before, and attributes with unusable names. -/
def attributeProblems : (seen : List String) → List Markup.Attribute → List Diagnostic
  | _, [] => []
  | seen, a :: rest =>
      (if seen.contains a.name then
        [structural ("duplicate attribute: " ++ a.name) a.span] else []) ++
      (if a.name.toList.all Markup.isAttributeNameChar then []
        else
          [structural
            ("Invalid dynamic argument expression: attribute names cannot contain " ++
              "spaces, quotes, <, >, / or =.") a.span]) ++
      attributeProblems (a.name :: seen) rest

/-- Tags with side effects: styles, and scripts that hold program text. -/
def isForbidden (e : Element) : Bool :=
  e.tag == "style" ||
    (e.tag == "script" &&
      match e.attributes.get? "type" with
      | none => true
      | some type => type == "" || type == "text/javascript")

/-- A forbidden tag is reported where it starts. -/
def forbiddenProblem (tag : String) (start : Nat) : Diagnostic :=
  ⟨.forbiddenTag,
    "Templates should only be responsible for mapping the state to the UI. " ++
      "Avoid placing tags with side-effects in your templates, such as <" ++ tag ++
      ">, as they will not be parsed.", some (.point start)⟩

/-- The element of a start tag before any directive is read, and what there is to report. -/
def newElement (src : Source) (parent : Option NodeId) (tag : String)
    (attributes : List Markup.Attribute) (start stop : Nat) : Reported :=
  let e := Element.new tag attributes parent
  let e :=
    if src.settings.sourceRanges then
      { e with
        start := some start
        stop := some stop
        places := Dict.ofList (attributes.map fun a => (a.name, a)) }
    else e
  let forbidden := isForbidden e
  ({ e with forbidden },
    attributeProblems [] attributes ++ if forbidden then [forbiddenProblem tag start] else [])

/-- Add an element to the table.  An element with a condition starts a conditional. -/
def pushElement (b : Builder) (e : Element) : Builder :=
  let branches : List Branch :=
    match e.condition with
    | some exp => [⟨some exp, b.tree.size⟩]
    | none => []
  { b with tree := b.tree.push (.element { e with branches }) }

/-! ### End tags -/

/-- A text node that is a single space. -/
def isSpaceText (t : Tree) (id : NodeId) : Bool :=
  match t.node? id with
  | some (.text n) => n.text == " "
  | _ => false

/-- Spaces at the end of an element are dropped, unless blanks are kept. -/
def trimEnd (b : Builder) (id : NodeId) : Builder :=
  if b.inPre then b
  else
    { b with
      tree := b.tree.modifyElement id fun e =>
        { e with children := (e.children.reverse.dropWhile (isSpaceText b.tree)).reverse } }

/-- Read the directives of an element that is finished. -/
def readAll (src : Source) (b : Builder) (id : NodeId) : Builder :=
  if b.inVerbatim then b
  else
    match b.tree.element? id with
    | none => b
    | some e =>
        let processed :=
          readDirectives src.delimiters (b.tree.nearestLoop? (some id)).isSome e
        { b with tree := b.tree.modifyElement id fun _ => processed.1 }.reportAll processed.2

/-- Add a branch to the conditional that starts at `target`. -/
def addBranch (b : Builder) (target : NodeId) (branch : Branch) : Builder :=
  { b with
    tree := b.tree.modifyElement target fun e => { e with branches := e.branches ++ [branch] } }

/-- The text before a branch of a conditional is dropped. -/
def droppedText (t : Tree) (id : NodeId) : List Diagnostic :=
  match t.node? id with
  | none => []
  | some n =>
      let text := n.text?.getD ""
      if text = " " then []
      else
        let start :=
          match n with
          | .text n => n.start
          | .expression n => n.start
          | .element _ => none
        [structural
          ("text \"" ++ String.ofList (Text.trim text.toList) ++
            "\" between v-if and v-else(-if) will be ignored.") (start.map .point)]

/-- Whether a node is no element. -/
def isLeaf (t : Tree) (id : NodeId) : Bool := (t.element? id).isNone

/-- The last element among the children of `parent`.  What comes after it is dropped. -/
def previousElement (b : Builder) (parent : NodeId) : Option NodeId × Builder :=
  match b.tree.element? parent with
  | none => (none, b)
  | some e =>
      let dropped := e.children.reverse.takeWhile (isLeaf b.tree)
      let rest := e.children.reverse.dropWhile (isLeaf b.tree)
      (rest.head?,
        { b with
          tree := b.tree.modifyElement parent fun e =>
            { e with children := rest.reverse } }.reportAll (dropped.flatMap (droppedText b.tree)))

/-- The report of a branch without a conditional. -/
def orphanBranch (e : Element) : Diagnostic :=
  match e.elseCondition with
  | some exp =>
      structural
        ("v-else-if=\"" ++ exp ++ "\" used on element <" ++ e.tag ++
          "> without corresponding v-if.") (placeOf e "v-else-if")
  | none =>
      structural
        ("v-else used on element <" ++ e.tag ++ "> without corresponding v-if.")
        (placeOf e "v-else")

/-- Attach an element with `v-else` or `v-else-if` to the conditional before it. -/
def attachBranch (b : Builder) (parent id : NodeId) (e : Element) : Builder :=
  let found := b.previousElement parent
  let starts := (found.1.bind found.2.tree.element?).any (·.condition.isSome)
  match found.1 with
  | some prev =>
      if starts then found.2.addBranch prev ⟨e.elseCondition, id⟩
      else found.2.report (orphanBranch e)
  | none => found.2.report (orphanBranch e)

/-- The report of more than one root. -/
def multipleRoots : String :=
  "Component template should contain exactly one root element. " ++
    "If you are using v-if on multiple elements, use v-else-if to chain them instead."

/-- An element besides the root is allowed as a branch of a conditional root only. -/
def attachRoot (b : Builder) (id : NodeId) (e : Element) : Builder :=
  match b.tree.root with
  | some root =>
      if b.tree.rootElement?.any (·.condition.isSome) && (e.elseCondition.isSome || e.isElse) then
        (b.checkRoot id).addBranch root ⟨e.elseCondition, id⟩
      else b.reportRoot multipleRoots (e.start.getD 0)
  | none => b.reportRoot multipleRoots (e.start.getD 0)

/-- Attach a finished element to its parent, or to the root. -/
def attach (b : Builder) (id : NodeId) (e : Element) : Builder :=
  match b.opened with
  | [] => if b.tree.root = some id then b else b.attachRoot id e
  | parent :: _ =>
      if e.forbidden then b
      else if e.elseCondition.isSome || e.isElse then b.attachBranch parent id e
      else { b with tree := b.tree.addChild parent id }

/-- Leave the modes that an element brought about. -/
def leaveModes (src : Source) (b : Builder) (id : NodeId) : Builder :=
  match b.tree.element? id with
  | none => b
  | some e =>
      { b with
        inVerbatim := b.inVerbatim && !e.pre
        inPre := b.inPre && !src.settings.tags.isPre e.tag }

/-- Finish an element that is no longer open. -/
def finishElement (src : Source) (b : Builder) (id : NodeId) : Builder :=
  let b := (b.trimEnd id).readAll src id
  match b.tree.element? id with
  | none => b
  | some e => ((b.attach id e).trimEnd id).leaveModes src id

/-! ### Events -/

/-- A start tag adds an element. -/
def openElement (src : Source) (b : Builder) (tag : String) (attributes : List Markup.Attribute)
    (unary : Bool) (start stop : Nat) : Builder :=
  let id := b.tree.size
  let created := newElement src b.opened.head? tag attributes start stop
  let e := if b.inVerbatim then created.1 else markVerbatim created.1
  let inVerbatim := b.inVerbatim || e.pre
  let inPre := b.inPre || src.settings.tags.isPre tag
  let processed : Reported :=
    if inVerbatim then (keepVerbatim e, [])
    else
      let looped := readLoop e
      (readOnce (readCondition looped.1), looped.2)
  let b := { b with inVerbatim, inPre }.pushElement processed.1
  let b := b.reportAll (created.2 ++ processed.2)
  let b :=
    if b.tree.root.isNone then
      checkRoot { b with tree := { b.tree with root := some id } } id
    else b
  if unary then b.finishElement src id else { b with opened := id :: b.opened }

/-- An end tag finishes the innermost element. -/
def closeInnermost (src : Source) (b : Builder) (stop : Nat) : Builder :=
  match b.opened with
  | [] => b
  | id :: opened =>
      let b := { b with opened }
      let b :=
        if src.settings.sourceRanges then
          { b with tree := b.tree.modifyElement id fun e => { e with stop := some stop } }
        else b
      b.finishElement src id

/-- Whether the content of a tag is text without references. -/
def keepsReferences (tag : String) : Bool := tag == "script" || tag == "style"

/-- What is left of a text in an element with the given tag. -/
def normalizeText (src : Source) (inPre : Bool) (tag : String) (first : Bool)
    (text : String) : String :=
  let kept :=
    if inPre || !Text.isBlank text.toList then
      if keepsReferences tag then text else String.ofList (Entity.decodeContent text.toList)
    else if first then ""
    else
      match src.settings.whitespace with
      | .condense => if text.toList.any (fun c => c == '\r' || c == '\n') then "" else " "
      | .preserve => if src.settings.preserveWhitespace then " " else ""
  if !inPre && src.settings.whitespace = .condense then
    String.ofList (Text.collapse kept.toList)
  else kept

/-- Text outside of the root element. -/
def strayText (src : Source) (b : Builder) (text : String) (start : Nat) : Builder :=
  if text = src.template then
    b.reportRoot "Component template requires a root element, rather than just text." start
  else
    let trimmed := String.ofList (Text.trim text.toList)
    if trimmed = "" then b
    else b.reportRoot ("text \"" ++ trimmed ++ "\" outside root element will be ignored.") start

/-- Add a node to the table and to the children of an element. -/
def append (b : Builder) (parent : NodeId) (node : Node) : Builder :=
  { b with tree := (b.tree.push node).addChild parent b.tree.size }

/-- Text becomes a node, unless nothing is left of it or it is one of two spaces in a row. -/
def addText (src : Source) (b : Builder) (text : String) (start stop : Nat) : Builder :=
  match b.opened with
  | [] => b.strayText src text start
  | parent :: _ =>
      match b.tree.element? parent with
      | none => b
      | some e =>
          let kept := normalizeText src b.inPre e.tag e.children.isEmpty text
          if kept = "" then b
          else
            let place (n : Nat) : Option Nat := if src.settings.sourceRanges then some n else none
            let found :=
              if !b.inVerbatim && kept ≠ " " then interpolate? src.delimiters kept else none
            match found with
            | some parts =>
                b.append parent (.expression {
                  expression := concatenation parts
                  parts
                  text := kept
                  start := place start
                  stop := place stop })
            | none =>
                let afterSpace := (e.children.getLast?.bind b.tree.node?).any (·.text? = some " ")
                if kept = " " && afterSpace then b
                else
                  b.append parent (.text {
                    text := kept
                    start := place start
                    stop := place stop })

/-- A comment becomes a node. -/
def addComment (src : Source) (b : Builder) (text : String) (start stop : Nat) : Builder :=
  match b.opened with
  | [] => b
  | parent :: _ =>
      let place (n : Nat) : Option Nat := if src.settings.sourceRanges then some n else none
      b.append parent (.text { text, isComment := true, start := place start, stop := place stop })

/-- What a token does. -/
def addToken (src : Source) (b : Builder) : Markup.Token → Builder
  | .startTag name attributes unary start stop =>
      b.openElement src name attributes unary start stop
  | .endTag _ _ stop => b.closeInnermost src stop
  | .text text start stop => b.addText src text start stop
  | .comment text start stop => b.addComment src text start stop
  | .doctype .. => b

/-- What an event does. -/
def step (src : Source) (b : Builder) : Markup.Event → Builder
  | .token t => b.addToken src t
  | .problem d => b.report d

/-- The tree after all events. -/
def run (src : Source) (events : List Markup.Event) : Builder := events.foldl (step src) {}

end Builder

/-- The tree of a template, and what there is to report. -/
structure Parsed where
  tree : Tree
  problems : List Diagnostic
  deriving Repr

/-- The tree of a template.  Only unusable delimiters make this fail. -/
def parse (settings : Settings) (template : String) : Except CompileError Parsed :=
  match settings.delimiters with
  | .error e => .error e
  | .ok delimiters =>
      let b := Builder.run { settings, template, delimiters } (Markup.events settings template)
      .ok ⟨b.tree, b.problems⟩

end Templating.Build
