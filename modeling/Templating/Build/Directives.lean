import Templating.Build.AttributeName
import Templating.Expression.Style
import Templating.Text.Blank
import Templating.Tree.Element

/-!
**What the attributes of an element say.**

Every directive takes its attributes from the list of pending ones and records on the element what
they say; what no directive has taken is rendered as it stands.

Main definitions:

* `Templating.Build.take` — take an attribute from the pending ones;
* `Templating.Build.takeBinding` — take a bound attribute, or else a plain one;
* `Templating.Build.keepVerbatim`, `Templating.Build.readLoop`, `Templating.Build.readCondition`,
  `Templating.Build.readOnce` — directives that are read when an element is opened;
* `Templating.Build.readDirectives` — all others, which are read when it is closed.
-/

set_option autoImplicit false

namespace Templating.Build

open Expression

/-- An element, and what there is to report about it. -/
abbrev Reported := Element × List Diagnostic

/-- A problem with the structure of a template. -/
def structural (message : String) (span : Option Span) : Diagnostic :=
  ⟨.templateStructure, message, span⟩

/-- The place of an attribute of an element, when places are recorded. -/
def placeOf (e : Element) (name : String) : Option Span :=
  (e.places.get? name).bind Markup.Attribute.span

/-! ### Taking attributes -/

/-- The value of an attribute, and the element without it among its pending ones. -/
def take (e : Element) (name : String) : Option String × Element :=
  match e.attributes.get? name with
  | none => (none, e)
  | some value => (some value, { e with pending := e.pending.eraseP (·.name = name) })

/-- The value of an attribute that is there and not empty. -/
def takeNonEmpty (e : Element) (name : String) : Option String × Element :=
  let taken := take e name
  (taken.1.filter (· ≠ ""), taken.2)

/-- The code of a bound attribute, in its short or its long spelling. -/
def takeBound (e : Element) (name : String) : Option String × Element :=
  let short := takeNonEmpty e (":" ++ name)
  match short.1 with
  | some value => (some (filterCode value), short.2)
  | none =>
      let long := take short.2 ("v-bind:" ++ name)
      (long.1.map filterCode, long.2)

/-- The code of a bound attribute, or else the literal of a plain one. -/
def takeBinding (e : Element) (name : String) : Option String × Element :=
  let bound := takeBound e name
  match bound.1 with
  | some code => (some code, bound.2)
  | none =>
      let plain := take bound.2 name
      (plain.1.map Text.quote, plain.2)

/-! ### When an element is opened -/

/-- With `v-pre` the element is rendered as it stands. -/
def markVerbatim (e : Element) : Element :=
  let taken := take e "v-pre"
  if taken.1.isSome then { taken.2 with pre := true } else taken.2

/-- The attributes of an element that is rendered as it stands, or that is inside such a one. -/
def keepVerbatim (e : Element) : Element :=
  if e.pending ≠ [] then
    { e with attrs := e.pending.map fun a => { name := a.name, value := Text.quote a.value } }
  else if e.pre then e
  else { e with plain := true }

/-- With `v-for` the element is rendered in a loop. -/
def readLoop (e : Element) : Reported :=
  let taken := takeNonEmpty e "v-for"
  match taken.1 with
  | none => (taken.2, [])
  | some exp =>
      match loop? exp with
      | some l => ({ taken.2 with loop := some l }, [])
      | none =>
          (taken.2, [structural ("Invalid v-for expression: " ++ exp) (placeOf taken.2 "v-for")])

/-- With `v-if`, `v-else` or `v-else-if` the element is a branch of a conditional. -/
def readCondition (e : Element) : Element :=
  let taken := takeNonEmpty e "v-if"
  match taken.1 with
  | some exp => { taken.2 with condition := some exp }
  | none =>
      let otherwise := take taken.2 "v-else"
      let e := if otherwise.1.isSome then { otherwise.2 with isElse := true } else otherwise.2
      let elseIf := takeNonEmpty e "v-else-if"
      match elseIf.1 with
      | some exp => { elseIf.2 with elseCondition := some exp }
      | none => elseIf.2

/-- With `v-once` the element is rendered once. -/
def readOnce (e : Element) : Element :=
  let taken := take e "v-once"
  if taken.1.isSome then { taken.2 with once := true } else taken.2

/-! ### When an element is closed -/

/-- The key of an element among its neighbours. -/
def readKey (e : Element) : Reported :=
  let taken := takeBinding e "key"
  match taken.1.filter (· ≠ "") with
  | none => (taken.2, [])
  | some exp =>
      ({ taken.2 with key := some exp },
        if e.tag = "template" then
          [structural "<template> cannot be keyed. Place the key on real elements instead."
            ((placeOf taken.2 "key").or (placeOf taken.2 ":key"))]
        else [])

/-- Nothing but the tag is left when there is no key and no attribute. -/
def markPlain (e : Element) : Element :=
  { e with plain := e.key.isNone && e.pending.isEmpty }

/-- The name under which an element is referred to. -/
def readReference (inFor : Bool) (e : Element) : Element :=
  let taken := takeBinding e "ref"
  match taken.1.filter (· ≠ "") with
  | none => taken.2
  | some exp => { taken.2 with ref := some exp, refInFor := inFor }

/-- The name of a slot. -/
def readSlot (e : Element) : Reported :=
  if e.tag ≠ "slot" then (e, [])
  else
    let taken := takeBinding e "name"
    ({ taken.2 with slotName := taken.1 },
      if taken.2.key.isSome then
        [structural
          ("\x60key\x60 does not work on <slot> because slots are abstract outlets and can " ++
            "possibly expand into multiple elements. Use the key on a wrapping element instead.")
          (placeOf taken.2 "key")]
      else [])

/-- With `is` or `inline-template` the element is a component. -/
def readComponent (e : Element) : Element :=
  let taken := takeBinding e "is"
  let e :=
    match taken.1 with
    | some code => { taken.2 with component := some code }
    | none => taken.2
  let inline := take e "inline-template"
  if inline.1.isSome then { inline.2 with inlineTemplate := true } else inline.2

/-- A plain attribute must not hold an interpolation. -/
def interpolationProblem (delimiters : Option (String × String)) (name value : String)
    (span : Option Span) : List Diagnostic :=
  if (interpolate? delimiters value).isSome then
    [structural
      (name ++ "=\"" ++ value ++ "\": Interpolation inside attributes has been removed. " ++
        "Use v-bind or the colon shorthand instead. For example, instead of <div " ++ name ++
        "=\"\x7b\x7b val \x7d\x7d\">, use <div :" ++ name ++ "=\"val\">.") span]
  else []

/-- The classes of an element. -/
def readClasses (delimiters : Option (String × String)) (e : Element) : Reported :=
  let taken := take e "class"
  let (e, problems) : Reported :=
    match taken.1 with
    | none => (taken.2, [])
    | some classes =>
        let collapsed := String.ofList (Text.trim (Text.collapse classes.toList))
        (if collapsed = "" then taken.2
          else { taken.2 with staticClass := some (Text.quote collapsed) },
          interpolationProblem delimiters "class" classes (placeOf taken.2 "class"))
  let bound := takeBound e "class"
  match bound.1.filter (· ≠ "") with
  | none => (bound.2, problems)
  | some code => ({ bound.2 with classBinding := some code }, problems)

/-- The inline style of an element. -/
def readInlineStyle (delimiters : Option (String × String)) (e : Element) : Reported :=
  let taken := take e "style"
  let (e, problems) : Reported :=
    match taken.1 with
    | none => (taken.2, [])
    | some css =>
        (if css = "" then taken.2 else { taken.2 with staticStyle := some (styleCode css) },
          interpolationProblem delimiters "style" css (placeOf taken.2 "style"))
  let bound := takeBound e "style"
  match bound.1.filter (· ≠ "") with
  | none => (bound.2, problems)
  | some code => ({ bound.2 with styleBinding := some code }, problems)

/-! ### The remaining attributes -/

/-- Drop the first occurrence of a modifier; says whether there was one. -/
def takeModifier (modifier : String) (modifiers : List String) : Bool × List String :=
  (modifiers.contains modifier, modifiers.erase modifier)

/-- Put `marker` in front of the name of an event when it has a modifier, which is dropped. -/
def markEvent (modifier marker : String) (p : String × List String) : String × List String :=
  let taken := takeModifier modifier p.2
  if taken.1 then (marker ++ p.1, taken.2) else p

/-- The name of an event and its modifiers: mouse button modifiers rename clicks. -/
def eventName (event : String) (dynamic : Bool) (modifiers : List String) :
    String × List String :=
  if modifiers.contains "right" then
    if dynamic then
      ("(" ++ event ++ ")==='click'?'contextmenu':(" ++ event ++ ")", modifiers)
    else if event = "click" then ("contextmenu", modifiers.erase "right")
    else (event, modifiers)
  else if modifiers.contains "middle" then
    if dynamic then ("(" ++ event ++ ")==='click'?'mouseup':(" ++ event ++ ")", modifiers)
    else if event = "click" then ("mouseup", modifiers)
    else (event, modifiers)
  else (event, modifiers)

/-- Add a listener.  The modifiers `capture`, `once` and `passive` become marks in front of the
name, and `native` chooses the listeners of the root of a component. -/
def addListener (e : Element) (event value : String) (dynamic : Bool) (modifiers : List String) :
    Element :=
  let marked :=
    markEvent "passive" "&" (markEvent "once" "~" (markEvent "capture" "!" (event, modifiers)))
  let native := takeModifier "native" marked.2
  let add (d : Dict (List Listener)) : Dict (List Listener) :=
    d.alter marked.1 fun old => old.getD [] ++ [{ value, dynamic, modifiers := native.2 }]
  if native.1 then { e with nativeEvents := add e.nativeEvents, plain := false }
  else { e with events := add e.events, plain := false }

/-- The name of a bound attribute or property: modifiers may ask for camel case. -/
def boundName (name : String) (dynamic : Bool) (modifiers : List String) : String :=
  if !dynamic && (modifiers.contains "prop" || modifiers.contains "camel") then
    let camel := camelCase name
    if camel = "innerHtml" then "innerHTML" else camel
  else name

/-- What a remaining attribute puts on its element. -/
def readAttribute (delimiters : Option (String × String)) (e : Element) (a : Markup.Attribute) :
    Reported :=
  match purpose a.name with
  | (.plain, _) =>
      ({ e with attrs := e.attrs ++ [{ name := a.name, value := Text.quote a.value }],
                plain := false },
        interpolationProblem delimiters a.name a.value a.span)
  | (.binding name dynamic, modifiers) =>
      let value := filterCode a.value
      let property : Property := { name := boundName name dynamic modifiers, value, dynamic }
      let e := { e with hasBindings := true, plain := false }
      (if modifiers.contains "prop" then { e with props := e.props ++ [property] }
        else { e with attrs := e.attrs ++ [property] },
        if Text.isBlank value.toList then
          [structural
            ("The value for a v-bind expression cannot be empty. Found in \"v-bind:" ++ name ++
              "\"") a.span]
        else [])
  | (.listener event dynamic, modifiers) =>
      let named := eventName event dynamic modifiers
      (addListener { e with hasBindings := true } named.1
        (String.ofList (Text.trim a.value.toList)) dynamic named.2, [])
  | (.directive name arg, modifiers) =>
      let directive : Directive := {
        name
        rawName := a.name
        value := a.value
        argument := arg.map (·.1)
        dynamicArgument := (arg.map (·.2)).getD false
        modifiers }
      ({ e with hasBindings := true, plain := false, directives := e.directives ++ [directive] },
        [])

/-- What the remaining attributes put on their element, one after another. -/
def readAttributes (delimiters : Option (String × String)) :
    List Markup.Attribute → Element → Reported
  | [], e => (e, [])
  | a :: rest, e =>
      let first := readAttribute delimiters e a
      let others := readAttributes delimiters rest first.1
      (others.1, first.2 ++ others.2)

/-- Everything that is read when an element is closed. -/
def readDirectives (delimiters : Option (String × String)) (inFor : Bool) (e : Element) :
    Reported :=
  let keyed := readKey e
  let slot := readSlot (readReference inFor (markPlain keyed.1))
  let classed := readClasses delimiters (readComponent slot.1)
  let styled := readInlineStyle delimiters classed.1
  let rest := readAttributes delimiters styled.1.pending styled.1
  (rest.1, keyed.2 ++ slot.2 ++ classed.2 ++ styled.2 ++ rest.2)

end Templating.Build
