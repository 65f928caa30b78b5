import Templating.Render.Listener

/-!
**The data of an element in generated code.**

Main definitions:

* `Templating.Render.propertiesCode` — attributes or properties as an object;
* `Templating.Render.directiveCode` — a directive as an object;
* `Templating.Render.dataFields`, `Templating.Render.dataCode` — everything that is said about an
  element besides its tag and its children.
-/

set_option autoImplicit false

namespace Templating.Render

open Text

/-- Attributes or properties as an object. -/
def propertiesCode (props : List Property) : String :=
  let value (p : Property) : String := escapeLineSeparators p.value
  objectCode
    ((props.filter fun p => !p.dynamic).map fun p => "\"" ++ p.name ++ "\":" ++ value p)
    ((props.filter (·.dynamic)).map fun p => p.name ++ "," ++ value p)

/-- The modifiers of a directive as an object. -/
def modifiersCode (modifiers : List String) : String :=
  "\x7b" ++ join "," (modifiers.map fun m => quote m ++ ":true") ++ "\x7d"

/-- A directive as an object. -/
def directiveCode (d : Directive) : String :=
  "\x7bname:" ++ quote d.name ++ ",rawName:" ++ quote d.rawName ++
    (if d.value = "" then ""
      else ",value:(" ++ d.value ++ "),expression:" ++ quote d.value) ++
    (match d.argument with
      | none => ""
      | some arg => ",arg:" ++ if d.dynamicArgument then arg else quote arg) ++
    (if d.modifiers = [] then "" else ",modifiers:" ++ modifiersCode d.modifiers) ++ "\x7d"

/-- A field that is there when there is a value for it. -/
def field (name : String) (value : Option String) : List String :=
  match value with
  | none => []
  | some v => [name ++ ":" ++ v]

/-- A field that is there under a condition. -/
def fieldIf (condition : Bool) (code : String) : List String := if condition then [code] else []

/-- The fields of the data of an element, in their order. -/
def dataFields (e : Element) : List String :=
  fieldIf (!e.directives.isEmpty)
    ("directives:[" ++ join "," (e.directives.map directiveCode) ++ "]") ++
  field "key" e.key ++
  field "ref" e.ref ++
  fieldIf e.refInFor "refInFor:true" ++
  fieldIf e.pre "pre:true" ++
  fieldIf e.component.isSome ("tag:\"" ++ e.tag ++ "\"") ++
  field "staticClass" e.staticClass ++
  field "class" e.classBinding ++
  field "staticStyle" e.staticStyle ++
  field "style" (e.styleBinding.map fun code => "(" ++ code ++ ")") ++
  fieldIf (!e.attrs.isEmpty) ("attrs:" ++ propertiesCode e.attrs) ++
  fieldIf (!e.props.isEmpty) ("domProps:" ++ propertiesCode e.props) ++
  fieldIf (!e.events.isEmpty) (listenersCode false e.events) ++
  fieldIf (!e.nativeEvents.isEmpty) (listenersCode true e.nativeEvents)

/-- The data of an element as an object. -/
def dataCode (e : Element) : String := "\x7b" ++ join "," (dataFields e) ++ "\x7d"

end Templating.Render
