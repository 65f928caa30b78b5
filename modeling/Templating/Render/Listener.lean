import Templating.Text.Blank
import Templating.Text.Cut
import Templating.Text.Literal
import Templating.Text.Word
import Templating.Tree.Element

/-!
**The code of listeners.**

A listener is given by a path to a function, by a function, or by statements, and modifiers put
guards in front of it.

Main definitions:

* `Templating.Render.isPath`, `Templating.Render.isFunction`, `Templating.Render.isCall` — what the
  text of a listener is;
* `Templating.Render.guards` — the guards that modifiers ask for;
* `Templating.Render.listenerCode` — the code of a listener;
* `Templating.Render.listenersCode` — the code of all listeners of an element.
-/

set_option autoImplicit false

namespace Templating.Render

open Text

/-! ### What the text of a listener is -/

/-- What follows a name. -/
def afterName? : List Char → Option (List Char)
  | [] => none
  | c :: s => if isIdentifierStart c then some (s.dropWhile isIdentifierChar) else none

/-- What follows a text in the quotes `q` and a closing bracket. -/
def afterQuoted? (q : Char) (s : List Char) : Option (List Char) :=
  strip? [q, ']'] (s.dropWhile (· != q))

/-- What follows a number and a closing bracket. -/
def afterNumber? (s : List Char) : Option (List Char) :=
  if s.takeWhile isDecimalDigit = [] then none else strip? [']'] (s.dropWhile isDecimalDigit)

/-- What follows a step of a path: a dot and a name, or a name, a number or a quoted text in square
brackets. -/
def afterStep? : List Char → Option (List Char)
  | [] => none
  | c :: s =>
      if c = '.' then afterName? s
      else if c = '[' then
        match s with
        | [] => none
        | d :: t =>
            if d = '\x27' ∨ d = '"' then afterQuoted? d t
            else (afterNumber? s).or ((afterName? s).bind (strip? [']']))
      else none

theorem length_dropWhile_le (p : Char → Bool) (s : List Char) :
    (s.dropWhile p).length ≤ s.length := by
  have := congrArg List.length (List.takeWhile_append_dropWhile (p := p) (l := s))
  rw [List.length_append] at this
  omega

theorem length_strip? {pattern s r : List Char} (h : strip? pattern s = some r) :
    r.length ≤ s.length := by
  rw [strip?_eq_some_iff.mp h, List.length_append]
  omega

theorem length_afterName? {s r : List Char} (h : afterName? s = some r) : r.length ≤ s.length := by
  cases s with
  | nil => simp [afterName?] at h
  | cons c s =>
      simp only [afterName?] at h
      split at h
      · cases h
        have := length_dropWhile_le isIdentifierChar s
        simp only [List.length_cons]
        omega
      · cases h

/-- A step of a path takes up some characters. -/
theorem length_afterStep? {s r : List Char} (h : afterStep? s = some r) : r.length < s.length := by
  cases s with
  | nil => simp [afterStep?] at h
  | cons c s =>
      simp only [afterStep?] at h
      simp only [List.length_cons]
      split at h
      · have := length_afterName? h
        omega
      · split at h
        · split at h
          · cases h
          · rename_i d t
            split at h
            · have h₁ := length_strip? h
              have h₂ := length_dropWhile_le (· != d) t
              simp only [List.length_cons]
              omega
            · rcases Option.or_eq_some_iff.mp h with h | ⟨_, h⟩
              · unfold afterNumber? at h
                split at h
                · cases h
                · have h₁ := length_strip? h
                  have h₂ := length_dropWhile_le isDecimalDigit (d :: t)
                  omega
              · obtain ⟨u, hu, hr⟩ := Option.bind_eq_some_iff.mp h
                have h₁ := length_afterName? hu
                have h₂ := length_strip? hr
                omega
        · cases h

/-- A sequence of steps of a path. -/
def isSteps (s : List Char) : Bool :=
  match s with
  | [] => true
  | c :: t =>
      match h : afterStep? (c :: t) with
      | none => false
      | some r =>
          have := length_afterStep? h
          isSteps r
termination_by s.length
decreasing_by all_goals (simp only [List.length_cons] at *; omega)

/-- A name followed by steps: a path to a function. -/
def isPath (s : List Char) : Bool :=
  match afterName? s with
  | none => false
  | some r => isSteps r

/-- A function written with an arrow: a name or a list of parameters, and the arrow. -/
def isArrowFunction (s : List Char) : Bool :=
  let arrow (r : List Char) : Bool := startsWith ['=', '>'] (r.dropWhile isSpace)
  match s with
  | [] => false
  | c :: t =>
      if c = '(' then
        match t.dropWhile (· != ')') with
        | [] => false
        | _ :: r => arrow r
      else s.takeWhile isIdentifierChar != [] && arrow (s.dropWhile isIdentifierChar)

/-- A function written with the keyword, with or without a name. -/
def isKeywordFunction (s : List Char) : Bool :=
  match strip? "function".toList s with
  | none => false
  | some r =>
      let params (r : List Char) : Bool := startsWith ['('] (r.dropWhile isSpace)
      let name := r.dropWhile isSpace
      params r ||
        (r.takeWhile isSpace != [] && name.takeWhile isIdentifierChar != [] &&
          params (name.dropWhile isIdentifierChar))

/-- A function. -/
def isFunction (s : List Char) : Bool := isArrowFunction s || isKeywordFunction s

/-- The end of a call: arguments, a closing bracket, and semicolons. -/
def endsCall (s : List Char) : Bool :=
  match s.dropWhile (· != ')') with
  | [] => false
  | _ :: r => r.all (· == ';')

/-- The text before the first opening bracket from which a call goes to the end. -/
def beforeCall : List Char → List Char
  | [] => []
  | c :: s => if c = '(' ∧ endsCall s then [] else c :: beforeCall s

/-- A call of a function that a path leads to. -/
def isCall (s : List Char) : Bool := isPath (beforeCall s)

/-! ### Guards -/

/-- The guard of a modifier that is not a key. -/
def guard? (modifier : String) : Option String :=
  [("stop", "$event.stopPropagation();"),
    ("prevent", "$event.preventDefault();"),
    ("self", "if($event.target !== $event.currentTarget)return null;"),
    ("ctrl", "if(!$event.ctrlKey)return null;"),
    ("shift", "if(!$event.shiftKey)return null;"),
    ("alt", "if(!$event.altKey)return null;"),
    ("meta", "if(!$event.metaKey)return null;"),
    ("left", "if('button' in $event && $event.button !== 0)return null;"),
    ("middle", "if('button' in $event && $event.button !== 1)return null;"),
    ("right", "if('button' in $event && $event.button !== 2)return null;")].lookup modifier

/-- The code and the names of a key that has a name of its own. -/
def namedKey? (key : String) : Option (String × String) :=
  [("esc", "27", "[\"Esc\",\"Escape\"]"),
    ("tab", "9", "\"Tab\""),
    ("enter", "13", "\"Enter\""),
    ("space", "32", "[\" \",\"Spacebar\"]"),
    ("up", "38", "[\"Up\",\"ArrowUp\"]"),
    ("left", "37", "[\"Left\",\"ArrowLeft\"]"),
    ("right", "39", "[\"Right\",\"ArrowRight\"]"),
    ("down", "40", "[\"Down\",\"ArrowDown\"]"),
    ("delete", "[8,46]", "[\"Backspace\",\"Delete\",\"Del\"]")].lookup key

/-- The number that a text of decimal digits spells. -/
def decimal (digits : List Char) : Nat := digits.foldl (fun n c => 10 * n + (c.toNat - 48)) 0

/-- The key code that a text spells: digits, possibly after a plus sign, of a number that fits in
32 bits and is not zero. -/
def keyCode? (key : String) : Option Nat :=
  let digits := (strip? ['+'] key.toList).getD key.toList
  if digits ≠ [] ∧ digits.all Char.isDigit then
    let n := decimal digits
    if n ≠ 0 ∧ n < 4294967296 then some n else none
  else none

/-- The condition under which a key is not the given one. -/
def keyCheck (key : String) : String :=
  match keyCode? key with
  | some code => "$event.keyCode!==" ++ toString code
  | none =>
      let known := (namedKey? key).getD ("undefined", "undefined")
      "_k($event.keyCode," ++ quote key ++ "," ++ known.1 ++ ",$event.key," ++ known.2 ++ ")"

/-- The modifier keys. -/
def systemKeys : List String := ["ctrl", "shift", "alt", "meta"]

/-- The guard of `exact`: no modifier key besides the given ones is pressed. -/
def exactGuard (modifiers : List String) : String :=
  "if(" ++
    join "||" ((systemKeys.filter fun m => !modifiers.contains m).map fun m =>
      "$event." ++ m ++ "Key") ++ ")return null;"

/-- The guard that a modifier of `modifiers` brings, in their order. -/
def modifierCode (modifiers : List String) (modifier : String) : String :=
  match guard? modifier with
  | some guard => guard
  | none => if modifier = "exact" then exactGuard modifiers else ""

/-- Whether a modifier names a key. -/
def isKeyModifier (modifier : String) : Bool :=
  match guard? modifier with
  | some _ => (namedKey? modifier).isSome
  | none => modifier != "exact"

/-- The guards that modifiers ask for.  Keys are checked first. -/
def guards (modifiers : List String) : String :=
  let others := join "" (modifiers.map (modifierCode modifiers))
  let keys := modifiers.filter isKeyModifier
  if keys = [] then others
  else
    "if(!$event.type.indexOf('key')&&" ++ join "&&" (keys.map keyCheck) ++ ")return null;" ++ others

/-! ### Listeners -/

/-- The code of a listener. -/
def listenerCode (h : Listener) : String :=
  let value := h.value
  let isPath := isPath value.toList
  let isFunction := isFunction value.toList
  let isCall := isCall value.toList
  if h.modifiers = [] then
    if isPath || isFunction then value
    else if isCall then "function($event)\x7breturn " ++ value ++ "\x7d"
    else "function($event)\x7b" ++ value ++ "\x7d"
  else
    let body :=
      if isPath then "return " ++ value ++ ".apply(null, arguments)"
      else if isFunction then "return (" ++ value ++ ").apply(null, arguments)"
      else if isCall then "return " ++ value
      else value
    "function($event)\x7b" ++ guards h.modifiers ++ body ++ "\x7d"

/-- The code of the listeners of one event. -/
def eventCode (listeners : List Listener) : String :=
  match listeners with
  | [h] => listenerCode h
  | hs => "[" ++ join "," (hs.map listenerCode) ++ "]"

/-- Fixed names and their values as an object; names that are code are added to it. -/
def objectCode (fixed dynamic : List String) : String :=
  let object := "\x7b" ++ join "," fixed ++ "\x7d"
  if dynamic = [] then object else "_d(" ++ object ++ ",[" ++ join "," dynamic ++ "])"

/-- The code of all listeners of an element. -/
def listenersCode (native : Bool) (events : Dict (List Listener)) : String :=
  let isDynamic (p : String × List Listener) : Bool := p.2.any (·.dynamic)
  (if native then "nativeOn:" else "on:") ++
    objectCode
      ((events.entries.filter fun p => !isDynamic p).map fun p =>
        "\"" ++ p.1 ++ "\":" ++ eventCode p.2)
      ((events.entries.filter isDynamic).map fun p => p.1 ++ "," ++ eventCode p.2)

end Templating.Render
