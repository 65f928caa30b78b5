import Templating.Proofs.Build.Recorded
import Templating.Proofs.Render.Counting
import Templating.Proofs.Render.Emitted
import Templating.Proofs.Text.StringLiteral

/-!
**Literals in generated code.**

What a template says in so many words goes into generated code between double quotes, in one of
three ways.  Texts, comments and the values of attributes are escaped in full.  Segments of
interpolated texts, classes, styles and attributes with a meaning of their own are escaped as well,
but line separators stand for themselves in them.  Names of attributes, properties and events are
put between quotes as they stand.

Main definitions:

* `Templating.Render.Literal`, `Templating.Render.Literal.code` — a piece of a template and how it
  is written in code;
* `Templating.Render.Literal.Survives` — a piece whose code is its literal, on one line;
* `Templating.Render.Piece` — the literal pieces of the template that a code has;
* `Templating.Render.Appears` — how a piece appears in a compiled template.

Main results:

* `Templating.Render.Literal.isLiteralOf_iff` — what is written is the literal of the piece exactly
  when it survives;
* `Templating.Render.Piece.within` — the pieces that a code has are in its text;
* `Templating.Render.exists_compile_appears` — **every literal piece appears in the functions of a
  compiled template**, as its literal exactly when it survives.
-/

set_option autoImplicit false

namespace Templating

open Build Expression Text

namespace Render

/-! ### How a piece is written -/

/-- A literal piece of a template, by how it is written in code. -/
inductive Literal where
  /-- As a literal in which line separators are escaped. -/
  | escaped (piece : String)
  /-- As a literal in which line separators stand for themselves. -/
  | quoted (piece : String)
  /-- Between quotes, as it stands. -/
  | bare (piece : String)
  deriving Repr, DecidableEq

namespace Literal

/-- The piece itself. -/
def piece : Literal → String
  | escaped s | quoted s | bare s => s

/-- How the piece is written in code. -/
def code : Literal → String
  | escaped s => literalCode s
  | quoted s => quote s
  | bare s => Text.bare s

/-- What a piece must not have for its literal to be right. -/
def Survives : Literal → Prop
  | escaped _ => True
  | quoted s => ∀ c ∈ s.toList, ¬IsLineSeparator c
  | bare s => ∀ c ∈ s.toList, c ≠ '"' ∧ c ≠ '\\' ∧ ¬IsLineTerminator c

/-- **What is written is the literal of the piece, on one line,** exactly when it survives. -/
theorem isLiteralOf_iff (l : Literal) : IsLiteralOf l.code l.piece ↔ l.Survives := by
  cases l with
  | escaped s => exact iff_of_true (isLiteralOf_escapeLineSeparators_quote s) trivial
  | quoted s => exact isLiteralOf_quote_iff s
  | bare s => exact isLiteralOf_bare_iff s

/-- What is escaped has the right value in any case. -/
theorem stringValue?_code {l : Literal} (h : ∀ s, l ≠ bare s) :
    stringValue? l.code = some (units l.piece.toList) := by
  cases l with
  | escaped s => exact (isLiteralOf_escapeLineSeparators_quote s).value
  | quoted s => exact stringValue?_quote s
  | bare s => exact absurd rfl (h s)

end Literal

/-! ### Objects -/

theorem within_objectCode {fixed : List String} {s : String} (h : s ∈ fixed)
    (dynamic : List String) : Within s (objectCode fixed dynamic) := by
  have hobject : Within s ("\x7b" ++ join "," fixed ++ "\x7d") :=
    ((within_join h).append_left _).append_right _
  unfold objectCode
  dsimp only
  split
  · exact hobject
  · exact (((hobject.append_left _).append_right _).append_right _).append_right _

theorem name_eq_bare (name value : String) :
    "\"" ++ name ++ "\":" ++ value = Text.bare name ++ (":" ++ value) := by
  have hcolon : "\":" = "\"" ++ ":" := rfl
  rw [hcolon, Text.bare]
  simp only [String.append_assoc]

/-- A property with a fixed name has its name and its value in the code of the object. -/
theorem within_propertiesCode {props : List Property} {p : Property} (hp : p ∈ props)
    (h : p.dynamic = false) :
    Within (Text.bare p.name) (propertiesCode props) ∧
      Within (escapeLineSeparators p.value) (propertiesCode props) := by
  have hmember : Within (Text.bare p.name ++ (":" ++ escapeLineSeparators p.value))
      (propertiesCode props) := by
    rw [← name_eq_bare]
    refine within_objectCode ?_ _
    exact List.mem_map.mpr ⟨p, List.mem_filter.mpr ⟨hp, by simp [h]⟩, rfl⟩
  exact ⟨((Within.refl _).append_right _).trans hmember,
    (((Within.refl _).append_left _).append_left _).trans hmember⟩

/-- An event with a fixed name has its name in the code of the listeners. -/
theorem within_listenersCode (native : Bool) {events : Dict (List Listener)}
    {p : String × List Listener} (hp : p ∈ events.entries) (h : ∀ l ∈ p.2, l.dynamic = false) :
    Within (Text.bare p.1) (listenersCode native events) := by
  have hfixed : (!p.2.any (·.dynamic)) = true := by
    rw [Bool.not_eq_true', List.any_eq_false]
    intro l hl
    simp [h l hl]
  have hmember : Within (Text.bare p.1 ++ (":" ++ eventCode p.2))
      (listenersCode native events) := by
    rw [← name_eq_bare]
    refine Within.append_left (within_objectCode ?_ _) _
    exact List.mem_map.mpr ⟨p, List.mem_filter.mpr ⟨hp, hfixed⟩, rfl⟩
  exact ((Within.refl _).append_right _).trans hmember

/-- The members of an object whose values are strings. -/
theorem writeMembers_strings (out : String) (l : List (String × String)) :
    Json.writeMembers out (l.map fun p => (p.1, .string p.2)) =
      out ++ join "," (l.map fun p => quote p.1 ++ ":" ++ quote p.2) := by
  induction l generalizing out with
  | nil => simp [Json.writeMembers, join]
  | cons p l ih =>
      cases l with
      | nil => simp [Json.writeMembers, Json.write, join, String.append_assoc]
      | cons q l =>
          have hmembers : Json.writeMembers out ((p :: q :: l).map fun p => (p.1, .string p.2)) =
              Json.writeMembers (out ++ quote p.1 ++ ":" ++ quote p.2 ++ ",")
                ((q :: l).map fun p => (p.1, .string p.2)) := by
            simp only [List.map_cons, Json.writeMembers, Json.write]
          rw [hmembers, ih]
          simp only [List.map_cons, join, String.append_assoc]

/-- The properties of an inline style have their names and values in its code. -/
theorem within_styleCode {css : String} {p : String × String} (hp : p ∈ (styles css).entries) :
    Within (quote p.1) (styleCode css) ∧ Within (quote p.2) (styleCode css) := by
  have hcode : styleCode css = "\x7b" ++ join "," ((styles css).entries.map fun p =>
      quote p.1 ++ ":" ++ quote p.2) ++ "\x7d" := by
    simp only [styleCode, Json.text, Json.write, writeMembers_strings, String.empty_append]
  have hmember : Within (quote p.1 ++ ":" ++ quote p.2) (styleCode css) := by
    rw [hcode]
    refine Within.append_right (Within.append_left (within_join ?_) _) _
    exact List.mem_map.mpr ⟨p, hp, rfl⟩
  exact ⟨(((Within.refl _).append_right _).append_right _).trans hmember,
    ((Within.refl _).append_left _).trans hmember⟩

/-! ### The pieces of an element -/

/-- **The literal pieces of the attributes to be set on an element**: their names, where these are
no code, and the values of those that are kept as they stand. -/
inductive AttributePiece (t : Tree) (id : NodeId) (e : Element) : Literal → Prop
  | name {p : Property} (hp : p ∈ e.attrs) (h : p.dynamic = false) :
      AttributePiece t id e (.bare p.name)
  | value {a : Markup.Attribute} (ha : a ∈ e.pending)
      (h : t.Verbatim id ∨ (purpose a.name).1 = .plain) : AttributePiece t id e (.escaped a.value)

/-- **The literal pieces of the data of an element.** -/
inductive DataPiece (t : Tree) (id : NodeId) (e : Element) : Literal → Prop
  | attr {l : Literal} (h : AttributePiece t id e l) : DataPiece t id e l
  | property {p : Property} (hp : p ∈ e.props) (h : p.dynamic = false) :
      DataPiece t id e (.bare p.name)
  | event {p : String × List Listener} (hp : p ∈ e.events.entries ∨ p ∈ e.nativeEvents.entries)
      (h : ∀ l ∈ p.2, l.dynamic = false) : DataPiece t id e (.bare p.1)
  | classes {v : String} (hread : ¬t.Verbatim id) (h : classes? e.attributes = some v) :
      DataPiece t id e (.quoted v)
  | key {v : String} (hread : ¬t.Verbatim id) (h : plainValue? e.attributes "key" = some v) :
      DataPiece t id e (.quoted v)
  | ref {v : String} (hread : ¬t.Verbatim id) (h : plainValue? e.attributes "ref" = some v) :
      DataPiece t id e (.quoted v)
  | style {css : String} {p : String × String} (hread : ¬t.Verbatim id)
      (h : e.attributes.get? "style" = some css) (hp : p ∈ (styles css).entries) {s : String}
      (hs : s = p.1 ∨ s = p.2) : DataPiece t id e (.quoted s)

section Elements

variable {delimiters : Option (String × String)} {t : Tree} {id : NodeId} {e : Element}
  {l : Literal}

/-- The pieces of attributes are in the code of the attributes. -/
theorem AttributePiece.within (ht : t.Recorded delimiters) (he : t.element? id = some e)
    (h : AttributePiece t id e l) : e.attrs ≠ [] ∧ Within l.code (propertiesCode e.attrs) := by
  cases h with
  | name hp hfixed => exact ⟨List.ne_nil_of_mem hp, (within_propertiesCode hp hfixed).1⟩
  | @value a ha hkept =>
      have hmem : { name := a.name, value := quote a.value } ∈ e.attrs := by
        by_cases hid : t.Verbatim id
        · rw [ht.verbatim id e he hid]
          exact List.mem_map.mpr ⟨a, ha, rfl⟩
        · exact (ht.outside id e he hid).attrs a ha (hkept.resolve_left hid)
      exact ⟨List.ne_nil_of_mem hmem, (within_propertiesCode hmem rfl).2⟩

/-- What is in the value of a field is in the code of the data. -/
theorem within_dataCode {s name code : String} (h : name ++ code ∈ dataFields e)
    (hs : Within s code) : Within s (dataCode e) :=
  (hs.append_left name).trans (((within_join h).append_left _).append_right _)

/-- **The pieces of the data of an element are in its code.** -/
theorem DataPiece.within (ht : t.Recorded delimiters) (he : t.element? id = some e)
    (h : DataPiece t id e l) : Within l.code (dataCode e) := by
  have hfield : ∀ {name v : String} {value : Option String}, value = some v →
      field name value = [name ++ ":" ++ v] := by
    rintro name v _ rfl
    rfl
  cases h with
  | attr h =>
      obtain ⟨hne, hwithin⟩ := h.within ht he
      have hmem : "attrs:" ++ propertiesCode e.attrs ∈ dataFields e := by
        simp [dataFields, fieldIf, hne]
      exact within_dataCode hmem hwithin
  | property hp hfixed =>
      have hmem : "domProps:" ++ propertiesCode e.props ∈ dataFields e := by
        simp [dataFields, fieldIf, List.ne_nil_of_mem hp]
      exact within_dataCode hmem (within_propertiesCode hp hfixed).1
  | event hp hfixed =>
      rcases hp with hp | hp
      · have hmem : "" ++ listenersCode false e.events ∈ dataFields e := by
          simp [dataFields, fieldIf, Dict.isEmpty, List.ne_nil_of_mem hp]
        exact within_dataCode hmem (within_listenersCode false hp hfixed)
      · have hmem : "" ++ listenersCode true e.nativeEvents ∈ dataFields e := by
          simp [dataFields, fieldIf, Dict.isEmpty, List.ne_nil_of_mem hp]
        exact within_dataCode hmem (within_listenersCode true hp hfixed)
  | @classes v hread hv =>
      have hmem : "staticClass:" ++ quote v ∈ dataFields e := by
        simp [dataFields, hfield ((ht.outside id e he hread).staticClass v hv)]
      exact within_dataCode hmem (.refl _)
  | @key v hread hv =>
      have hmem : "key:" ++ quote v ∈ dataFields e := by
        simp [dataFields, hfield ((ht.outside id e he hread).key v hv)]
      exact within_dataCode hmem (.refl _)
  | @ref v hread hv =>
      have hmem : "ref:" ++ quote v ∈ dataFields e := by
        simp [dataFields, hfield ((ht.outside id e he hread).ref v hv)]
      exact within_dataCode hmem (.refl _)
  | @style css p hread hcss hp s hs =>
      have hne : css ≠ "" := by
        rintro rfl
        have hnone : (styles "").entries = [] := by decide
        rw [hnone] at hp
        cases hp
      have hmem : "staticStyle:" ++ styleCode css ∈ dataFields e := by
        simp [dataFields, hfield ((ht.outside id e he hread).staticStyle css hcss hne)]
      obtain ⟨hname, hvalue⟩ := within_styleCode hp
      rcases hs with rfl | rfl
      · exact within_dataCode hmem hname
      · exact within_dataCode hmem hvalue

end Elements

/-! ### The pieces of a code -/

namespace Code

/-- The node that a code shows as a text or as a comment. -/
def leaf? : Code → Option NodeId
  | text id _ => some id
  | comment id _ => some id
  | _ => none

/-- The element that a code creates. -/
def created? : Code → Option NodeId
  | create id .. => some id
  | _ => none

/-- The element that a code creates with data. -/
def data? : Code → Option NodeId
  | create id _ (some _) _ => some id
  | _ => none

/-- The slot that a code fills. -/
def slot? : Code → Option NodeId
  | slot id .. => some id
  | _ => none

end Code

/-- **The literal pieces of the template that a code has**, by how they are written in it: texts and
comments, the parts of interpolated texts that are no expressions, and everything about elements and
slots that is neither a binding nor code. -/
inductive Piece (delimiters : Option (String × String)) (t : Tree) (c : Code) : Literal → Prop
  | leaf {id : NodeId} {n : TextNode} (hc : c.leaf? = some id)
      (hn : t.node? id = some (.text n)) : Piece delimiters t c (.escaped n.text)
  | segment {id : NodeId} {n : ExpressionNode} {parts : List Part} {s : String}
      (hc : c.leaf? = some id) (hn : t.node? id = some (.expression n))
      (hparts : interpolate? delimiters n.text = some parts) (hs : .literal s ∈ parts) :
      Piece delimiters t c (.quoted s)
  | data {id : NodeId} {e : Element} {l : Literal} (hc : c.data? = some id)
      (he : t.element? id = some e) (h : DataPiece t id e l) : Piece delimiters t c l
  | component {id : NodeId} {e : Element} {v : String} (hc : c.created? = some id)
      (he : t.element? id = some e) (hread : ¬t.Verbatim id)
      (h : plainValue? e.attributes "is" = some v) : Piece delimiters t c (.quoted v)
  | slot {id : NodeId} {e : Element} {l : Literal} (hc : c.slot? = some id)
      (he : t.element? id = some e) (h : AttributePiece t id e l) : Piece delimiters t c l
  | slotName {id : NodeId} {e : Element} {v : String} (hc : c.slot? = some id)
      (he : t.element? id = some e) (hread : ¬t.Verbatim id)
      (h : plainValue? e.attributes "name" = some v) : Piece delimiters t c (.quoted v)

section Codes

variable {delimiters : Option (String × String)} {t : Tree} {c : Code} {l : Literal}

/-- The text of a leaf is what the leaf has to say. -/
theorem Code.Says.within_leaf (h : c.Says t) {id : NodeId} (hc : c.leaf? = some id) {code : String}
    (hcode : leafCode t id = .text id code ∨ leafCode t id = .comment id code) :
    Within code c.render := by
  cases c with
  | text k code' =>
      obtain rfl : k = id := Option.some.inj hc
      have hleaf : leafCode t k = .text k code' := h
      rw [hleaf] at hcode
      rcases hcode with hcode | hcode
      · cases hcode
        exact ((Within.refl _).append_left _).append_right _
      · cases hcode
  | comment k code' =>
      obtain rfl : k = id := Option.some.inj hc
      have hleaf : leafCode t k = .comment k code' := h
      rw [hleaf] at hcode
      rcases hcode with hcode | hcode
      · cases hcode
      · cases hcode
        exact ((Within.refl _).append_left _).append_right _
  | _ => cases hc

/-- **The pieces that a code has are in its text**, written as they are said to be. -/
theorem Piece.within (ht : t.Recorded delimiters) (hown : c.Says t)
    (h : Piece delimiters t c l) : Within l.code c.render := by
  cases h with
  | @leaf id n hc hn =>
      refine hown.within_leaf hc ?_
      simp only [leafCode, hn, Literal.code]
      split
      · exact .inr rfl
      · exact .inl rfl
  | @segment id n parts s hc hn hparts hs =>
      obtain ⟨hfound, hexpression⟩ := ht.interpolation id n hn
      obtain rfl : n.parts = parts := Option.some.inj (hfound.symm.trans hparts)
      have hwithin : Within n.expression c.render :=
        hown.within_leaf hc (.inl (by simp only [leafCode, hn]))
      rw [hexpression] at hwithin
      exact (within_join (List.mem_map.mpr ⟨_, hs, rfl⟩)).trans hwithin
  | @data id e _ hc he hpiece =>
      have hwithin := hpiece.within ht he
      cases c with
      | create k tag data children =>
          cases data with
          | none => cases hc
          | some code =>
              obtain rfl : k = id := Option.some.inj hc
              obtain ⟨e', he', hdata, -⟩ := hown
              obtain rfl : e = e' := Option.some.inj (he.symm.trans he')
              simp only [Code.render, Code.parameter, hdata code rfl]
              exact (((hwithin.append_left _).append_left _).append_right _).append_right _
      | _ => cases hc
  | @component id e v hc he hread hv =>
      cases c with
      | create k tag data children =>
          obtain rfl : k = id := Option.some.inj hc
          obtain ⟨e', he', -, htag⟩ := hown
          obtain rfl : e = e' := Option.some.inj (he.symm.trans he')
          simp only [Code.render, htag _ ((ht.outside k e he hread).component v hv)]
          exact ((((Within.refl _).append_left _).append_right _).append_right _).append_right _
      | _ => cases hc
  | @slot id e _ hc he hpiece =>
      obtain ⟨hne, hwithin⟩ := hpiece.within ht he
      cases c with
      | slot k name children properties =>
          obtain rfl : k = id := Option.some.inj hc
          obtain ⟨e', he', -, -, hproperties⟩ := hown
          obtain rfl : e = e' := Option.some.inj (he.symm.trans he')
          rw [if_neg hne] at hproperties
          simp only [Code.render, hproperties]
          exact ((hwithin.append_left _).append_left _).append_right _
      | _ => cases hc
  | @slotName id e v hc he hread hv =>
      cases c with
      | slot k name children properties =>
          obtain rfl : k = id := Option.some.inj hc
          obtain ⟨e', he', hslot, hname, -⟩ := hown
          obtain rfl : e = e' := Option.some.inj (he.symm.trans he')
          rw [(ht.outside k e he hread).slotName hslot v hv] at hname
          simp only [Code.render, hname]
          exact ((((Within.refl _).append_left _).append_right _).append_right _).append_right _
      | _ => cases hc

end Codes

/-! ### Templates -/

/-- **How a literal piece appears in a compiled template.** -/
structure Appears (compiled : Compiled) (c : Code) (l : Literal) : Prop where
  /-- It is written in the text of its code, which is in one of the functions. -/
  within : Within l.code c.render
  function : ∃ body ∈ compiled.render :: compiled.staticRenderFns, Within c.render body
  /-- What is written is the literal of the piece, on one line, exactly when the piece survives. -/
  literal : IsLiteralOf l.code l.piece ↔ l.Survives
  /-- Unless it stands between quotes as it is, its value is the piece in any case. -/
  value : (∀ s, l ≠ .bare s) → stringValue? l.code = some (units l.piece.toList)

/-- The tree of a template, marked or not, has its plain attributes and its texts as literals. -/
theorem recorded_of_compileTree {settings : Settings} {template : String} {parsed : Parsed}
    (h : compileTree settings template = .ok parsed) :
    ∃ delimiters, settings.delimiters = .ok delimiters ∧ parsed.tree.Recorded delimiters := by
  unfold compileTree at h
  split at h
  · cases h
  · rename_i plain hparse
    cases h
    obtain ⟨delimiters, hdelimiters, hrecorded⟩ := recorded_of_parse hparse
    refine ⟨delimiters, hdelimiters, ?_⟩
    split
    · exact hrecorded.alike (Static.alike_mark settings (fresh_of_parse hparse)).2
    · exact hrecorded

/-- **Literals in generated code.**  Texts, comments and the values of attributes always survive;
segments of interpolated texts, classes and what has a meaning of its own do so without line
separators, and names without quotes, backslashes and line breaks. -/
theorem exists_compile_appears (settings : Settings) (template : String)
    (hdelimiters : ∀ opening closing, settings.customDelimiters = some (opening, closing) →
      opening ≠ "" ∧ closing ≠ "") :
    ∃ delimiters compiled, settings.delimiters = .ok delimiters ∧
      compile settings template = .ok compiled ∧
      ∀ c ∈ (generate settings compiled.tree).codes, ∀ l, Piece delimiters compiled.tree c l →
        Appears compiled c l := by
  obtain ⟨parsed, hparsed, hcompiled⟩ := exists_compile settings template hdelimiters
  obtain ⟨delimiters, hchosen, hrecorded⟩ := recorded_of_compileTree hparsed
  refine ⟨delimiters, _, hchosen, hcompiled, fun c hc l hl => ?_⟩
  constructor
  case within => exact hl.within hrecorded (says_generate settings parsed.tree c hc)
  case function => exact Rendered.exists_within hc
  case literal => exact l.isLiteralOf_iff
  case value => exact fun h => Literal.stringValue?_code h

/-- An attribute with a line separator and a quote, next to a class. -/
theorem exists_compile_appears_attribute :
    ∃ delimiters compiled c, compile Settings.web "<p title='a\u2028\"' class=b>c</p>" =
        .ok compiled ∧
      c ∈ (generate Settings.web compiled.tree).codes ∧
      Piece delimiters compiled.tree c (.escaped "a\u2028\"") ∧
      Appears compiled c (.escaped "a\u2028\"") := by
  obtain ⟨delimiters, compiled, -, hcompiled, happears⟩ := exists_compile_appears Settings.web
    "<p title='a\u2028\"' class=b>c</p>" (by rintro _ _ ⟨⟩)
  have hcheck : (Except.ok compiled : Except CompileError Compiled).toOption.any (fun compiled =>
      ((generate Settings.web compiled.tree).codes.any fun c => c.data? == some 0) &&
        (compiled.tree.element? 0).any fun e => e.pending.any fun a =>
          a.value == "a\u2028\"" && (purpose a.name).1 == .plain) := by
    rw [← hcompiled]
    decide +kernel
  obtain ⟨hcodes, hpending⟩ := (Bool.and_eq_true _ _).mp hcheck
  obtain ⟨c, hc, hdata⟩ := List.any_eq_true.mp hcodes
  obtain ⟨e, he, hsome⟩ := (Option.any_eq_true _ _).mp hpending
  obtain ⟨a, ha, hboth⟩ := List.any_eq_true.mp hsome
  obtain ⟨hvalue, hplain⟩ := (Bool.and_eq_true _ _).mp hboth
  have hpiece : Piece delimiters compiled.tree c (.escaped "a\u2028\"") := by
    rw [← beq_iff_eq.mp hvalue]
    exact .data (beq_iff_eq.mp hdata) he (.attr (.value ha (.inr (beq_iff_eq.mp hplain))))
  exact ⟨delimiters, compiled, c, hcompiled, hc, hpiece, happears c hc _ hpiece⟩

/-- **Literals that do not survive**: backslashes in the names of an attribute and of an event, and
line separators in a class and in a segment of a text. -/
theorem exists_broken_literals :
    ∃ compiled, compile Settings.web
        "<p a\\b=\"c\" @d\\e=\"f\" class=\"g\u2028h\">i\u2028\x7b\x7b j \x7d\x7d</p>" =
          .ok compiled ∧
      compiled.render = "with(this)\x7breturn _c('p',\x7bstaticClass:" ++
        (Literal.quoted "g\u2028h").code ++ ",attrs:\x7b" ++ (Literal.bare "a\\b").code ++
        ":\"c\"\x7d,on:\x7b" ++ (Literal.bare "d\\e").code ++ ":f\x7d\x7d,[_v(" ++
        (Literal.quoted "i\u2028").code ++ "+_s(j))])\x7d" ∧
      ∀ l ∈ [Literal.quoted "g\u2028h", .bare "a\\b", .bare "d\\e", .quoted "i\u2028"],
        ¬IsLiteralOf l.code l.piece := by
  obtain ⟨compiled, hcompiled, hrender⟩ : ∃ compiled, compile Settings.web
      "<p a\\b=\"c\" @d\\e=\"f\" class=\"g\u2028h\">i\u2028\x7b\x7b j \x7d\x7d</p>" =
        .ok compiled ∧
      (compiled.render == "with(this)\x7breturn _c('p',\x7bstaticClass:" ++
        (Literal.quoted "g\u2028h").code ++ ",attrs:\x7b" ++ (Literal.bare "a\\b").code ++
        ":\"c\"\x7d,on:\x7b" ++ (Literal.bare "d\\e").code ++ ":f\x7d\x7d,[_v(" ++
        (Literal.quoted "i\u2028").code ++ "+_s(j))])\x7d") = true :=
    exists_compile_of_check (by decide +kernel)
  refine ⟨compiled, hcompiled, beq_iff_eq.mp hrender, fun l hl => ?_⟩
  rw [Literal.isLiteralOf_iff]
  simp only [List.mem_cons, List.not_mem_nil, or_false] at hl
  rcases hl with rfl | rfl | rfl | rfl
  · exact fun h => h '\u2028' (by decide) (.inl rfl)
  · exact fun h => (h '\\' (by decide)).2.1 rfl
  · exact fun h => (h '\\' (by decide)).2.1 rfl
  · exact fun h => h '\u2028' (by decide) (.inl rfl)

end Render

end Templating
