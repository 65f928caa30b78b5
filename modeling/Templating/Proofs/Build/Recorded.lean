import Templating.Proofs.Build.Interpretation

/-!
**What plain attributes and interpolated texts are recorded as.**

Closing an element turns its plain attributes into literals: most of them become attributes to be
set, and those with a meaning of their own go where that meaning is kept.  An interpolated text is
recorded with its parts and the code for these.

Main definitions:

* `Templating.Build.plainValue?` — the value of an attribute that is not bound as well;
* `Templating.Build.classes?` — the classes that an element has for good;
* `Templating.Element.RecordsPlain` — an element with its plain attributes as literals;
* `Templating.Tree.Recorded` — a tree with its plain attributes and its interpolated texts as
  literals.

Main results:

* `Templating.Build.recordsPlain_readDirectives` — **closing an element records its plain
  attributes**;
* `Templating.Build.recorded_of_parse`, `Templating.Tree.Recorded.alike` — the tree of a template is
  recorded, and stays so when what never changes is marked in it.
-/

set_option autoImplicit false

namespace Templating

open Build Expression

/-! ### Values that are not bound -/

namespace Build

theorem take_fst (e : Element) (name : String) : (take e name).1 = e.attributes.get? name := by
  unfold take
  split
  · rename_i h
    exact h.symm
  · rename_i h
    exact h.symm

theorem attributes_take (e : Element) (name : String) :
    (take e name).2.attributes = e.attributes := by
  obtain ⟨pending, h⟩ := take_eq e name
  rw [h]

/-- The value of an attribute, unless there is a binding for it as well. -/
def plainValue? (attributes : Dict String) (name : String) : Option String :=
  if (attributes.get? (":" ++ name)).any (· ≠ "") ∨ (attributes.get? ("v-bind:" ++ name)).isSome
  then none else attributes.get? name

/-- **An attribute that is not bound** is taken as a literal. -/
theorem takeBinding_of_plainValue? {e : Element} {name v : String}
    (h : plainValue? e.attributes name = some v) :
    (takeBinding e name).1 = some (Text.quote v) := by
  unfold plainValue? at h
  split at h
  · cases h
  · rename_i hunbound
    obtain ⟨hshort, hlong⟩ := not_or.mp hunbound
    have hshort : (takeNonEmpty e (":" ++ name)).1 = none := by
      simp only [takeNonEmpty, take_fst]
      cases hget : e.attributes.get? (":" ++ name) with
      | none => rfl
      | some value => simp_all
    have hattributes : (takeNonEmpty e (":" ++ name)).2.attributes = e.attributes :=
      attributes_take e _
    have hbound : (takeBound e name).1 = none ∧
        (takeBound e name).2.attributes = e.attributes := by
      simp only [takeBound, hshort, take_fst, attributes_take, hattributes]
      simp_all
    simp only [takeBinding, hbound.1, take_fst, hbound.2, h, Option.map_some]

/-- The classes that an element has for good, with single spaces between them. -/
def classes? (attributes : Dict String) : Option String :=
  ((attributes.get? "class").map fun classes =>
    String.ofList (Text.trim (Text.collapse classes.toList))).filter (· ≠ "")

end Build

/-! ### Elements -/

/-- A field of an element that is the literal of a value, where its attributes give it one. -/
def Element.Quotes (e : Element) (value : Dict String → Option String)
    (field : Element → Option String) : Prop :=
  ∀ v, value e.attributes = some v → field e = some (Text.quote v)

/-- An element with the attributes that have a meaning of their own as literals. -/
structure Element.RecordsNamed (e : Element) : Prop where
  key : e.Quotes (plainValue? · "key") Element.key
  ref : e.Quotes (plainValue? · "ref") Element.ref
  slotName : e.tag = "slot" → e.Quotes (plainValue? · "name") Element.slotName
  component : e.Quotes (plainValue? · "is") Element.component
  staticClass : e.Quotes classes? Element.staticClass
  staticStyle : ∀ css, e.attributes.get? "style" = some css → css ≠ "" →
    e.staticStyle = some (styleCode css)

/-- **An element with its plain attributes as literals.** -/
structure Element.RecordsPlain (e : Element) : Prop extends e.RecordsNamed where
  attrs : ∀ a ∈ e.pending, (purpose a.name).1 = .plain →
    { name := a.name, value := Text.quote a.value } ∈ e.attrs

theorem Element.recordsNamed_showsIn : ShowsIn unbound RecordsNamed :=
  fun _ => ⟨fun h => { h with }, fun h => { h with }⟩

theorem Element.recordsPlain_showsIn : ShowsIn (fun e => e.core.unmarked) RecordsPlain :=
  fun _ => ⟨fun h => { h with }, fun h => { h with }⟩

namespace Build

/-- A literal is not empty, so it is never dropped. -/
theorem filter_takeBinding_of_plainValue? {e : Element} {name v : String}
    (h : plainValue? e.attributes name = some v) :
    (takeBinding e name).1.filter (· ≠ "") = some (Text.quote v) := by
  rw [takeBinding_of_plainValue? h]
  have hne : Text.quote v ≠ "" := by
    intro hempty
    have hlist := congrArg String.toList hempty
    simp [Text.quote] at hlist
  simp [hne]

/-- Taking a binding changes what is pending and nothing else. -/
theorem takeBound_eq (e : Element) (name : String) :
    ∃ pending, (takeBound e name).2 = { e with pending } := by
  simp only [takeBound]
  obtain ⟨pending, h⟩ := take_eq e (":" ++ name)
  change (takeNonEmpty e (":" ++ name)).2 = _ at h
  split
  · exact ⟨pending, h⟩
  · rw [h]
    exact take_eq { e with pending } _

theorem takeBinding_eq (e : Element) (name : String) :
    ∃ pending, (takeBinding e name).2 = { e with pending } := by
  simp only [takeBinding]
  obtain ⟨pending, h⟩ := takeBound_eq e name
  split
  · exact ⟨pending, h⟩
  · rw [h]
    exact take_eq { e with pending } _

theorem readKey_eq (e : Element) : ∃ pending key, (readKey e).1 = { e with pending, key } ∧
    ∀ v, plainValue? e.attributes "key" = some v → key = some (Text.quote v) := by
  obtain ⟨pending, h⟩ := takeBinding_eq e "key"
  simp only [readKey]
  split
  · rename_i hnone
    refine ⟨pending, e.key, h, fun v hv => ?_⟩
    rw [filter_takeBinding_of_plainValue? hv] at hnone
    cases hnone
  · rename_i code hcode
    refine ⟨pending, some code, by rw [h], fun v hv => ?_⟩
    rw [← hcode, filter_takeBinding_of_plainValue? hv]

theorem readReference_eq (inFor : Bool) (e : Element) :
    ∃ pending ref refInFor, readReference inFor e = { e with pending, ref, refInFor } ∧
      ∀ v, plainValue? e.attributes "ref" = some v → ref = some (Text.quote v) := by
  obtain ⟨pending, h⟩ := takeBinding_eq e "ref"
  simp only [readReference]
  split
  · rename_i hnone
    refine ⟨pending, e.ref, e.refInFor, h, fun v hv => ?_⟩
    rw [filter_takeBinding_of_plainValue? hv] at hnone
    cases hnone
  · rename_i code hcode
    refine ⟨pending, some code, inFor, by rw [h], fun v hv => ?_⟩
    rw [← hcode, filter_takeBinding_of_plainValue? hv]

theorem readSlot_eq (e : Element) :
    ∃ pending slotName, (readSlot e).1 = { e with pending, slotName } ∧
      (e.tag = "slot" → ∀ v, plainValue? e.attributes "name" = some v →
        slotName = some (Text.quote v)) := by
  obtain ⟨pending, h⟩ := takeBinding_eq e "name"
  simp only [readSlot]
  split
  · rename_i hother
    exact ⟨e.pending, e.slotName, rfl, fun hslot => absurd hslot hother⟩
  · refine ⟨pending, (takeBinding e "name").1, by rw [h], fun _ v hv => ?_⟩
    exact takeBinding_of_plainValue? hv

theorem readComponent_eq (e : Element) :
    ∃ pending component inlineTemplate,
      readComponent e = { e with pending, component, inlineTemplate } ∧
      ∀ v, plainValue? e.attributes "is" = some v → component = some (Text.quote v) := by
  have hinline : ∀ e' : Element, ∃ pending inlineTemplate,
      (if (take e' "inline-template").1.isSome then
        { (take e' "inline-template").2 with inlineTemplate := true }
        else (take e' "inline-template").2) = { e' with pending, inlineTemplate } := by
    intro e'
    obtain ⟨pending, h⟩ := take_eq e' "inline-template"
    rw [h]
    split
    · exact ⟨pending, true, rfl⟩
    · exact ⟨pending, e'.inlineTemplate, rfl⟩
  obtain ⟨pending, h⟩ := takeBinding_eq e "is"
  unfold readComponent
  dsimp only
  cases hcode : (takeBinding e "is").1 with
  | none =>
      dsimp only
      obtain ⟨pending', inlineTemplate, hread⟩ := hinline (takeBinding e "is").2
      refine ⟨pending', e.component, inlineTemplate, by rw [hread, h], fun v hv => ?_⟩
      rw [takeBinding_of_plainValue? hv] at hcode
      cases hcode
  | some code =>
      dsimp only
      obtain ⟨pending', inlineTemplate, hread⟩ :=
        hinline { (takeBinding e "is").2 with component := some code }
      refine ⟨pending', some code, inlineTemplate, by rw [hread, h], fun v hv => ?_⟩
      rw [← hcode, takeBinding_of_plainValue? hv]

theorem readClasses_eq (delimiters : Option (String × String)) (e : Element) :
    ∃ pending staticClass classBinding,
      (readClasses delimiters e).1 = { e with pending, staticClass, classBinding } ∧
      ∀ v, classes? e.attributes = some v → staticClass = some (Text.quote v) := by
  cases hget : e.attributes.get? "class" with
  | none =>
      have htaken : take e "class" = (none, e) := by simp only [take, hget]
      have hnone : ∀ v, classes? e.attributes = some v → e.staticClass = some (Text.quote v) := by
        intro v hv
        simp [classes?, hget] at hv
      obtain ⟨pending, hbound⟩ := takeBound_eq e "class"
      simp only [readClasses, htaken, hbound]
      split
      · exact ⟨pending, e.staticClass, e.classBinding, rfl, hnone⟩
      · exact ⟨pending, e.staticClass, some _, rfl, hnone⟩
  | some classes =>
      have htaken : take e "class" =
          (some classes, { e with pending := e.pending.eraseP (·.name = "class") }) := by
        simp only [take, hget]
      simp only [readClasses, htaken]
      generalize hcollapsed : String.ofList (Text.trim (Text.collapse classes.toList)) = collapsed
      obtain ⟨staticClass, hrecord, hquotes⟩ : ∃ staticClass,
          (if collapsed = "" then { e with pending := e.pending.eraseP (·.name = "class") }
            else { e with pending := e.pending.eraseP (·.name = "class"),
                          staticClass := some (Text.quote collapsed) }) =
            { e with pending := e.pending.eraseP (·.name = "class"), staticClass } ∧
          ∀ v, classes? e.attributes = some v → staticClass = some (Text.quote v) := by
        split
        · rename_i hempty
          refine ⟨e.staticClass, rfl, fun v hv => ?_⟩
          simp [classes?, hget, hcollapsed, hempty] at hv
        · rename_i hempty
          refine ⟨_, rfl, fun v hv => ?_⟩
          obtain ⟨rfl, -⟩ : collapsed = v ∧ v ≠ "" := by
            simpa [classes?, hget, hcollapsed, hempty] using hv
          rfl
      rw [hrecord]
      obtain ⟨pending, hbound⟩ := takeBound_eq
        { e with pending := e.pending.eraseP (·.name = "class"), staticClass } "class"
      rw [hbound]
      split
      · exact ⟨pending, staticClass, e.classBinding, rfl, hquotes⟩
      · exact ⟨pending, staticClass, some _, rfl, hquotes⟩

theorem readInlineStyle_eq (delimiters : Option (String × String)) (e : Element) :
    ∃ pending staticStyle styleBinding,
      (readInlineStyle delimiters e).1 = { e with pending, staticStyle, styleBinding } ∧
      ∀ v, e.attributes.get? "style" = some v → v ≠ "" → staticStyle = some (styleCode v) := by
  cases hget : e.attributes.get? "style" with
  | none =>
      have htaken : take e "style" = (none, e) := by simp only [take, hget]
      obtain ⟨pending, hbound⟩ := takeBound_eq e "style"
      simp only [readInlineStyle, htaken, hbound]
      split
      · exact ⟨pending, e.staticStyle, e.styleBinding, rfl, by simp⟩
      · exact ⟨pending, e.staticStyle, some _, rfl, by simp⟩
  | some css =>
      have htaken : take e "style" =
          (some css, { e with pending := e.pending.eraseP (·.name = "style") }) := by
        simp only [take, hget]
      simp only [readInlineStyle, htaken]
      obtain ⟨staticStyle, hrecord, hquotes⟩ : ∃ staticStyle,
          (if css = "" then { e with pending := e.pending.eraseP (·.name = "style") }
            else { e with pending := e.pending.eraseP (·.name = "style"),
                          staticStyle := some (styleCode css) }) =
            { e with pending := e.pending.eraseP (·.name = "style"), staticStyle } ∧
          ∀ v, some css = some v → v ≠ "" → staticStyle = some (styleCode v) := by
        split
        · rename_i hempty
          refine ⟨e.staticStyle, rfl, fun v hv hne => ?_⟩
          cases hv
          exact absurd hempty hne
        · refine ⟨_, rfl, fun v hv _ => ?_⟩
          cases hv
          rfl
      rw [hrecord]
      obtain ⟨pending, hbound⟩ := takeBound_eq
        { e with pending := e.pending.eraseP (·.name = "style"), staticStyle } "style"
      rw [hbound]
      split
      · exact ⟨pending, staticStyle, e.styleBinding, rfl, hquotes⟩
      · exact ⟨pending, staticStyle, some _, rfl, hquotes⟩

/-- What is to be set stays so while further attributes are read. -/
theorem attrs_subset_readAttribute (delimiters : Option (String × String)) (e : Element)
    (a : Markup.Attribute) : e.attrs ⊆ (readAttribute delimiters e a).1.attrs := by
  unfold readAttribute
  split
  · exact List.subset_append_left _ _
  · dsimp only
    split
    · exact List.Subset.refl _
    · exact List.subset_append_left _ _
  · dsimp only
    unfold addListener
    dsimp only
    split
    · exact List.Subset.refl _
    · exact List.Subset.refl _
  · exact List.Subset.refl _

theorem attrs_subset_readAttributes (delimiters : Option (String × String))
    (l : List Markup.Attribute) (e : Element) :
    e.attrs ⊆ (readAttributes delimiters l e).1.attrs := by
  induction l generalizing e with
  | nil => exact List.Subset.refl _
  | cons a l ih => exact List.Subset.trans (attrs_subset_readAttribute delimiters e a) (ih _)

/-- **A plain attribute** is to be set to its literal. -/
theorem mem_attrs_readAttributes (delimiters : Option (String × String))
    {l : List Markup.Attribute} {a : Markup.Attribute} (ha : a ∈ l)
    (hplain : (purpose a.name).1 = .plain) (e : Element) :
    { name := a.name, value := Text.quote a.value } ∈ (readAttributes delimiters l e).1.attrs := by
  induction l generalizing e with
  | nil => cases ha
  | cons b l ih =>
      rcases List.mem_cons.mp ha with rfl | ha
      · refine attrs_subset_readAttributes delimiters l _ ?_
        obtain ⟨modifiers, hpurpose⟩ : ∃ modifiers, purpose a.name = (.plain, modifiers) :=
          ⟨(purpose a.name).2, by rw [← hplain]⟩
        simp [readAttribute, hpurpose]
      · exact ih ha _

/-- Every stage sets fields of its own, which no later stage touches. -/
theorem recordsNamed_readNamed (delimiters : Option (String × String)) (inFor : Bool)
    (e : Element) : (readNamed delimiters inFor e).RecordsNamed := by
  unfold readNamed
  obtain ⟨_, _, hstage, hkey⟩ := readKey_eq e
  have h₁ : (markPlain (readKey e).1).Quotes (plainValue? · "key") Element.key := by
    rw [hstage]
    exact hkey
  generalize markPlain (readKey e).1 = e₁ at h₁ ⊢
  obtain ⟨_, _, _, hstage, href⟩ := readReference_eq inFor e₁
  have h₂ : (readReference inFor e₁).Quotes (plainValue? · "key") Element.key ∧
      (readReference inFor e₁).Quotes (plainValue? · "ref") Element.ref := by
    rw [hstage]
    exact ⟨h₁, href⟩
  generalize readReference inFor e₁ = e₂ at h₂ ⊢
  obtain ⟨_, _, hstage, hslot⟩ := readSlot_eq e₂
  have h₃ : ((readSlot e₂).1.Quotes (plainValue? · "key") Element.key ∧
      (readSlot e₂).1.Quotes (plainValue? · "ref") Element.ref) ∧
      ((readSlot e₂).1.tag = "slot" →
        (readSlot e₂).1.Quotes (plainValue? · "name") Element.slotName) := by
    rw [hstage]
    exact ⟨h₂, hslot⟩
  generalize (readSlot e₂).1 = e₃ at h₃ ⊢
  obtain ⟨_, _, _, hcomponent, hown⟩ := readComponent_eq e₃
  obtain ⟨_, _, _, hclasses, hclass⟩ := readClasses_eq delimiters (readComponent e₃)
  obtain ⟨_, _, _, hstyles, hstyle⟩ := readInlineStyle_eq delimiters
    (readClasses delimiters (readComponent e₃)).1
  rw [hcomponent] at hclass hclasses
  rw [hcomponent, hclasses] at hstyle hstyles
  rw [hcomponent, hclasses, hstyles]
  exact ⟨h₃.1.1, h₃.1.2, h₃.2, hown, hclass, hstyle⟩

/-- **Closing an element records its plain attributes.** -/
theorem recordsPlain_readDirectives (delimiters : Option (String × String)) (inFor : Bool)
    (e : Element) : (readDirectives delimiters inFor e).1.RecordsPlain := by
  rw [readDirectives_eq]
  have hnamed := recordsNamed_readNamed delimiters inFor e
  generalize readNamed delimiters inFor e = e' at hnamed ⊢
  have hrest := unbound_readAttributes delimiters e'.pending e'
  have hpending : (readAttributes delimiters e'.pending e').1.pending = e'.pending :=
    (congrArg Element.pending hrest :)
  refine ⟨?_, fun a ha hplain => ?_⟩
  · exact (Element.recordsNamed_showsIn.congr hrest fun _ => rfl).mpr hnamed
  · rw [hpending] at ha
    exact mem_attrs_readAttributes delimiters ha hplain e'

end Build

/-! ### Trees -/

/-- **A tree with its plain attributes and its interpolated texts as literals.** -/
structure Tree.Recorded (delimiters : Option (String × String)) (t : Tree) : Prop where
  interpolation : ∀ id n, t.node? id = some (.expression n) →
    interpolate? delimiters n.text = some n.parts ∧ n.expression = concatenation n.parts
  verbatim : ∀ id e, t.element? id = some e → t.Verbatim id →
    e.attrs = literalAttributes e.pending
  outside : ∀ id e, t.element? id = some e → ¬t.Verbatim id → e.RecordsPlain

/-- Marking what never changes leaves all of that alone. -/
theorem Tree.Recorded.alike {delimiters : Option (String × String)} {t t' : Tree}
    (h : t.Recorded delimiters) (halike : t.Alike Node.unmarked t') : t'.Recorded delimiters := by
  have hverbatim : ∀ {t t' : Tree}, t.Alike Node.unmarked t' → ∀ {id}, t.Verbatim id →
      t'.Verbatim id := by
    intro t t' halike id hid
    refine hid.congr fun k e he => ?_
    obtain ⟨e', he', hsame⟩ := halike.element? Node.element?_unmarked he
    exact ⟨e', he', (congrArg Element.parent hsame :), (congrArg Element.pre hsame :)⟩
  constructor
  case interpolation =>
    intro id n' hn'
    obtain ⟨n, hn, hsame⟩ := halike.symm.node? hn'
    cases n with
    | element => simp [Node.unmarked] at hsame
    | text => simp [Node.unmarked] at hsame
    | expression n =>
        obtain ⟨hexpression, hparts, htext, -⟩ : n.expression = n'.expression ∧
            n.parts = n'.parts ∧ n.text = n'.text ∧ n.start = n'.start ∧ n.stop = n'.stop := by
          simpa [Node.unmarked] using hsame
        rw [← hexpression, ← hparts, ← htext]
        exact h.interpolation id n hn
  case verbatim =>
    intro id e' he' hid
    obtain ⟨e, he, hsame⟩ := halike.symm.element? Node.element?_unmarked he'
    have hattrs : e.attrs = e'.attrs := (congrArg Element.attrs hsame :)
    have hpending : e.pending = e'.pending := (congrArg Element.pending hsame :)
    rw [← hattrs, ← hpending]
    exact h.verbatim id e he (hverbatim halike.symm hid)
  case outside =>
    intro id e' he' hid
    obtain ⟨e, he, hsame⟩ := halike.symm.element? Node.element?_unmarked he'
    exact (Element.recordsPlain_showsIn.congr hsame fun _ => rfl).mp
      (h.outside id e he fun hid' => hid (hverbatim halike hid'))

/-- **The tree of a template** has its plain attributes and its interpolated texts as literals. -/
theorem Build.recorded_of_parse {settings : Settings} {template : String} {parsed : Parsed}
    (h : parse settings template = .ok parsed) :
    ∃ delimiters, settings.delimiters = .ok delimiters ∧ parsed.tree.Recorded delimiters := by
  unfold parse at h
  split at h
  · cases h
  · rename_i delimiters hdelimiters
    cases h
    refine ⟨delimiters, hdelimiters, ?_⟩
    have hinvariant : Builder.Invariant ⟨settings, template, delimiters⟩ _ :=
      .of_leaf (P := fun n => ∀ m, n = .expression m →
        interpolate? delimiters m.text = some m.parts ∧ m.expression = concatenation m.parts) (by
          rintro b _ hn m rfl
          exact hn.2.2)
    have hleaves := hinvariant.run (Markup.events settings template)
    constructor
    case interpolation =>
      intro id n hn
      exact hleaves id _ hn rfl n rfl
    case verbatim =>
      intro id e he hid
      exact ((interpreted_run ⟨settings, template, delimiters⟩ he).1 hid).attrs
    case outside =>
      intro id e he hid
      obtain ⟨inFor, -, attributes, start, stop, hread⟩ :=
        (interpreted_run ⟨settings, template, delimiters⟩ he).2 hid
      rw [if_pos rfl] at hread
      exact (Element.recordsPlain_showsIn.congr hread fun _ => rfl).mpr
        (recordsPlain_readDirectives _ _ _)

end Templating
