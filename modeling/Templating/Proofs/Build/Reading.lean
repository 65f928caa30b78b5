import Templating.Build.Directives

/-!
**What reading directives leaves alone.**

Some directives are read when an element is opened and all others when it is closed.  Either time
only certain fields of the element change; everything else is the same before and after.

Main definitions:

* `Templating.Element.unopened` — an element without what is read when it is opened, `v-pre` aside;
* `Templating.Element.unclosed` — an element without what is read when it is closed;
* `Templating.Build.literalAttributes` — attributes that are kept as they stand;
* `Templating.Build.readNamed` — what is read first when an element is closed.

Main results:

* `Templating.Build.markVerbatim_eq`, `Templating.Build.keepVerbatim_eq`,
  `Templating.Build.unopened_readLoop`, `Templating.Build.unopened_readCondition`,
  `Templating.Build.unopened_readOnce` — opening an element changes nothing else;
* `Templating.Build.unclosed_readDirectives` — **closing an element changes nothing else**.
-/

set_option autoImplicit false

namespace Templating

/-- An element without what is read when it is opened, `v-pre` aside. -/
def Element.unopened (e : Element) : Element :=
  { e with
    pending := []
    loop := none
    condition := none
    elseCondition := none
    isElse := false
    once := false }

/-- An element without what the attributes with a meaning of their own say, which are read first
when it is closed. -/
def Element.unnamed (e : Element) : Element :=
  { e with
    pending := []
    plain := false
    key := none
    ref := none
    refInFor := false
    component := none
    inlineTemplate := false
    slotName := none
    staticClass := none
    classBinding := none
    staticStyle := none
    styleBinding := none }

/-- An element without what the remaining attributes say, which are read last when it is closed. -/
def Element.unbound (e : Element) : Element :=
  { e with
    plain := false
    hasBindings := false
    attrs := []
    props := []
    events := ∅
    nativeEvents := ∅
    directives := [] }

/-- An element without what is read when it is closed. -/
def Element.unclosed (e : Element) : Element := e.unnamed.unbound

theorem Element.unclosed_eq (e : Element) : e.unclosed = e.unbound.unnamed := rfl

namespace Build

/-! ### Taking attributes -/

/-- Taking an attribute changes what is pending and nothing else. -/
theorem take_eq (e : Element) (name : String) :
    ∃ pending, (take e name).2 = { e with pending } := by
  unfold take
  split
  · exact ⟨e.pending, rfl⟩
  · exact ⟨_, rfl⟩

@[simp] theorem unopened_take (e : Element) (name : String) :
    (take e name).2.unopened = e.unopened := by
  obtain ⟨pending, h⟩ := take_eq e name
  rw [h]
  rfl

@[simp] theorem unopened_takeNonEmpty (e : Element) (name : String) :
    (takeNonEmpty e name).2.unopened = e.unopened := unopened_take e name

@[simp] theorem unnamed_take (e : Element) (name : String) :
    (take e name).2.unnamed = e.unnamed := by
  obtain ⟨pending, h⟩ := take_eq e name
  rw [h]
  rfl

@[simp] theorem unnamed_takeBound (e : Element) (name : String) :
    (takeBound e name).2.unnamed = e.unnamed := by
  have hshort : (takeNonEmpty e (":" ++ name)).2.unnamed = e.unnamed := unnamed_take e _
  simp only [takeBound]
  split
  · exact hshort
  · rw [unnamed_take, hshort]

@[simp] theorem unnamed_takeBinding (e : Element) (name : String) :
    (takeBinding e name).2.unnamed = e.unnamed := by
  simp only [takeBinding]
  split
  · exact unnamed_takeBound e name
  · rw [unnamed_take, unnamed_takeBound]

/-! ### Opening an element -/

theorem markVerbatim_eq (e : Element) :
    ∃ pending pre, markVerbatim e = { e with pending, pre } := by
  obtain ⟨pending, h⟩ := take_eq e "v-pre"
  simp only [markVerbatim, h]
  split
  · exact ⟨pending, true, rfl⟩
  · exact ⟨pending, e.pre, rfl⟩

/-- The pending attributes as they are rendered when they are kept as they stand. -/
def literalAttributes (pending : List Markup.Attribute) : List Property :=
  pending.map fun a => { name := a.name, value := Text.quote a.value }

theorem dynamic_of_mem_literalAttributes {pending : List Markup.Attribute} {a : Property}
    (h : a ∈ literalAttributes pending) : a.dynamic = false := by
  obtain ⟨_, _, rfl⟩ := List.mem_map.mp h
  rfl

/-- What is kept as it stands gets its pending attributes. -/
theorem keepVerbatim_eq (e : Element) :
    ∃ attrs plain, keepVerbatim e = { e with attrs, plain } ∧
      (e.attrs = [] → attrs = literalAttributes e.pending) := by
  unfold keepVerbatim
  split
  · exact ⟨_, e.plain, rfl, fun _ => rfl⟩
  · rename_i h
    have hpending : e.pending = [] := by simpa using h
    have hnone : e.attrs = [] → e.attrs = literalAttributes e.pending := by
      intro hattrs
      rw [hattrs, hpending]
      rfl
    split
    · exact ⟨e.attrs, e.plain, rfl, hnone⟩
    · exact ⟨e.attrs, true, rfl, hnone⟩

@[simp] theorem unopened_readLoop (e : Element) : (readLoop e).1.unopened = e.unopened := by
  rw [← unopened_takeNonEmpty e "v-for"]
  simp only [readLoop]
  split
  · rfl
  · split <;> rfl

@[simp] theorem unopened_readCondition (e : Element) :
    (readCondition e).unopened = e.unopened := by
  simp only [readCondition]
  refine Eq.trans ?_ (unopened_takeNonEmpty e "v-if")
  split
  · rfl
  · refine Eq.trans ?_ (unopened_take (takeNonEmpty e "v-if").2 "v-else")
    generalize take (takeNonEmpty e "v-if").2 "v-else" = otherwise
    have hisElse : (if otherwise.1.isSome then { otherwise.2 with isElse := true }
        else otherwise.2).unopened = otherwise.2.unopened := by
      split <;> rfl
    refine Eq.trans ?_ hisElse
    generalize (if otherwise.1.isSome then { otherwise.2 with isElse := true }
      else otherwise.2) = e'
    refine Eq.trans ?_ (unopened_takeNonEmpty e' "v-else-if")
    split <;> rfl

@[simp] theorem unopened_readOnce (e : Element) : (readOnce e).unopened = e.unopened := by
  rw [← unopened_take e "v-once"]
  simp only [readOnce]
  split <;> rfl

/-! ### Closing an element -/

theorem unnamed_readKey (e : Element) : (readKey e).1.unnamed = e.unnamed := by
  rw [← unnamed_takeBinding e "key"]
  simp only [readKey]
  split <;> rfl

theorem unnamed_markPlain (e : Element) : (markPlain e).unnamed = e.unnamed := rfl

theorem unnamed_readReference (inFor : Bool) (e : Element) :
    (readReference inFor e).unnamed = e.unnamed := by
  rw [← unnamed_takeBinding e "ref"]
  simp only [readReference]
  split <;> rfl

theorem unnamed_readSlot (e : Element) : (readSlot e).1.unnamed = e.unnamed := by
  simp only [readSlot]
  split
  · rfl
  · rw [← unnamed_takeBinding e "name"]
    rfl

theorem unnamed_readComponent (e : Element) : (readComponent e).unnamed = e.unnamed := by
  have hinline : ∀ e' : Element, (if (take e' "inline-template").1.isSome then
      { (take e' "inline-template").2 with inlineTemplate := true }
      else (take e' "inline-template").2).unnamed = e'.unnamed := by
    intro e'
    refine Eq.trans ?_ (unnamed_take e' "inline-template")
    split <;> rfl
  refine Eq.trans ?_ (unnamed_takeBinding e "is")
  unfold readComponent
  dsimp only
  rw [hinline]
  split <;> rfl

/-- A bound attribute, recorded by `set` unless it is empty. -/
theorem unnamed_bind (r : Reported) (name : String) (set : Element → String → Element)
    (hset : ∀ e code, (set e code).unnamed = e.unnamed) :
    (match (takeBound r.1 name).1.filter (· ≠ "") with
      | none => ((takeBound r.1 name).2, r.2)
      | some code => (set (takeBound r.1 name).2 code, r.2)).1.unnamed = r.1.unnamed := by
  refine Eq.trans ?_ (unnamed_takeBound r.1 name)
  split
  · rfl
  · exact hset _ _

theorem unnamed_readClasses (delimiters : Option (String × String)) (e : Element) :
    (readClasses delimiters e).1.unnamed = e.unnamed := by
  refine (unnamed_bind _ "class" (fun e code => { e with classBinding := some code })
    (fun _ _ => rfl)).trans (Eq.trans ?_ (unnamed_take e "class"))
  dsimp only
  split
  · rfl
  · dsimp only
    split <;> rfl

theorem unnamed_readInlineStyle (delimiters : Option (String × String)) (e : Element) :
    (readInlineStyle delimiters e).1.unnamed = e.unnamed := by
  refine (unnamed_bind _ "style" (fun e code => { e with styleBinding := some code })
    (fun _ _ => rfl)).trans (Eq.trans ?_ (unnamed_take e "style"))
  dsimp only
  split
  · rfl
  · dsimp only
    split <;> rfl

theorem unbound_addListener (e : Element) (event value : String) (dynamic : Bool)
    (modifiers : List String) :
    (addListener e event value dynamic modifiers).unbound = e.unbound := by
  simp only [addListener]
  split <;> rfl

theorem unbound_readAttribute (delimiters : Option (String × String)) (e : Element)
    (a : Markup.Attribute) : (readAttribute delimiters e a).1.unbound = e.unbound := by
  unfold readAttribute
  split
  · rfl
  · dsimp only
    split <;> rfl
  · exact unbound_addListener _ _ _ _ _
  · rfl

theorem unbound_readAttributes (delimiters : Option (String × String))
    (l : List Markup.Attribute) (e : Element) :
    (readAttributes delimiters l e).1.unbound = e.unbound := by
  induction l generalizing e with
  | nil => rfl
  | cons a l ih => exact (ih _).trans (unbound_readAttribute delimiters e a)

/-- The attributes with a meaning of their own, which are read first when an element is closed. -/
def readNamed (delimiters : Option (String × String)) (inFor : Bool) (e : Element) : Element :=
  (readInlineStyle delimiters (readClasses delimiters (readComponent (readSlot (readReference inFor
    (markPlain (readKey e).1))).1)).1).1

theorem readDirectives_eq (delimiters : Option (String × String)) (inFor : Bool) (e : Element) :
    (readDirectives delimiters inFor e).1 =
      (readAttributes delimiters (readNamed delimiters inFor e).pending
        (readNamed delimiters inFor e)).1 := by
  simp only [readDirectives, readNamed]

theorem unnamed_readNamed (delimiters : Option (String × String)) (inFor : Bool) (e : Element) :
    (readNamed delimiters inFor e).unnamed = e.unnamed := by
  rw [readNamed, unnamed_readInlineStyle, unnamed_readClasses, unnamed_readComponent,
    unnamed_readSlot, unnamed_readReference, unnamed_markPlain, unnamed_readKey]

/-- **Closing an element** changes what is read then and nothing else. -/
theorem unclosed_readDirectives (delimiters : Option (String × String)) (inFor : Bool)
    (e : Element) : (readDirectives delimiters inFor e).1.unclosed = e.unclosed := by
  rw [readDirectives_eq, Element.unclosed_eq, unbound_readAttributes, ← Element.unclosed_eq,
    Element.unclosed, unnamed_readNamed, ← Element.unclosed]

end Build

end Templating
