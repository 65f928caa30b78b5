import Templating.Proofs.Build.Reading

/-!
**Which attributes directives take.**

A directive takes attributes with names of its own from those that are pending and leaves all others
there, in their order.  So whatever depends on other attributes only is the same before and after.

Main definitions:

* `Templating.Element.Takes` — an element before and after attributes with some names were taken;
* `Templating.Build.openingNames`, `Templating.Build.namedNames` — the names that are taken when an
  element is opened, and first when it is closed.

Main results:

* `Templating.Build.takes_readOpening` — opening an element takes attributes with these names only;
* `Templating.Build.takes_readNamed` — **so does what is read first when it is closed**.
-/

set_option autoImplicit false

namespace Templating

open Build

/-- An element before and after some of its attributes with the given names were taken. -/
def Element.Takes (names : List String) (e e' : Element) : Prop :=
  e'.attributes = e.attributes ∧
    e'.pending.filter (·.name ∉ names) = e.pending.filter (·.name ∉ names)

namespace Element.Takes

variable {names : List String} {e e' e'' : Element}

theorem refl (names : List String) (e : Element) : e.Takes names e := ⟨rfl, rfl⟩

theorem trans (h : e.Takes names e') (h' : e'.Takes names e'') : e.Takes names e'' :=
  ⟨h'.1.trans h.1, h'.2.trans h.2⟩

/-- An attribute with another name is still pending. -/
theorem mem_pending (h : e.Takes names e') {a : Markup.Attribute} (ha : a ∈ e.pending)
    (hname : a.name ∉ names) : a ∈ e'.pending := by
  have hfilter : a ∈ e'.pending.filter (·.name ∉ names) := by
    rw [h.2]
    exact List.mem_filter.mpr ⟨ha, by simpa using hname⟩
  exact (List.mem_filter.mp hfilter).1

end Element.Takes

namespace Build

variable {names : List String}

/-! ### Taking single attributes -/

theorem takes_take (e : Element) {name : String} (h : name ∈ names) :
    e.Takes names (take e name).2 := by
  unfold take
  split
  · exact .refl names e
  · refine ⟨rfl, ?_⟩
    dsimp only
    induction e.pending with
    | nil => rfl
    | cons a l ih =>
        by_cases hname : a.name = name
        · simp [hname, h]
        · rw [List.eraseP_cons_of_neg (by simpa using hname), List.filter_cons, ih,
            List.filter_cons]

theorem takes_takeBound (e : Element) {name : String} (hshort : ":" ++ name ∈ names)
    (hlong : "v-bind:" ++ name ∈ names) : e.Takes names (takeBound e name).2 := by
  have htaken : e.Takes names (takeNonEmpty e (":" ++ name)).2 := takes_take e hshort
  simp only [takeBound]
  split
  · exact htaken
  · exact htaken.trans (takes_take _ hlong)

theorem takes_takeBinding (e : Element) {name : String} (hshort : ":" ++ name ∈ names)
    (hlong : "v-bind:" ++ name ∈ names) (hplain : name ∈ names) :
    e.Takes names (takeBinding e name).2 := by
  have hbound := takes_takeBound e hshort hlong
  simp only [takeBinding]
  split
  · exact hbound
  · exact hbound.trans (takes_take _ hplain)

/-! ### When an element is opened -/

/-- The names of the attributes that are read when an element is opened. -/
def openingNames : List String := ["v-for", "v-if", "v-else", "v-else-if", "v-once"]

theorem takes_readLoop (e : Element) (h : openingNames ⊆ names) :
    e.Takes names (readLoop e).1 := by
  have htaken : e.Takes names (takeNonEmpty e "v-for").2 := takes_take e (h (by decide))
  simp only [readLoop]
  split
  · exact htaken
  · split
    · exact htaken
    · exact htaken

theorem takes_readCondition (e : Element) (h : openingNames ⊆ names) :
    e.Takes names (readCondition e) := by
  have htaken : e.Takes names (takeNonEmpty e "v-if").2 := takes_take e (h (by decide))
  simp only [readCondition]
  split
  · exact htaken
  · have hotherwise : e.Takes names (take (takeNonEmpty e "v-if").2 "v-else").2 :=
      htaken.trans (takes_take _ (h (by decide)))
    generalize take (takeNonEmpty e "v-if").2 "v-else" = otherwise at hotherwise ⊢
    have helse : e.Takes names (if otherwise.1.isSome then { otherwise.2 with isElse := true }
        else otherwise.2) := by
      split
      · exact hotherwise
      · exact hotherwise
    have helseIf := helse.trans (takes_take _ (h (by decide : "v-else-if" ∈ openingNames)))
    split
    · exact helseIf
    · exact helseIf

/-- **Opening an element** takes attributes with these names only. -/
theorem takes_readOpening (e : Element) (h : openingNames ⊆ names) :
    e.Takes names (readOnce (readCondition (readLoop e).1)) := by
  have hread := (takes_readLoop e h).trans (takes_readCondition _ h)
  have htaken := hread.trans (takes_take _ (h (by decide : "v-once" ∈ openingNames)))
  simp only [readOnce]
  split
  · exact htaken
  · exact htaken

/-! ### When an element is closed -/

/-- The names of the attributes that give the key of an element. -/
def keyNames : List String := [":key", "v-bind:key", "key"]

theorem takes_readKey (e : Element) (h : keyNames ⊆ names) : e.Takes names (readKey e).1 := by
  have htaken : e.Takes names (takeBinding e "key").2 :=
    takes_takeBinding e (h (by decide)) (h (by decide)) (h (by decide))
  simp only [readKey]
  split
  · exact htaken
  · exact htaken

/-- The names of the attributes that are read first when an element is closed. -/
def namedNames : List String :=
  keyNames ++ [":ref", "v-bind:ref", "ref", ":name", "v-bind:name", "name", ":is", "v-bind:is",
    "is", "inline-template", "class", ":class", "v-bind:class", "style", ":style", "v-bind:style"]

theorem takes_readReference (inFor : Bool) (e : Element) :
    e.Takes namedNames (readReference inFor e) := by
  have htaken : e.Takes namedNames (takeBinding e "ref").2 :=
    takes_takeBinding e (by decide) (by decide) (by decide)
  simp only [readReference]
  split
  · exact htaken
  · exact htaken

theorem takes_readSlot (e : Element) : e.Takes namedNames (readSlot e).1 := by
  have htaken : e.Takes namedNames (takeBinding e "name").2 :=
    takes_takeBinding e (by decide) (by decide) (by decide)
  simp only [readSlot]
  split
  · exact .refl _ e
  · exact htaken

theorem takes_readComponent (e : Element) : e.Takes namedNames (readComponent e) := by
  have htaken : e.Takes namedNames (takeBinding e "is").2 :=
    takes_takeBinding e (by decide) (by decide) (by decide)
  have hinline : ∀ e' : Element, e'.Takes namedNames
      (if (take e' "inline-template").1.isSome then
        { (take e' "inline-template").2 with inlineTemplate := true }
        else (take e' "inline-template").2) := by
    intro e'
    have htaken := takes_take e' (by decide : "inline-template" ∈ namedNames)
    split
    · exact htaken
    · exact htaken
  simp only [readComponent]
  refine Element.Takes.trans ?_ (hinline _)
  split
  · exact htaken
  · exact htaken

theorem takes_readClasses (delimiters : Option (String × String)) (e : Element) :
    e.Takes namedNames (readClasses delimiters e).1 := by
  have htaken := takes_take e (by decide : "class" ∈ namedNames)
  have hbound : ∀ e' : Element, e'.Takes namedNames (takeBound e' "class").2 :=
    fun e' => takes_takeBound e' (by decide) (by decide)
  simp only [readClasses]
  cases (take e "class").1 with
  | none =>
      dsimp only
      split
      · exact htaken.trans (hbound _)
      · exact htaken.trans (hbound _)
  | some classes =>
      dsimp only
      generalize String.ofList (Text.trim (Text.collapse classes.toList)) = collapsed
      have hrecord : e.Takes namedNames (if collapsed = "" then (take e "class").2
          else { (take e "class").2 with staticClass := some (Text.quote collapsed) }) := by
        split
        · exact htaken
        · exact htaken
      split
      · exact hrecord.trans (hbound _)
      · exact hrecord.trans (hbound _)

theorem takes_readInlineStyle (delimiters : Option (String × String)) (e : Element) :
    e.Takes namedNames (readInlineStyle delimiters e).1 := by
  have htaken := takes_take e (by decide : "style" ∈ namedNames)
  have hbound : ∀ e' : Element, e'.Takes namedNames (takeBound e' "style").2 :=
    fun e' => takes_takeBound e' (by decide) (by decide)
  simp only [readInlineStyle]
  cases (take e "style").1 with
  | none =>
      dsimp only
      split
      · exact htaken.trans (hbound _)
      · exact htaken.trans (hbound _)
  | some css =>
      dsimp only
      have hrecord : e.Takes namedNames (if css = "" then (take e "style").2
          else { (take e "style").2 with staticStyle := some (Expression.styleCode css) }) := by
        split
        · exact htaken
        · exact htaken
      split
      · exact hrecord.trans (hbound _)
      · exact hrecord.trans (hbound _)

/-- **What is read first when an element is closed** takes attributes with these names only. -/
theorem takes_readNamed (delimiters : Option (String × String)) (inFor : Bool) (e : Element) :
    e.Takes namedNames (readNamed delimiters inFor e) := by
  have hkey : e.Takes namedNames (markPlain (readKey e).1) := takes_readKey e (by decide)
  exact (((hkey.trans (takes_readReference inFor _)).trans (takes_readSlot _)).trans
    (takes_readComponent _)).trans ((takes_readClasses delimiters _).trans
      (takes_readInlineStyle delimiters _))

end Build

end Templating
