import Templating.Proofs.Build.Verbatim
import Templating.Proofs.Static.Steady

/-!
**Rendering once and for all is safe.**

An element that is chosen to be rendered once and for all holds no expression of the template,
neither itself nor anywhere below it.  Outside `v-pre` this is what the first pass looks at; inside
`v-pre` nothing was read in the first place.

Main definitions:

* `Templating.Element.IsInert`, `Templating.Node.IsInert` — nodes without expressions;
* `Templating.Element.Accounted` — an element with a computed name among its attributes is known to
  have bindings.

Main results:

* `Templating.Build.Builder.invariant_accounted` — every element of a template is accounted for;
* `Templating.Static.isInert_of_isStaticElement` — an element that never changes by itself is inert;
* `Templating.Static.exists_isInert_of_staticRoot` — **what is rendered once and for all is inert**.
-/

set_option autoImplicit false

namespace Templating

open Build Build.Builder

/-! ### Nodes without expressions -/

/-- An element without an expression of the template. -/
structure Element.IsInert (e : Element) : Prop where
  hasBindings : e.hasBindings = false
  condition : e.condition = none
  loop : e.loop = none
  once : e.once = false
  key : e.key = none
  ref : e.ref = none
  component : e.component = none
  classBinding : e.classBinding = none
  styleBinding : e.styleBinding = none
  props : e.props = []
  events : e.events.isEmpty = true
  nativeEvents : e.nativeEvents.isEmpty = true
  directives : e.directives = []
  /-- No attribute has a computed name. -/
  attrs : ∀ a ∈ e.attrs, a.dynamic = false

/-- A node without an expression of the template. -/
def Node.IsInert : Node → Prop
  | .element e => e.IsInert
  | .expression _ => False
  | .text _ => True

/-- What is rendered as it stands holds no expression. -/
theorem Element.IsLiteral.isInert {e : Element} (h : e.IsLiteral) : e.IsInert where
  hasBindings := h.hasBindings
  condition := h.condition
  loop := h.loop
  once := h.once
  key := h.key
  ref := h.ref
  component := h.component
  classBinding := h.classBinding
  styleBinding := h.styleBinding
  props := h.props
  events := by rw [h.events]; rfl
  nativeEvents := by rw [h.nativeEvents]; rfl
  directives := h.directives
  attrs a ha := by
    rw [h.attrs] at ha
    exact dynamic_of_mem_literalAttributes ha

theorem Element.isInert_showsIn : ShowsIn unmarked IsInert :=
  fun _ => ⟨fun h => { h with }, fun h => { h with }⟩

/-- Marks are no expressions. -/
theorem Node.isInert_congr {n n' : Node} (h : n'.unmarked = n.unmarked) (hn : n.IsInert) :
    n'.IsInert := by
  cases n with
  | element e =>
      cases n' with
      | element e' =>
          have hsame : e'.unmarked = e.unmarked := Node.element.inj h
          exact (Element.isInert_showsIn.congr hsame fun _ => rfl).mpr hn
      | expression => cases h
      | text => trivial
  | expression => exact hn.elim
  | text =>
      cases n' with
      | element => cases h
      | expression => cases h
      | text => trivial

/-! ### Elements as they are built -/

/-- An element without marks, and with a note of its bindings when the name of an attribute is
computed. -/
structure Element.Accounted (e : Element) : Prop where
  isStatic : e.isStatic = none
  staticRoot : e.staticRoot = none
  hasBindings : ∀ a ∈ e.attrs, a.dynamic = true → e.hasBindings = true

namespace Build

/-- A computed name is a binding. -/
theorem hasBindings_readAttribute (delimiters : Option (String × String)) (e : Element)
    (a : Markup.Attribute) (h : ∀ p ∈ e.attrs, p.dynamic = true → e.hasBindings = true) :
    ∀ p ∈ (readAttribute delimiters e a).1.attrs, p.dynamic = true →
      (readAttribute delimiters e a).1.hasBindings = true := by
  unfold readAttribute
  split
  · intro p hp hdynamic
    rcases List.mem_append.mp hp with hp | hp
    · exact h p hp hdynamic
    · rw [List.mem_singleton.mp hp] at hdynamic
      cases hdynamic
  · intro _ _ _
    dsimp only
    split <;> rfl
  · intro _ _ _
    simp only [addListener]
    split <;> rfl
  · exact fun _ _ _ => rfl

theorem hasBindings_readAttributes (delimiters : Option (String × String))
    (l : List Markup.Attribute) (e : Element)
    (h : ∀ p ∈ e.attrs, p.dynamic = true → e.hasBindings = true) :
    ∀ p ∈ (readAttributes delimiters l e).1.attrs, p.dynamic = true →
      (readAttributes delimiters l e).1.hasBindings = true := by
  induction l generalizing e with
  | nil => exact h
  | cons a l ih => exact ih _ (hasBindings_readAttribute delimiters e a h)

theorem accounted_readDirectives (delimiters : Option (String × String)) (inFor : Bool)
    (e : Element) (h : e.Accounted) : (readDirectives delimiters inFor e).1.Accounted := by
  -- only the remaining attributes can have computed names
  have hcomputed : ∀ p ∈ (readDirectives delimiters inFor e).1.attrs, p.dynamic = true →
      (readDirectives delimiters inFor e).1.hasBindings = true := by
    rw [readDirectives_eq]
    refine hasBindings_readAttributes delimiters _ _ ?_
    have hnamed := unnamed_readNamed delimiters inFor e
    generalize readNamed delimiters inFor e = e' at hnamed
    have hattrs : e'.attrs = e.attrs := (congrArg Element.attrs hnamed :)
    have hbindings : e'.hasBindings = e.hasBindings := (congrArg Element.hasBindings hnamed :)
    rw [hattrs, hbindings]
    exact h.hasBindings
  have hunclosed := unclosed_readDirectives delimiters inFor e
  generalize (readDirectives delimiters inFor e).1 = e' at hcomputed hunclosed
  have hstatic : e'.isStatic = e.isStatic := (congrArg Element.isStatic hunclosed :)
  have hroot : e'.staticRoot = e.staticRoot := (congrArg Element.staticRoot hunclosed :)
  exact ⟨hstatic.trans h.isStatic, hroot.trans h.staticRoot, hcomputed⟩

/-- **Every element of a template is accounted for.** -/
theorem Builder.invariant_accounted (src : Source) :
    Invariant src fun b => ∀ id e, b.tree.element? id = some e → e.Accounted := by
  refine Invariant.of_element ?_ ?_ (fun inFor e => accounted_readDirectives _ inFor e)
  · intro e e' h he
    have hstatic : e'.isStatic = e.isStatic := (congrArg Element.isStatic h :)
    have hroot : e'.staticRoot = e.staticRoot := (congrArg Element.staticRoot h :)
    have hattrs : e'.attrs = e.attrs := (congrArg Element.attrs h :)
    have hbindings : e'.hasBindings = e.hasBindings := (congrArg Element.hasBindings h :)
    refine ⟨hstatic.trans he.isStatic, hroot.trans he.staticRoot, ?_⟩
    rw [hattrs, hbindings]
    exact he.hasBindings
  · intro b tag attributes start stop
    obtain ⟨_, _, _, _, _, attrs, _, _, hcreated, hliteral, -⟩ :=
      unopened_created src b tag attributes start stop
    have hattrs : (b.created src tag attributes start stop).attrs = attrs :=
      (congrArg Element.attrs hcreated :)
    refine ⟨(congrArg Element.isStatic hcreated :), (congrArg Element.staticRoot hcreated :), ?_⟩
    intro a ha hdynamic
    rw [hattrs] at ha
    rw [hliteral a ha] at hdynamic
    cases hdynamic

end Build

namespace Static

/-! ### Elements that never change by themselves -/

/-- With no further keys but these, a static element uses nothing that can change. -/
theorem not_mem_keysInUse {settings : Settings} {e : Element}
    (hkeys : ∀ key ∈ listedKeys settings.staticKeys, key = "staticClass" ∨ key = "staticStyle")
    (h : e.keysInUse.all (keys settings.staticKeys).contains = true) {key : String}
    (hkey : key ∉ "staticClass" :: "staticStyle" :: baseKeys) : key ∉ e.keysInUse := by
  intro hmem
  have hallowed := List.all_eq_true.mp h key hmem
  rw [List.contains_iff_mem, keys, List.mem_append] at hallowed
  rcases hallowed with hbase | hlisted
  · exact hkey (by simp [hbase])
  · rcases hkeys key hlisted with rfl | rfl <;> simp at hkey

/-- **An element that never changes by itself is inert.** -/
theorem isInert_of_isStaticElement {settings : Settings} {t : Tree} {e : Element}
    (hkeys : ∀ key ∈ listedKeys settings.staticKeys, key = "staticClass" ∨ key = "staticStyle")
    (haccounted : e.Accounted) (hpre : e.pre = false)
    (h : isStaticElement settings t e = true) : e.IsInert := by
  simp only [isStaticElement, hpre, Bool.false_or, Bool.and_eq_true, Bool.not_eq_true',
    Option.isNone_iff_eq_none] at h
  obtain ⟨⟨⟨⟨⟨⟨hbindings, hcondition⟩, hloop⟩, -⟩, -⟩, -⟩, hall⟩ := h
  have hunused : ∀ key, key ∉ "staticClass" :: "staticStyle" :: baseKeys → key ∉ e.keysInUse :=
    fun key hkey => not_mem_keysInUse hkeys hall hkey
  refine ⟨hbindings, hcondition, hloop, ?_, ?_, ?_, ?_, ?_, ?_, ?_, ?_, ?_, ?_, ?_⟩
  · simpa [Element.keysInUse] using hunused "once" (by decide)
  · simpa [Element.keysInUse] using hunused "key" (by decide)
  · simpa [Element.keysInUse] using hunused "ref" (by decide)
  · simpa [Element.keysInUse] using hunused "component" (by decide)
  · simpa [Element.keysInUse] using hunused "classBinding" (by decide)
  · simpa [Element.keysInUse] using hunused "styleBinding" (by decide)
  · simpa [Element.keysInUse] using hunused "props" (by decide)
  · simpa [Element.keysInUse] using hunused "events" (by decide)
  · simpa [Element.keysInUse] using hunused "nativeEvents" (by decide)
  · simpa [Element.keysInUse] using hunused "directives" (by decide)
  · intro a ha
    cases hdynamic : a.dynamic with
    | false => rfl
    | true =>
        have htrue := haccounted.hasBindings a ha hdynamic
        rw [hbindings] at htrue
        cases htrue

/-- An element outside `v-pre` that never changes by itself is no component of the template. -/
theorem ownsContent_eq_false {settings : Settings} {t : Tree} {e : Element} (hpre : e.pre = false)
    (h : isStaticElement settings t e = true) : ownsContent settings e = false := by
  simp only [isStaticElement, hpre, Bool.false_or, Bool.and_eq_true] at h
  obtain ⟨⟨⟨-, hreserved⟩, -⟩, -⟩ := h
  simp [ownsContent, hreserved]

/-! ### What is below an element that never changes -/

section Below

variable {settings : Settings} {b : Builder}

/-- A node that never changes: it is steady, or it is inside `v-pre`. -/
def Settled (settings : Settings) (t : Tree) (id : NodeId) : Prop :=
  Steady settings t id ∨ t.Verbatim id

/-- The children of what never changes never change. -/
theorem Settled.child (hb : b.Sealed) {id c : NodeId} {e : Element}
    (h : Settled settings b.tree id) (he : b.tree.element? id = some e) (hc : c ∈ e.children) :
    Settled settings b.tree c := by
  have hinside : b.tree.Verbatim id → Settled settings b.tree c := by
    intro hverbatim
    rcases hb.child_of_verbatim hverbatim he hc with ⟨n, hn⟩ | hverbatim
    · exact .inl (.text hn)
    · exact .inr hverbatim
  rcases h with hsteady | hverbatim
  · cases hsteady with
    | text hn =>
        rw [Tree.node?_of_element? he] at hn
        cases hn
    | element he' own below =>
        rw [he] at he'
        cases he'
        cases hpre : e.pre with
        | true => exact hinside (.pre he hpre)
        | false =>
            refine .inl (below (ownsContent_eq_false hpre own) c ?_)
            exact List.mem_append_left _ hc
  · exact hinside hverbatim

/-- What never changes is inert. -/
theorem Settled.isInert (hb : b.Sealed)
    (haccounted : ∀ id e, b.tree.element? id = some e → e.Accounted)
    (hkeys : ∀ key ∈ listedKeys settings.staticKeys, key = "staticClass" ∨ key = "staticStyle")
    {id : NodeId} (h : Settled settings b.tree id) :
    ∃ n, b.tree.node? id = some n ∧ n.IsInert := by
  have hinside : ∀ e, b.tree.element? id = some e → b.tree.Verbatim id →
      ∃ n, b.tree.node? id = some n ∧ n.IsInert := fun e he hverbatim =>
    ⟨.element e, Tree.node?_of_element? he, (hb.literal id e he hverbatim).isInert⟩
  rcases h with hsteady | hverbatim
  · cases hsteady with
    | text hn => exact ⟨_, hn, trivial⟩
    | @element _ e he own =>
        cases hpre : e.pre with
        | true => exact hinside e he (.pre he hpre)
        | false =>
            exact ⟨.element e, Tree.node?_of_element? he,
              isInert_of_isStaticElement hkeys (haccounted id e he) hpre own⟩
  · obtain ⟨e, he⟩ := hverbatim.exists_element
    exact hinside e he hverbatim

/-- What is below an element that never changes never changes. -/
theorem Settled.below (hb : b.Sealed) {top id : NodeId} (htop : Settled settings b.tree top)
    (h : b.tree.Below top id) : Settled settings b.tree id := by
  induction h with
  | refl => exact htop
  | child _ he hc ih => exact ih.child hb he hc

/-- Marks do not change what is below an element. -/
theorem below_of_alike {t t' : Tree} (h : t.Alike Node.unmarked t') {top id : NodeId}
    (hid : t'.Below top id) : t.Below top id := by
  induction hid with
  | refl => exact .refl
  | child _ he hc ih =>
      obtain ⟨e, he₀, hsame⟩ := h.symm.element? Node.element?_unmarked he
      have hchildren := congrArg Element.children hsame
      exact .child ih he₀ (hchildren ▸ hc)

end Below

/-! ### Templates -/

/-- **What is rendered once and for all is inert**: below an element that is marked as such, itself
included, every node is there, none is an interpolation, and no element holds an expression.  No
further key may be static but those of plain classes and plain styles. -/
theorem exists_isInert_of_staticRoot {settings : Settings} {template : String} {parsed : Parsed}
    (hparse : parse settings template = .ok parsed)
    (hkeys : ∀ key ∈ listedKeys settings.staticKeys, key = "staticClass" ∨ key = "staticStyle")
    {root id : NodeId} {e : Element} (he : (mark settings parsed.tree).element? root = some e)
    (hroot : e.staticRoot = some true) (hid : (mark settings parsed.tree).Below root id) :
    ∃ n, (mark settings parsed.tree).node? id = some n ∧ n.IsInert := by
  obtain ⟨b, ⟨⟨-, hb⟩, haccounted⟩, htree⟩ :=
    Invariant.of_parse (fun src => (invariant_sealed src).and (invariant_accounted src)) hparse
  rw [← htree] at he hid ⊢
  have hmark : Justified settings b.tree (mark settings b.tree) := justified_mark fun id e he =>
    ⟨(haccounted id e he).isStatic, (haccounted id e he).staticRoot⟩
  have hsteady : Steady settings b.tree root := hmark.marked root e he (.inr hroot)
  have hsettled : Settled settings b.tree id :=
    Settled.below hb (.inl hsteady) (below_of_alike hmark.alike hid)
  obtain ⟨n, hn, hinert⟩ := hsettled.isInert hb haccounted hkeys
  obtain ⟨n', hn', hsame⟩ := hmark.alike.node? hn
  exact ⟨n', hn', Node.isInert_congr hsame hinert⟩

/-- An element with `v-pre` is rendered once and for all; the interpolation inside it is a text. -/
theorem exists_isInert_of_staticRoot_pre :
    ∃ parsed, parse Settings.web "<div v-pre :id=\"x\">\x7b\x7b y \x7d\x7d<br></div>" = .ok parsed ∧
      ∃ n, (mark Settings.web parsed.tree).node? 1 = some n ∧ n.IsInert := by
  obtain ⟨parsed, hparsed⟩ := exists_parse Settings.web
    "<div v-pre :id=\"x\">\x7b\x7b y \x7d\x7d<br></div>" (by simp [Settings.web])
  have hroot : (match parse Settings.web "<div v-pre :id=\"x\">\x7b\x7b y \x7d\x7d<br></div>" with
      | .ok parsed => ((mark Settings.web parsed.tree).element? 0).map fun e =>
          (e.staticRoot, e.children)
      | .error _ => none) = some (some true, [1, 2]) := by decide +kernel
  rw [hparsed] at hroot
  obtain ⟨e, he, hpair⟩ := Option.map_eq_some_iff.mp hroot
  obtain ⟨hstatic, hchildren⟩ := Prod.mk.inj hpair
  refine ⟨parsed, hparsed, exists_isInert_of_staticRoot hparsed (by decide +kernel) he hstatic ?_⟩
  exact .child .refl he (by rw [hchildren]; simp)

end Static

end Templating
