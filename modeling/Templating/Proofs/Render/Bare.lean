import Templating.Proofs.Build.Recorded
import Templating.Proofs.Build.Taking
import Templating.Proofs.Static.Exact
import Templating.Render.Generator

/-!
**Elements without data.**

An element is marked as plain early on, when most of its attributes are still to be read, and the
data of a plain element is left out of generated code.  Nothing is lost that way: what was taken
before says nothing about the data, and what was not taken is pending, so there was nothing else.

Main definitions:

* `Templating.Element.PendingBut` — every attribute is pending, some names aside;
* `Templating.Element.IsBare` — an element that has nothing to put into its data.

Main results:

* `Templating.Build.isBare_readDirectives` — **an element that is plain when it is closed is bare**;
* `Templating.Build.Builder.invariant_kept` — properties of elements that are kept as they stand;
* `Templating.Build.isBare_of_parse` — the plain elements of a template are bare;
* `Templating.Render.exists_parse_bare` — **leaving out the data of plain elements loses nothing**.
-/

set_option autoImplicit false

namespace Templating

open Build Build.Builder Expression

/-! ### Attributes that are not taken -/

/-- A key with a value was given one. -/
theorem Dict.mem_of_get?_ofList {α : Type} {l : List (String × α)} {key : String}
    (h : ((Dict.ofList l).get? key).isSome = true) : key ∈ l.map (·.1) := by
  rw [Dict.get?_ofList] at h
  obtain ⟨value, hvalue⟩ := Option.isSome_iff_exists.mp h
  obtain ⟨l₁, l₂, hsplit, -⟩ := List.lookup_eq_some_iff.mp hvalue
  have hmem : (key, value) ∈ l.reverse := by
    rw [hsplit]
    simp
  exact List.mem_map.mpr ⟨(key, value), List.mem_reverse.mp hmem, rfl⟩

/-- Every attribute is pending, but for some with the given names. -/
def Element.PendingBut (names : List String) (e : Element) : Prop :=
  ∀ name, name ∉ names → (e.attributes.get? name).isSome = true → ∃ a ∈ e.pending, a.name = name

/-- Taking attributes with these names leaves the others alone. -/
theorem Element.PendingBut.takes {names : List String} {e e' : Element} (h : e.PendingBut names)
    (htakes : e.Takes names e') : e'.PendingBut names := by
  intro name hname hget
  rw [htakes.1] at hget
  obtain ⟨a, ha, rfl⟩ := h name hname hget
  exact ⟨a, htakes.mem_pending ha hname, rfl⟩

/-- When nothing is pending, there are no other attributes. -/
theorem Element.PendingBut.get?_eq_none {names : List String} {e : Element}
    (h : e.PendingBut names) (hpending : e.pending = []) {name : String} (hname : name ∉ names) :
    e.attributes.get? name = none := by
  by_contra hget
  obtain ⟨a, ha, -⟩ := h name hname (Option.isSome_iff_ne_none.mpr hget)
  rw [hpending] at ha
  cases ha

namespace Build

/-- A new element has all its attributes pending. -/
theorem pendingBut_newElement (src : Source) (parent : Option NodeId) (tag : String)
    (attributes : List Markup.Attribute) (start stop : Nat) (names : List String) :
    (newElement src parent tag attributes start stop).1.PendingBut names := by
  obtain ⟨_, _, _, _, hnew⟩ := newElement_eq src tag attributes start stop parent
  rw [hnew]
  intro name _ hget
  have hmem := Dict.mem_of_get?_ofList hget
  simpa [Element.new] using hmem

section Taking

variable {e : Element} {name : String}

theorem take_of_none (h : e.attributes.get? name = none) : take e name = (none, e) := by
  simp only [take, h]

theorem takeBound_of_none (hshort : e.attributes.get? (":" ++ name) = none)
    (hlong : e.attributes.get? ("v-bind:" ++ name) = none) : takeBound e name = (none, e) := by
  simp [takeBound, takeNonEmpty, take_of_none hshort, take_of_none hlong]

theorem takeBinding_of_none (hshort : e.attributes.get? (":" ++ name) = none)
    (hlong : e.attributes.get? ("v-bind:" ++ name) = none) (h : e.attributes.get? name = none) :
    takeBinding e name = (none, e) := by
  simp [takeBinding, takeBound_of_none hshort hlong, take_of_none h]

end Taking

/-! ### What is read after an element is marked as plain -/

/-- What is read before an element is marked as plain. -/
def namesBefore : List String :=
  ["v-for", "v-if", "v-else", "v-else-if", "v-once", ":key", "v-bind:key", "key"]

/-- Nothing is read when there are no other attributes. -/
theorem readNamed_of_none (delimiters : Option (String × String)) (inFor : Bool) {e : Element}
    (h : ∀ name, name ∉ namesBefore → (readKey e).1.attributes.get? name = none) :
    ∃ slotName, readNamed delimiters inFor e = { markPlain (readKey e).1 with slotName } := by
  have hnone : ∀ name, name ∉ namesBefore →
      (markPlain (readKey e).1).attributes.get? name = none := h
  unfold readNamed
  generalize markPlain (readKey e).1 = e₁ at hnone ⊢
  have href : readReference inFor e₁ = e₁ := by
    simp [readReference, takeBinding_of_none (e := e₁) (hnone (":" ++ "ref") (by decide))
      (hnone ("v-bind:" ++ "ref") (by decide)) (hnone "ref" (by decide))]
  obtain ⟨slotName, hslot⟩ : ∃ slotName, (readSlot e₁).1 = { e₁ with slotName } := by
    simp only [readSlot]
    split
    · exact ⟨e₁.slotName, rfl⟩
    · rw [takeBinding_of_none (e := e₁) (hnone (":" ++ "name") (by decide))
        (hnone ("v-bind:" ++ "name") (by decide)) (hnone "name" (by decide))]
      exact ⟨none, rfl⟩
  rw [href, hslot]
  refine ⟨slotName, ?_⟩
  replace hnone : ∀ name, name ∉ namesBefore →
      ({ e₁ with slotName } : Element).attributes.get? name = none := hnone
  generalize ({ e₁ with slotName } : Element) = e₂ at hnone ⊢
  have hcomponent : readComponent e₂ = e₂ := by
    simp [readComponent, takeBinding_of_none (e := e₂) (hnone (":" ++ "is") (by decide))
      (hnone ("v-bind:" ++ "is") (by decide)) (hnone "is" (by decide)),
      take_of_none (hnone "inline-template" (by decide))]
  have hclasses : (readClasses delimiters e₂).1 = e₂ := by
    simp [readClasses, take_of_none (hnone "class" (by decide)),
      takeBound_of_none (e := e₂) (hnone (":" ++ "class") (by decide))
        (hnone ("v-bind:" ++ "class") (by decide))]
  have hstyles : (readInlineStyle delimiters e₂).1 = e₂ := by
    simp [readInlineStyle, take_of_none (hnone "style" (by decide)),
      takeBound_of_none (e := e₂) (hnone (":" ++ "style") (by decide))
        (hnone ("v-bind:" ++ "style") (by decide))]
  rw [hcomponent, hclasses, hstyles]

/-- The mark does not change while other attributes with a meaning of their own are read. -/
theorem plain_readNamed (delimiters : Option (String × String)) (inFor : Bool) (e : Element) :
    (readNamed delimiters inFor e).plain = (markPlain (readKey e).1).plain := by
  have href : ∀ e, (readReference inFor e).plain = e.plain := by
    intro e
    obtain ⟨_, _, _, h, -⟩ := readReference_eq inFor e
    rw [h]
  have hslot : ∀ e, (readSlot e).1.plain = e.plain := by
    intro e
    obtain ⟨_, _, h, -⟩ := readSlot_eq e
    rw [h]
  have hcomponent : ∀ e, (readComponent e).plain = e.plain := by
    intro e
    obtain ⟨_, _, _, h, -⟩ := readComponent_eq e
    rw [h]
  have hclasses : ∀ e, (readClasses delimiters e).1.plain = e.plain := by
    intro e
    obtain ⟨_, _, _, h, -⟩ := readClasses_eq delimiters e
    rw [h]
  have hstyles : ∀ e, (readInlineStyle delimiters e).1.plain = e.plain := by
    intro e
    obtain ⟨_, _, _, h, -⟩ := readInlineStyle_eq delimiters e
    rw [h]
  rw [readNamed, hstyles, hclasses, hcomponent, hslot, href]

theorem plain_readAttribute (delimiters : Option (String × String)) (e : Element)
    (a : Markup.Attribute) : (readAttribute delimiters e a).1.plain = false := by
  unfold readAttribute
  split
  · rfl
  · dsimp only
    split <;> rfl
  · simp only [addListener]
    split <;> rfl
  · rfl

/-- The mark goes when anything is left to be read. -/
theorem plain_readAttributes (delimiters : Option (String × String)) (l : List Markup.Attribute)
    (e : Element) : (readAttributes delimiters l e).1.plain = (e.plain && l.isEmpty) := by
  induction l generalizing e with
  | nil => simp [readAttributes]
  | cons a l ih => simp [readAttributes, ih, plain_readAttribute]

end Build

/-! ### Elements with nothing to say -/

/-- **An element that has nothing to put into its data.** -/
structure Element.IsBare (e : Element) : Prop where
  directives : e.directives = []
  key : e.key = none
  ref : e.ref = none
  refInFor : e.refInFor = false
  pre : e.pre = false
  component : e.component = none
  staticClass : e.staticClass = none
  classBinding : e.classBinding = none
  staticStyle : e.staticStyle = none
  styleBinding : e.styleBinding = none
  attrs : e.attrs = []
  props : e.props = []
  events : e.events = ∅
  nativeEvents : e.nativeEvents = ∅

theorem Element.isBare_showsIn : ShowsIn (fun e => e.core.unmarked.unopened) IsBare :=
  fun _ => ⟨fun h => { h with }, fun h => { h with }⟩

namespace Build

/-- **An element that is plain when it is closed is bare**, if it was bare when it was opened. -/
theorem isBare_readDirectives (delimiters : Option (String × String)) (inFor : Bool) {e : Element}
    (h : e.PendingBut namesBefore) (hbare : e.IsBare)
    (hplain : (readDirectives delimiters inFor e).1.plain = true) :
    (readDirectives delimiters inFor e).1.IsBare := by
  rw [readDirectives_eq] at hplain ⊢
  rw [plain_readAttributes, plain_readNamed, Bool.and_eq_true] at hplain
  obtain ⟨hkey, hpending⟩ : (readKey e).1.key = none ∧ (readKey e).1.pending = [] := by
    simpa [markPlain] using hplain.1
  -- what was not taken so far is not there at all
  obtain ⟨slotName, hread⟩ := readNamed_of_none delimiters inFor fun name hname =>
    (h.takes (takes_readKey e (by decide))).get?_eq_none hpending hname
  obtain ⟨pending, key, hkeyed, -⟩ := readKey_eq e
  rw [hkeyed] at hkey hpending hread
  have hnothing : (readNamed delimiters inFor e).pending = [] := by
    rw [hread]
    exact hpending
  rw [hnothing, readAttributes, hread]
  exact { hbare with key := hkey }

/-- An element that is read when it is opened has nothing in its data then. -/
theorem isBare_readOpening (src : Source) (parent : Option NodeId) (tag : String)
    (attributes : List Markup.Attribute) (start stop : Nat) :
    (readOpening (newElement src parent tag attributes start stop).1).IsBare := by
  obtain ⟨_, _, _, _, hnew⟩ := newElement_eq src tag attributes start stop parent
  have hbare : (newElement src parent tag attributes start stop).1.IsBare := by
    rw [hnew]
    constructor <;> rfl
  exact (Element.isBare_showsIn.congr (unopened_readOpening _) fun _ => rfl).mpr hbare

/-- **An element that was read to the end** is bare if it is plain. -/
theorem IsRead.isBare {src : Source} {inFor : Bool} {e : Element} (h : IsRead src inFor true e)
    (hplain : e.plain = true) : e.IsBare := by
  obtain ⟨-, attributes, start, stop, hread⟩ := h
  rw [if_pos rfl] at hread
  have hpending := pendingBut_newElement src e.parent e.tag attributes start stop namesBefore
  have hopening := hpending.takes (takes_readOpening _ (by decide))
  have hclosed := isBare_readDirectives src.delimiters inFor hopening
    (isBare_readOpening src e.parent e.tag attributes start stop)
  change _ = (readDirectives src.delimiters inFor (readOnce (readCondition (readLoop
    (newElement src e.parent e.tag attributes start stop).1).1))).1.core at hread
  generalize (readDirectives src.delimiters inFor (readOnce (readCondition (readLoop
    (newElement src e.parent e.tag attributes start stop).1).1))).1 = e' at hclosed hread
  have hplain' : e'.plain = true := (congrArg Element.plain hread :).symm.trans hplain
  exact (Element.isBare_showsIn.congr hread fun _ => rfl).mpr (hclosed hplain')

/-! ### Elements that are kept as they stand -/

/-- The mark is set only where there is neither an attribute nor `v-pre`. -/
theorem keepVerbatim_of_plain {e : Element} (hunmarked : e.plain = false)
    (h : (keepVerbatim e).plain = true) :
    e.pre = false ∧ keepVerbatim e = { e with plain := true } := by
  unfold keepVerbatim at h ⊢
  split at h
  · cases hunmarked.symm.trans h
  · rename_i hpending
    rw [if_neg hpending]
    split at h
    · cases hunmarked.symm.trans h
    · rename_i hpre
      exact ⟨by simpa using hpre, if_neg hpre⟩

namespace Builder

/-- An element that is kept as it stands is bare if it is plain. -/
theorem isBare_created (src : Source) (b : Builder) (tag : String) (attributes : List Markup.Attribute)
    (start stop : Nat)
    (h : (b.inVerbatim || (b.created src tag attributes start stop).pre) = true)
    (hplain : (b.created src tag attributes start stop).plain = true) :
    (b.created src tag attributes start stop).IsBare := by
  rw [pre_created] at h
  obtain ⟨_, _, _, _, pending, pre, hmarked⟩ := marked_eq src b tag attributes start stop
  simp only [created] at hplain ⊢
  rw [if_pos h] at hplain ⊢
  obtain ⟨hpre, hkeep⟩ := keepVerbatim_of_plain (by rw [hmarked]; rfl) hplain
  rw [hkeep]
  rw [hmarked] at hpre ⊢
  exact ⟨rfl, rfl, rfl, rfl, hpre, rfl, rfl, rfl, rfl, rfl, rfl, rfl, rfl, rfl⟩

/-- **A property of single elements that are kept as they stand** holds of all of them when it holds
of those that are created. -/
theorem invariant_kept (src : Source) {P : Element → Prop}
    (hcore : ∀ e e' : Element, e'.core = e.core → P e → P e')
    (hcreated : ∀ (b : Builder) (tag : String) (attributes : List Markup.Attribute)
      (start stop : Nat), (b.inVerbatim || (b.created src tag attributes start stop).pre) = true →
        P (b.created src tag attributes start stop)) :
    Invariant src fun b => (b.Ordered ∧ b.Sealed) ∧
      ∀ id e, b.tree.element? id = some e → b.tree.Verbatim id → P e where
  init := ⟨(invariant_sealed src).init, by simp [Tree.element?, Tree.node?]⟩
  agrees h hb := ⟨(invariant_sealed src).agrees h hb.1, by rw [h.tree]; exact hb.2⟩
  leaf := by
    intro b parent rest n hopened hn hb
    refine ⟨(invariant_sealed src).leaf hopened hn hb.1, fun id e' he' hid => ?_⟩
    obtain ⟨e, he, hsame⟩ := exists_element_of_append hn he'
    exact hcore e e' hsame (hb.2 id e he ((b.grows_append parent n).of_verbatim hb.1.2.parent_lt
      (Tree.lt_size_of_element? he) hid))
  enter := by
    intro b tag attributes start stop hb
    have hsealed := (invariant_sealed src).enter tag attributes start stop hb.1
    refine ⟨hsealed, fun id e he hid => ?_⟩
    rw [element?_enter] at he
    split at he
    · rename_i hnew
      subst hnew
      cases he
      refine hcreated b tag attributes start stop ?_
      by_contra hmode
      exact hsealed.2.not_verbatim hsealed.1 rfl (eq_false_of_ne_true hmode) hid
    · exact hb.2 id e he ((grows_enter src b _).of_verbatim hb.1.2.parent_lt
        (Tree.lt_size_of_element? he) hid)
  stop := by
    intro b id stop hb
    refine ⟨(invariant_sealed src).stop id stop hb.1, fun k e' he' hk => ?_⟩
    obtain ⟨e, he, hsame⟩ := (b.sameCore_stop id stop).symm.element? Node.element?_core he'
    exact hcore e e' hsame.symm (hb.2 k e he (hk.alike
      ((b.sameCore_stop id stop).coarsen Node.frame_core).symm))
  finish := by
    intro b id rest hopened hb
    refine ⟨(invariant_sealed src).finish hopened hb.1, fun k e' he' hk => ?_⟩
    obtain ⟨e, he, -⟩ := hb.1.1.exists_innermost hopened
    obtain ⟨t, hfinished⟩ := finished_finishElement src { b with opened := rest } he
    have hk := hk.alike (hfinished.alike he).symm
    cases hmode : b.inVerbatim with
    | true =>
        have hsame : b.tree.SameCore _ := hfinished.sameCore_of_verbatim he hmode
        obtain ⟨e₀, he₀, hsame⟩ := hsame.symm.element? Node.element?_core he'
        exact hcore e₀ e' hsame.symm (hb.2 k e₀ he₀ hk)
    | false =>
        -- the element that is finished is the only one that is read, and it is not kept
        obtain ⟨e₀, he₀, hsame⟩ := hfinished.sameCore.symm.element? Node.element?_core he'
        have hne : id ≠ k := by
          rintro rfl
          exact hb.1.2.not_verbatim hb.1.1 hopened hmode hk
        rw [Tree.element?_modifyElement, if_neg hne] at he₀
        exact hcore e₀ e' hsame.symm (hb.2 k e₀ he₀ hk)

end Builder

/-- **The plain elements of a template are bare.** -/
theorem isBare_of_parse {settings : Settings} {template : String} {parsed : Parsed}
    (h : parse settings template = .ok parsed) {id : NodeId} {e : Element}
    (he : parsed.tree.element? id = some e) (hplain : e.plain = true) : e.IsBare := by
  unfold parse at h
  split at h
  · cases h
  · rename_i delimiters hdelimiters
    cases h
    by_cases hid : (Builder.run ⟨settings, template, delimiters⟩
        (Markup.events settings template)).tree.Verbatim id
    · have hkept := (Builder.invariant_kept ⟨settings, template, delimiters⟩
        (P := fun e => e.plain = true → e.IsBare)
        (fun e e' hsame hbare hplain =>
          (Element.isBare_showsIn.congr hsame fun _ => rfl).mpr
            (hbare ((congrArg Element.plain hsame :).symm.trans hplain)))
        fun b tag attributes start stop => isBare_created _ b tag attributes start stop).run
        (Markup.events settings template)
      exact hkept.2 id e he hid hplain
    · obtain ⟨inFor, hread⟩ := (interpreted_run ⟨settings, template, delimiters⟩ he).2 hid
      exact hread.isBare hplain

end Build

/-! ### Leaving out the data -/

namespace Render

/-- A bare element has no data. -/
theorem dataCode_of_isBare {e : Element} (h : e.IsBare) : dataCode e = "\x7b\x7d" := by
  have hempty : ∀ {α : Type}, Dict.isEmpty (∅ : Dict α) = true := rfl
  have hfields : dataFields e = [] := by
    simp [dataFields, field, fieldIf, h.directives, h.key, h.ref, h.refInFor, h.pre, h.component,
      h.staticClass, h.classBinding, h.staticStyle, h.styleBinding, h.attrs, h.props, h.events,
      h.nativeEvents, hempty]
  rw [dataCode, hfields]
  rfl

/-- The data of an element is left out for a plain element only. -/
theorem data_of_renderElement {settings : Settings} {t : Tree} {recur : Renderer} {id id' : NodeId}
    {e : Element} {g : Generator} {name : String} {data : Option String} {children : Code}
    (h : (renderElement settings t recur id e g).1 = .create id' name data children) :
    data = some (dataCode e) ∨ data = none ∧ e.plain = true := by
  unfold renderElement at h
  split at h
  · cases h
  · split at h
    · cases h
    · dsimp only at h
      cases hcomponent : e.component with
      | some code =>
          rw [hcomponent] at h
          cases h
          exact .inl rfl
      | none =>
          rw [hcomponent] at h
          cases h
          cases hplain : e.plain with
          | false => exact .inl rfl
          | true =>
              by_cases hpre : (e.pre && mayBeComponent settings e) = true
              · exact .inl (if_pos (by simpa using hpre))
              · exact .inr ⟨if_neg (by simpa using hpre), rfl⟩

/-- **Leaving out the data of plain elements loses nothing.**  In the tree of a template, and also
when what never changes is marked in it, a plain element has no directive, key, reference, class,
style, attribute, property or listener, and no other data.  So whatever is rendered for an element
has all its data, whether it is written or left out. -/
theorem exists_parse_bare (settings : Settings) (template : String)
    (h : ∀ opening closing, settings.customDelimiters = some (opening, closing) →
      opening ≠ "" ∧ closing ≠ "") :
    ∃ parsed, parse settings template = .ok parsed ∧
      ∀ t, t = parsed.tree ∨ (∃ marking, t = Static.mark marking parsed.tree) →
        ∀ id e, t.element? id = some e →
          (e.plain = true → e.IsBare ∧ dataCode e = "\x7b\x7d") ∧
          ∀ generating recur g name data children,
            (renderElement generating t recur id e g).1 = .create id name data children →
              data.getD "\x7b\x7d" = dataCode e := by
  obtain ⟨parsed, hparsed⟩ := exists_parse settings template h
  refine ⟨parsed, hparsed, fun t ht id e he => ?_⟩
  have hbare : e.plain = true → e.IsBare := by
    intro hplain
    rcases ht with rfl | ⟨marking, rfl⟩
    · exact isBare_of_parse hparsed he hplain
    · have halike := (Static.alike_mark marking (fresh_of_parse hparsed)).2
      obtain ⟨e₀, he₀, hsame⟩ := halike.symm.element? Node.element?_unmarked he
      have hplain₀ : e₀.plain = true := (congrArg Element.plain hsame :).trans hplain
      exact (Element.isBare_showsIn.congr hsame.symm fun _ => rfl).mpr
        (isBare_of_parse hparsed he₀ hplain₀)
  refine ⟨fun hplain => ⟨hbare hplain, dataCode_of_isBare (hbare hplain)⟩, ?_⟩
  intro generating recur g name data children hcreate
  rcases data_of_renderElement hcreate with rfl | ⟨rfl, hplain⟩
  · rfl
  · exact (dataCode_of_isBare (hbare hplain)).symm

/-- A loop, a condition and an empty key leave an element plain; a reference and `v-pre` do not. -/
theorem exists_parse_bare_list :
    ∃ parsed, parse Settings.web
        "<ul><li v-for=\"i in l\" v-if=i :key=\"\"></li><b ref=r></b><p v-pre><i></i></p></ul>" =
          .ok parsed ∧
      (∃ e, parsed.tree.element? 1 = some e ∧ e.plain = true ∧ e.loop.isSome = true ∧
        e.IsBare ∧ dataCode e = "\x7b\x7d") ∧
      (∃ e, parsed.tree.element? 2 = some e ∧ e.plain = false ∧ dataCode e = "\x7bref:\"r\"\x7d") ∧
      (∃ e, parsed.tree.element? 3 = some e ∧ e.plain = false ∧ dataCode e = "\x7bpre:true\x7d") ∧
      ∃ e, parsed.tree.element? 4 = some e ∧ e.plain = true ∧ e.IsBare := by
  obtain ⟨parsed, hparsed, hall⟩ := exists_parse_bare Settings.web
    "<ul><li v-for=\"i in l\" v-if=i :key=\"\"></li><b ref=r></b><p v-pre><i></i></p></ul>"
    (by simp [Settings.web])
  have hcheck : (Except.ok parsed : Except CompileError Parsed).toOption.any (fun parsed =>
      (parsed.tree.element? 1).any (fun e => e.plain && e.loop.isSome) &&
        (parsed.tree.element? 2).any (fun e => !e.plain && dataCode e == "\x7bref:\"r\"\x7d") &&
        (parsed.tree.element? 3).any (fun e => !e.plain && dataCode e == "\x7bpre:true\x7d") &&
        (parsed.tree.element? 4).any (·.plain)) := by
    rw [← hparsed]
    decide +kernel
  simp only [Except.toOption, Option.any_some, Bool.and_eq_true, Option.any_eq_true,
    Bool.not_eq_true', beq_iff_eq] at hcheck
  obtain ⟨⟨⟨⟨li, hli, hliplain, hloop⟩, ⟨b, hb, hbplain, hbdata⟩⟩, ⟨p, hp, hpplain, hpdata⟩⟩,
    ⟨i, hi, hiplain⟩⟩ := hcheck
  have hbare := fun id e he => (hall parsed.tree (.inl rfl) id e he).1
  exact ⟨parsed, hparsed, ⟨li, hli, hliplain, hloop, hbare 1 li hli hliplain⟩,
    ⟨b, hb, hbplain, hbdata⟩, ⟨p, hp, hpplain, hpdata⟩, i, hi, hiplain, (hbare 4 i hi hiplain).1⟩

end Render

end Templating
