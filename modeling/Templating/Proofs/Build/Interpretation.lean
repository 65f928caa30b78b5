import Templating.Proofs.Build.Growing
import Templating.Proofs.Build.Unreported

/-!
**What `v-pre` keeps, and what is read outside of it.**

An element with `v-pre` and everything inside it are kept as they stand.  Every other element is
read in two steps, when it is opened and when it is closed, and what is read there depends on its
attributes and on whether it stands in a loop, on nothing else.  A single mark tells the two apart
while the tree is built, so the mark has to follow the open elements.

Main definitions:

* `Templating.Build.IsRead` — an element that says what its attributes say;
* `Templating.Build.Builder.Reads` — every element outside of `v-pre` was read;
* `Templating.Build.VerbatimOnly` — what `v-pre` means for the tree of a template.

Main results:

* `Templating.Build.readDirectives_core` — reading does not look at children, branches and ends;
* `Templating.Build.Builder.invariant_reads` — **every event reads what is outside of `v-pre`**;
* `Templating.Build.Builder.Sealed.inVerbatim_iff` — the mark is on exactly while an open element
  has `v-pre`;
* `Templating.Build.interpreted_run` — every element of a template is kept or read.
-/

set_option autoImplicit false

namespace Templating

open Build Build.Builder Expression

/-! ### Reading, with children and ends left out -/

namespace Build

theorem take_core (e : Element) (name : String) :
    take e.core name = ((take e name).1, (take e name).2.core) := by
  simp only [take, Element.core]
  cases e.attributes.get? name <;> rfl

theorem takeNonEmpty_core (e : Element) (name : String) :
    takeNonEmpty e.core name = ((takeNonEmpty e name).1, (takeNonEmpty e name).2.core) := by
  simp only [takeNonEmpty, take_core]

theorem takeBound_core (e : Element) (name : String) :
    takeBound e.core name = ((takeBound e name).1, (takeBound e name).2.core) := by
  simp only [takeBound, takeNonEmpty_core, take_core]
  cases (takeNonEmpty e (":" ++ name)).1 <;> rfl

theorem takeBinding_core (e : Element) (name : String) :
    takeBinding e.core name = ((takeBinding e name).1, (takeBinding e name).2.core) := by
  simp only [takeBinding, takeBound_core, take_core]
  cases (takeBound e name).1 <;> rfl

theorem readKey_core (e : Element) :
    readKey e.core = ((readKey e).1.core, (readKey e).2) := by
  simp only [readKey, takeBinding_core]
  cases (takeBinding e "key").1.filter (· ≠ "") <;> rfl

theorem readReference_core (inFor : Bool) (e : Element) :
    readReference inFor e.core = (readReference inFor e).core := by
  simp only [readReference, takeBinding_core]
  cases (takeBinding e "ref").1.filter (· ≠ "") <;> rfl

theorem readSlot_core (e : Element) :
    readSlot e.core = ((readSlot e).1.core, (readSlot e).2) := by
  have htag : e.core.tag = e.tag := rfl
  simp only [readSlot, takeBinding_core, htag]
  split <;> rfl

theorem readComponent_core (e : Element) : readComponent e.core = (readComponent e).core := by
  have hinline : ∀ e' : Element, (if (take e' "inline-template").1.isSome then
      { (take e' "inline-template").2.core with inlineTemplate := true }
      else (take e' "inline-template").2.core) =
      (if (take e' "inline-template").1.isSome then
        { (take e' "inline-template").2 with inlineTemplate := true }
        else (take e' "inline-template").2).core := by
    intro e'
    split <;> rfl
  simp only [readComponent, takeBinding_core]
  cases (takeBinding e "is").1 with
  | none => simp only [take_core, hinline]
  | some code =>
      have hset : ({ (takeBinding e "is").2.core with component := some code } : Element) =
        ({ (takeBinding e "is").2 with component := some code } : Element).core := rfl
      simp only [hset, take_core, hinline]

theorem readClasses_core (delimiters : Option (String × String)) (e : Element) :
    readClasses delimiters e.core =
      ((readClasses delimiters e).1.core, (readClasses delimiters e).2) := by
  simp only [readClasses, take_core]
  cases (take e "class").1 with
  | none =>
      simp only [takeBound_core]
      cases (takeBound (take e "class").2 "class").1.filter (· ≠ "") <;> rfl
  | some classes =>
      dsimp only
      generalize String.ofList (Text.trim (Text.collapse classes.toList)) = collapsed
      generalize (take e "class").2 = e'
      have hrecord : (if collapsed = "" then e'.core
          else { e'.core with staticClass := some (Text.quote collapsed) }) =
          (if collapsed = "" then e'
            else { e' with staticClass := some (Text.quote collapsed) }).core := by
        split <;> rfl
      simp only [hrecord, takeBound_core]
      generalize (if collapsed = "" then e'
        else { e' with staticClass := some (Text.quote collapsed) }) = e''
      cases (takeBound e'' "class").1.filter (· ≠ "") <;> rfl

theorem readInlineStyle_core (delimiters : Option (String × String)) (e : Element) :
    readInlineStyle delimiters e.core =
      ((readInlineStyle delimiters e).1.core, (readInlineStyle delimiters e).2) := by
  simp only [readInlineStyle, take_core]
  cases (take e "style").1 with
  | none =>
      simp only [takeBound_core]
      cases (takeBound (take e "style").2 "style").1.filter (· ≠ "") <;> rfl
  | some css =>
      generalize (take e "style").2 = e'
      have hrecord : (if css = "" then e'.core
          else { e'.core with staticStyle := some (styleCode css) }) =
          (if css = "" then e' else { e' with staticStyle := some (styleCode css) }).core := by
        split <;> rfl
      simp only [hrecord, takeBound_core]
      generalize (if css = "" then e' else { e' with staticStyle := some (styleCode css) }) = e''
      cases (takeBound e'' "style").1.filter (· ≠ "") <;> rfl

theorem readAttribute_core (delimiters : Option (String × String)) (e : Element)
    (a : Markup.Attribute) : readAttribute delimiters e.core a =
      ((readAttribute delimiters e a).1.core, (readAttribute delimiters e a).2) := by
  unfold readAttribute
  split
  · rfl
  · dsimp only
    split <;> rfl
  · simp only [addListener]
    split <;> rfl
  · rfl

theorem readAttributes_core (delimiters : Option (String × String)) (l : List Markup.Attribute)
    (e : Element) : readAttributes delimiters l e.core =
      ((readAttributes delimiters l e).1.core, (readAttributes delimiters l e).2) := by
  induction l generalizing e with
  | nil => rfl
  | cons a l ih => simp only [readAttributes, readAttribute_core, ih]

/-- **Reading does not look at children, branches and ends.** -/
theorem readDirectives_core (delimiters : Option (String × String)) (inFor : Bool) (e : Element) :
    readDirectives delimiters inFor e.core =
      ((readDirectives delimiters inFor e).1.core, (readDirectives delimiters inFor e).2) := by
  have hplain : ∀ e : Element, markPlain e.core = (markPlain e).core := fun _ => rfl
  have hpending : ∀ e : Element, e.core.pending = e.pending := fun _ => rfl
  simp only [readDirectives, readKey_core, hplain, readReference_core, readSlot_core,
    readComponent_core, readClasses_core, readInlineStyle_core, hpending, readAttributes_core]

end Build

/-! ### Elements that are read -/

/-- An element with `v-pre` around it or on it is rendered as it stands. -/
theorem Tree.Stacked.verbatim_of_isPre {t : Tree} {opened : List NodeId} {hi : Nat} :
    ∀ {id : NodeId}, t.Stacked (id :: opened) hi → ∀ k ∈ id :: opened, t.isPre k = true →
      t.Verbatim id := by
  induction opened generalizing hi with
  | nil =>
      intro id _ k hk hpre
      obtain rfl := List.mem_singleton.mp hk
      obtain ⟨e, he, hpre⟩ := (Option.any_eq_true _ _).mp hpre
      exact .pre he hpre
  | cons next opened ih =>
      intro id h k hk hpre
      rcases List.mem_cons.mp hk with rfl | hk
      · obtain ⟨e, he, hpre⟩ := (Option.any_eq_true _ _).mp hpre
        exact .pre he hpre
      · cases h with
        | cons hlinks hparent _ _ hrest =>
            obtain ⟨e, he, rfl⟩ := Tree.links?_eq_some_some_iff.mp hlinks
            exact .inside he hparent (ih hrest k hk hpre)

namespace Build

/-- What is read when an element is opened outside of `v-pre`. -/
def readOpening (e : Element) : Element := readOnce (readCondition (readLoop e).1)

/-- **An element that was read**: it has no `v-pre`, and it says what its attributes say.  Whether
it was closed decides how much of them was read, and `inFor` says whether it stands in a loop. -/
structure IsRead (src : Source) (inFor closed : Bool) (e : Element) : Prop where
  unmarked : e.attributes.get? "v-pre" = none
  read : ∃ attributes start stop, e.core =
    (if closed then (readDirectives src.delimiters inFor
        (readOpening (newElement src e.parent e.tag attributes start stop).1)).1
      else readOpening (newElement src e.parent e.tag attributes start stop).1).core

theorem IsRead.congr {src : Source} {inFor closed : Bool} {e e' : Element}
    (h : IsRead src inFor closed e) (hsame : e'.core = e.core) : IsRead src inFor closed e' := by
  have hattributes : e'.attributes = e.attributes := (congrArg Element.attributes hsame :)
  have hparent : e'.parent = e.parent := (congrArg Element.parent hsame :)
  have htag : e'.tag = e.tag := (congrArg Element.tag hsame :)
  obtain ⟨hunmarked, attributes, start, stop, hread⟩ := h
  refine ⟨by rw [hattributes, hunmarked], attributes, start, stop, ?_⟩
  rw [hsame, hparent, htag, hread]

/-- Closing an element reads the rest of its attributes. -/
theorem IsRead.close {src : Source} {inFor : Bool} {e : Element} (h : IsRead src inFor false e) :
    IsRead src inFor true (readDirectives src.delimiters inFor e).1 := by
  have hunclosed := unclosed_readDirectives src.delimiters inFor e
  have hcore := readDirectives_core src.delimiters inFor e
  obtain ⟨hunmarked, attributes, start, stop, hread⟩ := h
  rw [if_neg Bool.false_ne_true] at hread
  rw [hread, readDirectives_core] at hcore
  have hcore := congrArg Prod.fst hcore
  generalize (readDirectives src.delimiters inFor e).1 = e' at hunclosed hcore ⊢
  have hattributes : e'.attributes = e.attributes := (congrArg Element.attributes hunclosed :)
  have hparent : e'.parent = e.parent := (congrArg Element.parent hunclosed :)
  have htag : e'.tag = e.tag := (congrArg Element.tag hunclosed :)
  refine ⟨by rw [hattributes, hunmarked], attributes, start, stop, ?_⟩
  rw [hparent, htag, if_pos rfl]
  exact hcore.symm

namespace Builder

variable {src : Source} {b b' : Builder}

/-- Inside `v-pre` the innermost element is rendered as it stands. -/
theorem Sealed.verbatim (h : b.Sealed) (ho : b.Ordered) {id : NodeId} {rest : List NodeId}
    (hopened : b.opened = id :: rest) (hmode : b.inVerbatim = true) : b.tree.Verbatim id := by
  have hmodes := h.modes
  rw [hmode] at hmodes
  obtain ⟨k, hk, hpre⟩ := List.countP_pos_iff.mp (by rw [hmodes]; decide)
  have hstacked := ho.stacked
  rw [hopened] at hk hstacked
  exact Tree.Stacked.verbatim_of_isPre hstacked k hk hpre

/-- **Every element outside of `v-pre` was read**, and to the end if it is closed. -/
def Reads (src : Source) (b : Builder) : Prop :=
  ∀ id e, b.tree.element? id = some e → ¬b.tree.Verbatim id →
    IsRead src (b.tree.nearestLoop? (some id)).isSome (!b.opened.contains id) e

/-- What was read stays so while the tree grows. -/
theorem Reads.keep (hb : b.Reads src) (hs : b.Sealed) (hs' : b'.Sealed)
    (hgrows : b.tree.Grows b'.tree) {id : NodeId} {e e' : Element}
    (he : b.tree.element? id = some e) (hsame : e'.core = e.core)
    (hopened : b'.opened.contains id = b.opened.contains id) (hid : ¬b'.tree.Verbatim id) :
    IsRead src (b'.tree.nearestLoop? (some id)).isSome (!b'.opened.contains id) e' := by
  have hlt := Tree.lt_size_of_element? he
  rw [hopened, hgrows.isSome_nearestLoop? hs.parent_lt hs'.parent_lt hlt]
  exact (hb id e he fun hverbatim => hid (hgrows.verbatim hverbatim)).congr hsame

/-- An element that does not get `v-pre` had no such attribute, and stays the same. -/
theorem markVerbatim_of_pre {e : Element} (h : (markVerbatim e).pre = false) :
    markVerbatim e = e ∧ e.attributes.get? "v-pre" = none := by
  cases hget : e.attributes.get? "v-pre" with
  | none =>
      have htake : take e "v-pre" = (none, e) := by simp only [take, hget]
      exact ⟨by simp [markVerbatim, htake], rfl⟩
  | some value =>
      have htake : (take e "v-pre").1 = some value := by simp only [take, hget]
      simp [markVerbatim, htake] at h

/-- Outside of `v-pre` an element without `v-pre` is read when it is opened. -/
theorem isRead_created (src : Source) (b : Builder) (tag : String)
    (attributes : List Markup.Attribute) (start stop : Nat) (inFor : Bool)
    (hmode : b.inVerbatim = false) (hpre : (b.created src tag attributes start stop).pre = false) :
    IsRead src inFor false (b.created src tag attributes start stop) := by
  rw [pre_created] at hpre
  have hmark : b.marked src tag attributes start stop =
      markVerbatim (newElement src b.opened.head? tag attributes start stop).1 := by
    simp only [marked, hmode, Bool.false_eq_true, if_false]
  have hcore : (b.created src tag attributes start stop).core =
      (readOpening (b.marked src tag attributes start stop)).core := by
    have hoff : ¬(b.inVerbatim || (b.marked src tag attributes start stop).pre) = true := by
      simp [hmode, hpre]
    simp only [created]
    rw [if_neg hoff]
    rfl
  obtain ⟨hself, hget⟩ := markVerbatim_of_pre (hmark ▸ hpre)
  rw [hmark, hself] at hcore
  have htag := tag_created src b tag attributes start stop
  have hparent : (newElement src b.opened.head? tag attributes start stop).1.parent =
      b.opened.head? := by
    obtain ⟨_, _, _, _, hnew⟩ := newElement_eq src tag attributes start stop b.opened.head?
    rw [hnew]
    rfl
  have hopening := unopened_readOpening (newElement src b.opened.head? tag attributes start stop).1
  change (readOpening _).unopened = _ at hopening
  generalize b.created src tag attributes start stop = e at hcore htag ⊢
  have hattributes : e.attributes =
      (newElement src b.opened.head? tag attributes start stop).1.attributes :=
    (congrArg Element.attributes hcore :).trans (congrArg Element.attributes hopening :)
  have hparent' : e.parent = b.opened.head? :=
    (congrArg Element.parent hcore :).trans ((congrArg Element.parent hopening :).trans hparent)
  refine ⟨by rw [hattributes, hget], attributes, start, stop, ?_⟩
  rw [hparent', htag, hcore]
  rfl

theorem Reads.leaf {parent : NodeId} {rest : List NodeId} {n : Node}
    (hopened : b.opened = parent :: rest) (hn : b.Admits src n) (hb : b.Reads src) (hs : b.Sealed)
    (ho : b.Ordered) : (b.append parent n).Reads src := by
  intro id e' he' hid
  obtain ⟨e, he, hsame⟩ := exists_element_of_append hn he'
  exact hb.keep hs (hs.leaf hopened hn ho) (b.grows_append parent n) he hsame rfl hid

theorem Reads.enter (tag : String) (attributes : List Markup.Attribute) (start stop : Nat)
    (hb : b.Reads src) (hs : b.Sealed) (ho : b.Ordered) :
    (b.enter src (b.created src tag attributes start stop)).Reads src := by
  have hs' := hs.enter src tag attributes start stop ho
  have ho' := ho.enter src tag attributes start stop
  intro id e he hid
  rw [element?_enter] at he
  split at he
  · rename_i hnew
    subst hnew
    cases he
    -- the new element is the innermost one, so the mark must be off
    have hmode : (b.inVerbatim || (b.created src tag attributes start stop).pre) = false := by
      by_contra hon
      exact hid (hs'.verbatim ho' rfl (eq_true_of_ne_false hon))
    obtain ⟨hmode, hpre⟩ := Bool.or_eq_false_iff.mp hmode
    have hclosed : (!(b.enter src (b.created src tag attributes start stop)).opened.contains
        b.tree.size) = false := by simp [Builder.enter]
    rw [hclosed]
    exact isRead_created src b tag attributes start stop _ hmode hpre
  · rename_i hne
    refine hb.keep hs hs' (grows_enter src b _) he rfl ?_ hid
    simp [Builder.enter, hne]

theorem Reads.stop (id : NodeId) (stop : Nat) (hb : b.Reads src) (hs : b.Sealed) :
    Reads src { b with tree := b.tree.modifyElement id fun e => { e with stop := some stop } } := by
  have hcore := b.sameCore_stop id stop
  intro k e' he' hk
  obtain ⟨e, he, hsame⟩ := hcore.symm.element? Node.element?_core he'
  exact hb.keep hs (hs.stop id stop) (.of_alike (hcore.coarsen Node.frame_core)) he hsame.symm rfl
    hk

/-- Outside of `v-pre` the rest of the attributes is read when an element is closed. -/
theorem completed_of_outside (src : Source) (hmode : b.inVerbatim = false)
    (hfirst : b.tree.ParentsFirst) {id : NodeId} (hid : id < b.tree.size) (e : Element) :
    b.completed src id e =
      (readDirectives src.delimiters (b.tree.nearestLoop? (some id)).isSome (b.trimmed e)).1 := by
  have halike : b.tree.Alike Node.frame (b.trimEnd id).tree := by
    rw [trimEnd_eq]
    exact (Tree.sameCore_modifyElement _ id (core_trimmed b)).coarsen Node.frame_core
  have hfirst' : (b.trimEnd id).tree.ParentsFirst := by
    intro k e' he' parent hparent
    obtain ⟨e₀, he₀, hsame⟩ := halike.symm.element? Node.element?_frame he'
    have hparent₀ : e₀.parent = e'.parent := (congrArg Element.parent hsame :)
    exact hfirst k e₀ he₀ parent (hparent₀.trans hparent)
  have hloop := (Tree.Grows.of_alike halike).isSome_nearestLoop? hfirst hfirst' hid
  have hoff : ¬b.inVerbatim = true := by simp [hmode]
  rw [completed, if_neg hoff, hloop]

theorem Reads.finish {id : NodeId} {rest : List NodeId} (hopened : b.opened = id :: rest)
    (hb : b.Reads src) (hs : b.Sealed) (ho : b.Ordered) :
    ({ b with opened := rest }.finishElement src id).Reads src := by
  have hs' := hs.finish src hopened ho
  obtain ⟨e, he, -, hrest⟩ := ho.exists_innermost hopened
  have hlt := Tree.lt_size_of_element? he
  obtain ⟨t, hfinished⟩ := finished_finishElement src { b with opened := rest } he
  have hgrows := Tree.Grows.of_alike (hfinished.alike he)
  have hopened' : ({ b with opened := rest }.finishElement src id).opened = rest := hfinished.opened
  intro k e' he' hk
  obtain ⟨e₀, he₀, hsame⟩ := hfinished.sameCore.symm.element? Node.element?_core he'
  obtain ⟨e₁, he₁, rfl⟩ := Tree.exists_of_element?_modifyElement he₀
  by_cases hkid : id = k
  · subst hkid
    obtain rfl : e = e₁ := by simpa [he] using he₁
    have hid : ¬b.tree.Verbatim id := fun hverbatim => hk (hgrows.verbatim hverbatim)
    have hmode : b.inVerbatim = false := by
      by_contra hon
      exact hid (hs.verbatim ho hopened (by simpa using hon))
    -- the element was open before, and now the rest of its attributes is read
    have hread := hb id e he hid
    have hwas : (!b.opened.contains id) = false := by simp [hopened]
    have hnow : (!({ b with opened := rest }.finishElement src id).opened.contains id) = true := by
      rw [hopened']
      simpa using fun hmem => Nat.lt_irrefl id (hrest id hmem)
    rw [hwas] at hread
    rw [if_pos rfl] at hsame
    rw [hnow, hgrows.isSome_nearestLoop? hs.parent_lt hs'.parent_lt hlt]
    rw [completed_of_outside (b := { b with opened := rest }) src hmode hs.parent_lt hlt] at hsame
    exact ((hread.congr (core_trimmed _ e)).close).congr hsame.symm
  · rw [if_neg hkid] at hsame
    refine hb.keep hs hs' hgrows he₁ hsame.symm ?_ hk
    rw [hopened', hopened]
    simp [Ne.symm hkid]

/-- **Every event reads what is outside of `v-pre`.** -/
theorem invariant_reads (src : Source) :
    Invariant src fun b => (b.Ordered ∧ b.Sealed) ∧ b.Reads src where
  init := ⟨(invariant_sealed src).init, by simp [Reads, Tree.element?, Tree.node?]⟩
  agrees h hb := ⟨(invariant_sealed src).agrees h hb.1, by
    obtain ⟨htree, hopened, -, -⟩ := h
    simpa only [Reads, htree, hopened] using hb.2⟩
  leaf hopened hn hb := ⟨(invariant_sealed src).leaf hopened hn hb.1,
    hb.2.leaf hopened hn hb.1.2 hb.1.1⟩
  enter tag attributes start stop hb :=
    ⟨(invariant_sealed src).enter tag attributes start stop hb.1,
      hb.2.enter tag attributes start stop hb.1.2 hb.1.1⟩
  stop id stop hb := ⟨(invariant_sealed src).stop id stop hb.1, hb.2.stop id stop hb.1.2⟩
  finish hopened hb := ⟨(invariant_sealed src).finish hopened hb.1,
    hb.2.finish hopened hb.1.2 hb.1.1⟩

/-- The mark is on exactly while an open element has `v-pre`. -/
theorem Sealed.inVerbatim_iff (h : b.Sealed) :
    b.inVerbatim = true ↔ ∃ id ∈ b.opened, b.tree.isPre id = true := by
  rw [← List.countP_pos_iff, h.modes]
  cases b.inVerbatim <;> simp

end Builder

/-! ### Templates -/

/-- **Every element of a template** is kept as it stands, or it was read to the end. -/
theorem interpreted_run (src : Source) {id : NodeId} {e : Element}
    (he : (Builder.run src (Markup.events src.settings src.template)).tree.element? id = some e) :
    ((Builder.run src (Markup.events src.settings src.template)).tree.Verbatim id →
      e.IsLiteral) ∧
    (¬(Builder.run src (Markup.events src.settings src.template)).tree.Verbatim id →
      ∃ inFor, IsRead src inFor true e) := by
  obtain ⟨⟨-, hsealed⟩, hreads⟩ := (Builder.invariant_reads src).run
    (Markup.events src.settings src.template)
  have hclosed : (Builder.run src (Markup.events src.settings src.template)).opened = [] :=
    Builder.opened_run (Markup.replay_scan src.settings [] 0 src.template.toList)
  refine ⟨hsealed.literal id e he, fun hid => ?_⟩
  have hread := hreads id e he hid
  rw [hclosed, List.contains_nil, Bool.not_false] at hread
  exact ⟨_, hread⟩

/-- **What `v-pre` means for the tree of a template.** -/
structure VerbatimOnly (src : Source) (t : Tree) : Prop where
  /-- Below an element with `v-pre`, itself included, there are texts, and elements with their
  attributes as they stand. -/
  inside : ∀ top e, t.element? top = some e → e.pre = true → ∀ id, t.Below top id →
    (∃ n, t.node? id = some (.text n)) ∨ ∃ e', t.element? id = some e' ∧ e'.IsLiteral
  /-- Every element outside of those was read to the end. -/
  outside : ∀ id e, t.element? id = some e → ¬t.Verbatim id →
    IsRead src (t.nearestLoop? (some id)).isSome true e
  /-- While the tree is built the mark is on exactly while an open element has `v-pre`. -/
  mode : ∀ seen, seen <+: Markup.events src.settings src.template →
    ((Builder.run src seen).inVerbatim = true ↔
      ∃ id ∈ (Builder.run src seen).opened, (Builder.run src seen).tree.isPre id = true)

/-- **With `v-pre` an element and everything inside it are kept as they stand**, and everything else
is read. -/
theorem exists_parse_verbatimOnly (settings : Settings) (template : String)
    (h : ∀ opening closing, settings.customDelimiters = some (opening, closing) →
      opening ≠ "" ∧ closing ≠ "") :
    ∃ delimiters parsed, settings.delimiters = .ok delimiters ∧
      parse settings template = .ok parsed ∧
      VerbatimOnly ⟨settings, template, delimiters⟩ parsed.tree := by
  obtain ⟨parsed, hparsed⟩ := exists_parse settings template h
  have hparse := hparsed
  unfold parse at hparse
  split at hparse
  · cases hparse
  · rename_i delimiters hdelimiters
    cases hparse
    refine ⟨delimiters, _, hdelimiters, hparsed, ?_⟩
    have hinvariant := Builder.invariant_reads ⟨settings, template, delimiters⟩
    obtain ⟨⟨-, hsealed⟩, hreads⟩ := hinvariant.run (Markup.events settings template)
    have hclosed : (Builder.run ⟨settings, template, delimiters⟩
        (Markup.events settings template)).opened = [] :=
      Builder.opened_run (Markup.replay_scan settings [] 0 template.toList)
    refine ⟨fun top e he hpre id => hsealed.of_below he hpre, ?_, ?_⟩
    · intro id e he hid
      have hread := hreads id e he hid
      rwa [hclosed] at hread
    · intro seen _
      exact (hinvariant.run seen).1.2.inVerbatim_iff

/-- Directives and an interpolation inside an element with `v-pre`, and the same next to it. -/
theorem exists_parse_verbatimOnly_siblings :
    ∃ delimiters parsed p i, parse { Settings.web with customDelimiters := some ("[[", "]]") }
        "<div><p v-pre :a=\"x\">[[ y ]]<b v-if=\"z\">q</b></p><i :a=\"x\">[[ y ]]</i></div>" =
          .ok parsed ∧
      parsed.tree.element? 1 = some p ∧ p.pre = true ∧ p.attrs = [⟨":a", "\"x\"", false⟩] ∧
      parsed.tree.element? 5 = some i ∧ i.pre = false ∧ i.attrs = [⟨"a", "x", false⟩] ∧
      VerbatimOnly ⟨{ Settings.web with customDelimiters := some ("[[", "]]") },
        "<div><p v-pre :a=\"x\">[[ y ]]<b v-if=\"z\">q</b></p><i :a=\"x\">[[ y ]]</i></div>",
        delimiters⟩ parsed.tree := by
  obtain ⟨delimiters, parsed, -, hparsed, hverbatim⟩ := exists_parse_verbatimOnly
    { Settings.web with customDelimiters := some ("[[", "]]") }
    "<div><p v-pre :a=\"x\">[[ y ]]<b v-if=\"z\">q</b></p><i :a=\"x\">[[ y ]]</i></div>" (by simp)
  have hcheck : (Except.ok parsed : Except CompileError Parsed).toOption.any (fun parsed =>
      (parsed.tree.element? 1).any (fun e => e.pre && e.attrs == [⟨":a", "\"x\"", false⟩]) &&
        (parsed.tree.element? 5).any fun e => !e.pre && e.attrs == [⟨"a", "x", false⟩]) := by
    rw [← hparsed]
    decide +kernel
  obtain ⟨hp, hi⟩ := (Bool.and_eq_true _ _).mp hcheck
  obtain ⟨p, hp, hsays⟩ := (Option.any_eq_true _ _).mp hp
  obtain ⟨i, hi, hsays'⟩ := (Option.any_eq_true _ _).mp hi
  simp only [Bool.and_eq_true, Bool.not_eq_true', beq_iff_eq] at hsays hsays'
  exact ⟨delimiters, parsed, p, i, hparsed, hp, hsays.1, hsays.2, hi, hsays'.1, hsays'.2, hverbatim⟩

end Build

end Templating
