import Templating.Proofs.Build.Growing

/-!
**Where nodes stand.**

When places are recorded, every node says where it starts and where it ends.  A leaf says so from
the beginning; an element first says where its start tag stands, and learns its end when it is
closed.  Nothing else that happens to a node moves it.  What happens to the children of an element
is one of two things: some of them are dropped, or a node is added behind them.

Main definitions:

* `Templating.Site` — where a node stands, and its tag when it is an element;
* `Templating.Tree.site?` — where a node of a tree stands;
* `Templating.Tree.Adopts` — a change that moves no node and adds at most one child to an element.

Main results:

* `Templating.Build.Builder.site?_created`, `Templating.Build.Builder.site?_of_place` — where new
  nodes stand;
* `Templating.Build.Builder.Finished.adopts` — **finishing an element moves no node**.
-/

set_option autoImplicit false

namespace Templating

/-- Where a node stands, with its tag when it is an element. -/
structure Site where
  tag : Option String
  start : Nat
  stop : Nat

/-- Where something stands whose start and end may be recorded. -/
def Site.of? (tag : Option String) (start stop : Option Nat) : Option Site :=
  start.bind fun s => stop.map fun k => ⟨tag, s, k⟩

/-- Where an element stands, when that is recorded. -/
def Element.site? (e : Element) : Option Site := Site.of? (some e.tag) e.start e.stop

/-- Where a node stands, when that is recorded. -/
def Node.site? : Node → Option Site
  | .element e => e.site?
  | .expression n => Site.of? none n.start n.stop
  | .text n => Site.of? none n.start n.stop

/-- An element with a site has its start and its end recorded. -/
theorem Element.site?_eq_some_iff {e : Element} {a : Site} :
    e.site? = some a ↔ a.tag = some e.tag ∧ e.start = some a.start ∧ e.stop = some a.stop := by
  obtain ⟨tag, start, stop⟩ := a
  cases hstart : e.start <;> cases hstop : e.stop <;>
    simp [Element.site?, Site.of?, hstart, hstop, eq_comm]

namespace Tree

/-- Where a node of a tree stands. -/
def site? (t : Tree) (k : NodeId) : Option Site := (t.node? k).bind Node.site?

variable {t t' t'' : Tree} {id k : NodeId} {e : Element}

theorem site?_of_element? (he : t.element? id = some e) : t.site? id = e.site? := by
  rw [site?, node?_of_element? he]
  rfl

theorem site?_of_size_le {k : Nat} (h : t.size ≤ k) : t.site? k = none := by
  have hnone : t.node? k = none := Array.getElem?_eq_none h
  rw [site?, hnone]
  rfl

theorem lt_size_of_site? {k : Nat} {a : Site} (h : t.site? k = some a) : k < t.size := by
  by_contra hle
  rw [site?_of_size_le (Nat.le_of_not_lt hle)] at h
  cases h

/-- Changing an element moves no other node. -/
theorem site?_modifyElement_of_ne (f : Element → Element) (hne : id ≠ k) :
    (t.modifyElement id f).site? k = t.site? k := by
  rw [site?, node?_modifyElement, if_neg hne]
  rfl

/-- A change that keeps an element where it stands. -/
theorem site?_modifyElement {f : Element → Element}
    (hf : ∀ e, t.element? id = some e → (f e).site? = e.site?) (k : NodeId) :
    (t.modifyElement id f).site? k = t.site? k := by
  by_cases hk : id = k
  · subst hk
    cases hn : t.node? id with
    | none => simp [site?, node?_modifyElement, hn]
    | some n =>
        cases n with
        | element e =>
            rw [site?, site?, node?_modifyElement, if_pos rfl, hn]
            exact hf e (element?_of_node? hn)
        | expression => simp [site?, node?_modifyElement, hn]
        | text => simp [site?, node?_modifyElement, hn]
  · exact site?_modifyElement_of_ne f hk

/-- What has a tag is an element. -/
theorem exists_element_of_site? {a : Site} {name : String} (ha : t.site? id = some a)
    (htag : a.tag = some name) : ∃ e, t.element? id = some e := by
  obtain ⟨n, hn, hsite⟩ := Option.bind_eq_some_iff.mp ha
  have hleaf : ∀ start stop, Site.of? none start stop ≠ some a := by
    intro start stop hof
    obtain ⟨s, -, hmap⟩ := Option.bind_eq_some_iff.mp hof
    obtain ⟨k, -, rfl⟩ := Option.map_eq_some_iff.mp hmap
    cases htag
  cases n with
  | element e => exact ⟨e, element?_of_node? hn⟩
  | expression n => exact absurd hsite (hleaf n.start n.stop)
  | text n => exact absurd hsite (hleaf n.start n.stop)

/-- An element gets its end. -/
theorem site?_modifyElement_stop {a : Site} (he : t.element? id = some e)
    (ha : t.site? id = some a) (stop : Nat) :
    (t.modifyElement id fun e => { e with stop := some stop }).site? id =
      some { a with stop } := by
  have he' : (t.modifyElement id fun e => { e with stop := some stop }).element? id =
      some { e with stop := some stop } := by
    rw [element?_modifyElement, if_pos rfl, he]
    rfl
  rw [site?_of_element? he, Element.site?_eq_some_iff] at ha
  rw [site?_of_element? he', Element.site?_eq_some_iff]
  exact ⟨ha.1, ha.2.1, rfl⟩

/-! ### Gaining a child -/

/-- A change of a tree that moves no node.  Elements lose some of their children at most, and
`parent` may get `c` as its last one. -/
structure Adopts (t t' : Tree) (parent : Option NodeId) (c : NodeId) : Prop where
  size : t'.size = t.size
  site : ∀ k, t'.site? k = t.site? k
  children : ∀ k e', t'.element? k = some e' → ∃ e, t.element? k = some e ∧
    (e'.children.Sublist e.children ∨
      parent = some k ∧ e'.children.Sublist (e.children ++ [c]))

namespace Adopts

variable {parent : Option NodeId} {c : NodeId}

theorem refl (t : Tree) : t.Adopts t parent c :=
  ⟨rfl, fun _ => rfl, fun _ e he => ⟨e, he, .inl (List.Sublist.refl _)⟩⟩

/-- A change of one element that drops some of its children. -/
theorem modifyElement {f : Element → Element}
    (hf : ∀ e, t.element? id = some e → (f e).site? = e.site? ∧ (f e).children.Sublist e.children) :
    t.Adopts (t.modifyElement id f) parent c := by
  refine ⟨by simp, site?_modifyElement fun e he => (hf e he).1, fun k e' he' => ?_⟩
  obtain ⟨e, he, rfl⟩ := exists_of_element?_modifyElement he'
  refine ⟨e, he, .inl ?_⟩
  split
  · rename_i hk
    subst hk
    exact (hf e he).2
  · exact List.Sublist.refl _

/-- Adding a child. -/
theorem addChild (t : Tree) (p c : NodeId) : t.Adopts (t.addChild p c) (some p) c := by
  refine ⟨by simp [Tree.addChild], site?_modifyElement fun _ _ => rfl, fun k e' he' => ?_⟩
  obtain ⟨e, he, rfl⟩ := exists_of_element?_modifyElement he'
  refine ⟨e, he, ?_⟩
  split
  · rename_i hk
    exact .inr ⟨by rw [hk], List.Sublist.refl _⟩
  · exact .inl (List.Sublist.refl _)

/-- Children are dropped first. -/
theorem after (h : t.Adopts t' none c) (h' : t'.Adopts t'' parent c) : t.Adopts t'' parent c := by
  refine ⟨h'.size.trans h.size, fun k => (h'.site k).trans (h.site k), fun k e'' he'' => ?_⟩
  obtain ⟨e', he', hchildren'⟩ := h'.children k e'' he''
  obtain ⟨e, he, hchildren | ⟨hnone, -⟩⟩ := h.children k e' he'
  · exact ⟨e, he, hchildren'.imp (·.trans hchildren)
      fun hgain => ⟨hgain.1, hgain.2.trans (hchildren.append_right [c])⟩⟩
  · cases hnone

/-- Children are dropped in the end. -/
theorem before (h : t.Adopts t' parent c) (h' : t'.Adopts t'' none c) : t.Adopts t'' parent c := by
  refine ⟨h'.size.trans h.size, fun k => (h'.site k).trans (h.site k), fun k e'' he'' => ?_⟩
  obtain ⟨e', he', hchildren' | ⟨hnone, -⟩⟩ := h'.children k e'' he''
  · obtain ⟨e, he, hchildren⟩ := h.children k e' he'
    exact ⟨e, he, hchildren.imp hchildren'.trans fun hgain => ⟨hgain.1, hchildren'.trans hgain.2⟩⟩
  · cases hnone

end Adopts

end Tree

namespace Build.Builder

/-! ### New nodes -/

section Created

variable {src : Source} (hranges : src.settings.sourceRanges = true)

include hranges

/-- An element first stands where its start tag does. -/
theorem site?_created (b : Builder) (tag : String) (attributes : List Markup.Attribute)
    (start stop : Nat) :
    (b.created src tag attributes start stop).site? = some ⟨some tag, start, stop⟩ := by
  have hnew : (newElement src b.opened.head? tag attributes start stop).1.site? =
      some ⟨some tag, start, stop⟩ := by
    simp only [newElement, if_pos hranges]
    rfl
  have hmarked : (b.marked src tag attributes start stop).site? =
      some ⟨some tag, start, stop⟩ := by
    rw [← hnew]
    unfold marked
    dsimp only
    split
    · rfl
    · obtain ⟨pending, pre, hmark⟩ :=
        markVerbatim_eq (newElement src b.opened.head? tag attributes start stop).1
      rw [hmark]
      rfl
  rw [← hmarked]
  have hbranches : ∀ (e : Element) (branches : List Branch),
      ({ e with branches } : Element).site? = e.site? := fun _ _ => rfl
  simp only [created, hbranches]
  split
  · obtain ⟨attrs, plain, hkeep, -⟩ := keepVerbatim_eq (b.marked src tag attributes start stop)
    rw [hkeep]
    rfl
  · have hread := unopened_readOpening (b.marked src tag attributes start stop)
    exact (congrArg Element.site? hread :)

/-- A leaf stands where its token does. -/
theorem site?_of_place {b : Builder} {n : Node} {start stop : Nat} (hn : b.Admits src n)
    (hplace : place n = recorded src start stop) : n.site? = some ⟨none, start, stop⟩ := by
  have hsite : n.site? = Site.of? none (place n).1 (place n).2 := by
    cases n with
    | element => exact hn.elim
    | expression => rfl
    | text => rfl
  rw [hsite, hplace, recorded, if_pos hranges]
  rfl

end Created

/-! ### Finishing an element -/

theorem site?_trimmed (b : Builder) (e : Element) : (b.trimmed e).site? = e.site? := by
  unfold trimmed
  split <;> rfl

/-- Attaching an element moves no node. -/
theorem Attached.adopts {t t' : Tree} {opened : List NodeId} {id : NodeId} {e : Element}
    (h : Attached t opened id e t') : t.Adopts t' opened.head? id := by
  have hdrop : ∀ (parent : NodeId) (p : Option NodeId),
      t.Adopts (t.modifyElement parent (dropLeaves t)) p id := fun parent p =>
    .modifyElement fun e _ => ⟨rfl, (t.prefix_upToElement e.children).sublist⟩
  have hbranch : ∀ (t : Tree) (k : NodeId) (branch : Branch) (p : Option NodeId),
      t.Adopts (t.modifyElement k (withBranch branch)) p id := fun t k branch p =>
    .modifyElement fun e _ => ⟨rfl, List.Sublist.refl _⟩
  cases h with
  | nothing => exact .refl t
  | child hopened =>
      rw [hopened]
      exact .addChild t _ id
  | orphan => exact hdrop _ _
  | branch => exact (hdrop _ none).after (hbranch _ _ _ _)
  | root => exact hbranch _ _ _ _

/-- **Finishing an element moves no node.** -/
theorem Finished.adopts {src : Source} {b b' : Builder} {id : NodeId} {e : Element} {t : Tree}
    (h : Finished src b id e t b') (he : b.tree.element? id = some e) :
    b.tree.Adopts b'.tree b.opened.head? id := by
  have hcompleted :
      b.tree.Adopts (b.tree.modifyElement id fun _ => b.completed src id e) none id := by
    refine .modifyElement fun e' he' => ?_
    obtain rfl : e = e' := by simpa [he] using he'
    have hunclosed := unclosed_completed src b id e
    have hsite : (b.completed src id e).site? = (b.trimmed e).site? :=
      (congrArg Element.site? hunclosed :)
    have hchildren : (b.completed src id e).children = (b.trimmed e).children :=
      (congrArg Element.children hunclosed :)
    exact ⟨hsite.trans (b.site?_trimmed e), hchildren ▸ (b.prefix_trimmed e).sublist⟩
  rw [h.tree]
  exact (hcompleted.after h.attached.adopts).before
    (.modifyElement fun e _ => ⟨site?_trimmed _ e, (prefix_trimmed _ e).sublist⟩)

end Build.Builder

end Templating
