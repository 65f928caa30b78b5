import Templating.Proofs.Build.Invariant
import Templating.Proofs.Tree.DocumentOrder

/-!
**The tree of a template is in document order.**

While a tree is built, the open elements are nested: each has the next one as its parent, and what
was finished inside it is a forest behind its own number.  Finishing the innermost element makes it
a forest of its own, which is attached to the forest of its parent or of an earlier conditional, or
cut off.

Main definitions:

* `Templating.Tree.Stacked` — open elements with what was finished inside them;
* `Templating.Build.Builder.Ordered` — the tree and the open elements of a builder fit together.

Main results:

* `Templating.Tree.Stacked.attached` — attaching a finished element keeps the others nested;
* `Templating.Build.Builder.invariant_ordered` — **every event keeps the builder ordered**;
* `Templating.Build.exists_parse_inDocumentOrder` — every template has a tree, and it is in document
  order.
-/

set_option autoImplicit false

namespace Templating

open Build Build.Builder

/-! ### Open elements -/

namespace Tree

/-- The elements that are open, innermost first, when all nodes have numbers below `hi`.  Without
open elements the first node is an element, the root of everything that is attached. -/
inductive Stacked (t : Tree) : (opened : List NodeId) → (hi : Nat) → Prop
  | nil {hi : Nat}
      (h : 0 < hi → Forest t none 0 hi [0] ∧ ∃ l, t.links? 0 = some (some l)) : Stacked t [] hi
  | cons {id : NodeId} {opened : List NodeId} {hi : Nat} {l : Links}
      (hlinks : t.links? id = some (some l)) (hparent : l.parent = opened.head?)
      (hfurther : l.further = []) (hchildren : Forest t (some id) (id + 1) hi l.children)
      (h : Stacked t opened id) : Stacked t (id :: opened) hi

namespace Stacked

variable {t t' : Tree} {opened : List NodeId} {hi : Nat}

/-- Dropping children from the end leaves open elements nested. -/
theorem shrink (h : Stacked t opened hi) (hs : Shrinks t t' 0 hi) : Stacked t' opened hi := by
  induction h with
  | nil h =>
      refine nil fun hpos => ⟨(h hpos).1.shrink hs, ?_⟩
      obtain ⟨l, hl⟩ := (h hpos).2
      obtain ⟨l', hl', -⟩ := hs.element 0 l le_rfl hpos hl
      exact ⟨l', hl'⟩
  | @cons id opened hi l hlinks hparent hfurther hchildren _ ih =>
      have hle := hchildren.le
      obtain ⟨l', hlinks', hl⟩ := hs.element id l (by omega) (by omega) hlinks
      have hchildren' : Forest t' (some id) (id + 1) hi l'.children :=
        (hchildren.shrink (hs.narrow (by omega) le_rfl)).truncate hl.children
      exact cons hlinks' (hl.parent.trans hparent) (hl.further.trans hfurther) hchildren'
        (ih (hs.narrow le_rfl (by omega)))

/-- Open elements do not depend on what comes later. -/
theorem congr (h : Stacked t opened hi)
    (hlinks : ∀ id : Nat, id < hi → t'.links? id = t.links? id) : Stacked t' opened hi :=
  h.shrink (Shrinks.of_eq fun id _ hid => hlinks id hid)

/-- Numbers may be skipped behind what is there, unless nothing is there. -/
theorem widen {hi' : Nat} (h : Stacked t opened hi) (hhi : hi ≤ hi')
    (hne : opened = [] → 0 < hi) : Stacked t opened hi' := by
  cases h with
  | nil h => exact nil fun _ => ⟨(h (hne rfl)).1.widen le_rfl hhi, (h (hne rfl)).2⟩
  | cons hlinks hparent hfurther hchildren h =>
      exact cons hlinks hparent hfurther (hchildren.widen le_rfl hhi) h

/-- A finished element may be left out, unless it is the root. -/
theorem skip {id : Nat} {l : Links} (h : Stacked t opened id)
    (hid : Forest t opened.head? id hi [id]) (hl : t.links? id = some (some l)) :
    Stacked t opened hi := by
  -- without open elements the first one is the root, and nothing else may take its place
  by_cases hroot : opened = [] ∧ id = 0
  · obtain ⟨rfl, rfl⟩ := hroot
    exact nil fun _ => ⟨hid, l, hl⟩
  · refine h.widen hid.le fun hnil => ?_
    by_contra hpos
    exact hroot ⟨hnil, by omega⟩

/-- The innermost element with everything inside it. -/
theorem forest_head {id : Nat} (h : Stacked t (id :: opened) hi) :
    Forest t opened.head? id hi [id] := by
  cases h with
  | cons hlinks hparent hfurther hchildren h =>
      have hnone : Forest t opened.head? hi hi [] := .nil le_rfl
      refine .element hlinks hparent le_rfl hchildren ?_ (by rw [hfurther]; exact hnone) hnone
      rw [hfurther]
      simp

theorem lt {id : Nat} (h : Stacked t (id :: opened) hi) : id < hi :=
  (h.forest_head.mem_interval id (by simp)).2

/-- Open elements have numbers that are in use. -/
theorem mem_lt (h : Stacked t opened hi) : ∀ k : Nat, k ∈ opened → k < hi := by
  induction h with
  | nil => simp
  | cons _ _ _ hchildren _ ih =>
      intro k hk
      have hle := hchildren.le
      rcases List.mem_cons.mp hk with rfl | hk
      · omega
      · have := ih k hk
        omega

/-- What is attached by the end is a forest from the root. -/
theorem forest (h : Stacked t opened hi) (hpos : 0 < hi) :
    Forest t none 0 hi [0] ∧ ∃ l, t.links? 0 = some (some l) := by
  induction opened with
  | nil =>
      cases h with
      | nil h => exact h hpos
  | cons id opened ih =>
      -- an element that is still open in the end is finished without being attached
      have hhead := h.forest_head
      cases h with
      | cons hlinks _ _ _ h => exact ih (h.skip hhead hlinks)

end Stacked

/-! ### Changes that keep a forest -/

/-- Dropping children of one element from the end. -/
theorem shrinks_modifyElement (t : Tree) (id : NodeId) {f : Element → Element}
    (hf : ∀ e, t.element? id = some e → e.links.Shrinks (f e).links) (lo hi : Nat) :
    Shrinks t (t.modifyElement id f) lo hi := by
  cases he : t.element? id with
  | none => exact Shrinks.of_eq fun k _ _ => links?_modifyElement_of_none f he k
  | some e =>
      constructor
      · intro k _ _ hk
        rw [links?_modifyElement f he, if_neg, hk]
        rintro rfl
        rw [links?_of_element? he] at hk
        cases hk
      · intro k l _ _ hk
        rw [links?_modifyElement f he]
        by_cases hkid : k = id
        · subst hkid
          rw [links?_of_element? he] at hk
          cases hk
          exact ⟨_, if_pos rfl, hf e he⟩
        · exact ⟨l, by rw [if_neg hkid, hk], Links.Shrinks.refl l⟩

theorem shrinks_dropLeaves (t : Tree) (e : Element) : e.links.Shrinks (dropLeaves t e).links :=
  ⟨rfl, t.prefix_upToElement _, rfl⟩

theorem shrinks_trimmed (b : Builder) (e : Element) : e.links.Shrinks (b.trimmed e).links := by
  unfold trimmed
  split
  · exact Links.Shrinks.refl _
  · exact ⟨rfl, List.rdropWhile_prefix _ _, rfl⟩

/-- Completing an element drops spaces at its end, and the rest of its links stays. -/
theorem shrinks_completed (src : Source) (b : Builder) {id : NodeId} {e : Element}
    (he : b.tree.element? id = some e) (lo hi : Nat) :
    Shrinks b.tree (b.tree.modifyElement id fun _ => b.completed src id e) lo hi := by
  refine shrinks_modifyElement b.tree id (fun e' he' => ?_) lo hi
  obtain rfl : e = e' := by simpa [he] using he'
  have hlinks : (b.completed src id e).links = (b.trimmed e).links :=
    (congrArg Element.links (unclosed_completed src b id e) :)
  rw [hlinks]
  exact shrinks_trimmed b e

theorem links_withBranch (branch : Branch) (e : Element) (h : e.branches ≠ []) :
    (withBranch branch e).links =
      { e.links with further := e.links.further ++ [branch.block] } := by
  cases hb : e.branches with
  | nil => exact absurd hb h
  | cons first further => simp [withBranch, Element.links, hb]

/-- A branch is added behind what is there already. -/
theorem Forest.withBranch {t : Tree} {p : Option NodeId} {lo mid hi : Nat} {ids : List NodeId}
    {last id : Nat} {first e : Element} (h : Forest t p lo mid (ids ++ [last]))
    (hfirst : t.element? last = some first) (hid : Forest t p mid hi [id])
    (he : t.element? id = some e) (condition : Option String) :
    Forest (t.modifyElement last (Builder.withBranch ⟨condition, id⟩)) p lo hi (ids ++ [last]) := by
  by_cases hb : first.branches = []
  · -- the first branch is the element itself, so nothing is linked
    have hsame : (Builder.withBranch ⟨condition, id⟩ first).links = first.links := by
      simp [Builder.withBranch, Element.links, hb]
    refine (h.widen le_rfl hid.le).congr fun k _ _ => ?_
    rw [links?_modifyElement _ hfirst, hsame]
    split
    · rename_i hk
      rw [hk, links?_of_element? hfirst]
    · rfl
  · refine h.addFurther (links?_of_element? hfirst) hid ⟨_, links?_of_element? he⟩ fun k => ?_
    rw [links?_modifyElement _ hfirst, links_withBranch _ _ hb]

/-- A node that comes last becomes a child of the innermost element. -/
theorem Stacked.addChild {t : Tree} {parent : NodeId} {rest : List NodeId} {id hi : Nat}
    (h : Stacked t (parent :: rest) id) (hid : Forest t (some parent) id hi [id]) :
    Stacked (t.addChild parent id) (parent :: rest) hi := by
  cases h with
  | @cons _ _ _ l hlinks hparent hfurther hchildren h =>
      have hle := hchildren.le
      obtain ⟨pe, hpe, rfl⟩ := links?_eq_some_some_iff.mp hlinks
      -- only the links of the parent change
      have hsame : ∀ k : Nat, k ≠ parent → (t.addChild parent id).links? k = t.links? k :=
        fun k hk => by rw [Tree.addChild, links?_modifyElement _ hpe, if_neg hk]
      have hnew : (t.addChild parent id).links? parent =
          some (some { pe.links with children := pe.children ++ [id] }) := by
        rw [Tree.addChild, links?_modifyElement _ hpe, if_pos rfl]
        rfl
      have hinside : Forest (t.addChild parent id) (some parent) (parent + 1) hi
          (pe.children ++ [id]) :=
        (hchildren.congr fun k hk _ => hsame k (by omega)).append
          (hid.congr fun k hk _ => hsame k (by omega))
      exact cons hnew hparent hfurther hinside (h.congr fun k hk => hsame k (by omega))

/-- **Attaching a finished element** keeps the others nested. -/
theorem Stacked.attached {t t' : Tree} {opened : List NodeId} {id hi : Nat} {e e' : Element}
    (h : Stacked t opened id) (hid : Forest t opened.head? id hi [id])
    (he : t.element? id = some e') (hroot : t.root = some 0) (ha : Attached t opened id e t') :
    Stacked t' opened hi := by
  cases ha with
  | nothing => exact h.skip hid (links?_of_element? he)
  | @child parent rest hopened =>
      subst hopened
      exact h.addChild hid
  | @orphan parent rest =>
      have hs := shrinks_modifyElement t parent fun e _ => shrinks_dropLeaves t e
      have hlt := (hid.mem_interval id (by simp)).2
      obtain ⟨l', hl', -⟩ := (hs id hi).element id _ le_rfl hlt (links?_of_element? he)
      exact (h.shrink (hs 0 id)).skip (hid.shrink (hs id hi)) hl'
  | @branch parent prev rest pe first hopened _ _ hpe hprev hfirst =>
      subst hopened
      have hs := shrinks_modifyElement t parent fun e _ => shrinks_dropLeaves t e
      -- first the leaves at the end of the parent are dropped
      have hdropped := h.shrink (hs 0 id)
      have hid' := hid.shrink (hs id hi)
      obtain ⟨eid, heid⟩ : ∃ eid,
          (t.modifyElement parent (dropLeaves t)).element? id = some eid := by
        rw [element?_modifyElement, he]
        split
        · exact ⟨_, rfl⟩
        · exact ⟨_, rfl⟩
      obtain ⟨init, hinit⟩ := List.getLast?_eq_some_iff.mp hprev
      have hlinks' := links?_modifyElement (dropLeaves t) hpe parent
      rw [if_pos rfl] at hlinks'
      generalize t.modifyElement parent (dropLeaves t) = t₀ at *
      cases hdropped with
      | @cons _ _ _ l hlinks hparent hfurther hchildren h =>
          obtain rfl : (dropLeaves t pe).links = l := by
            rw [hlinks'] at hlinks
            simpa using hlinks
          -- then the last child, which is behind its parent, gets the branch
          change Forest t₀ (some parent) (parent + 1) id (dropLeaves t pe).children at hchildren
          rw [hinit] at hchildren
          have hmem := hchildren.mem_interval prev (by simp)
          have hsame : ∀ k : Nat, k ≠ prev →
              (t₀.modifyElement prev (Builder.withBranch ⟨e.elseCondition, id⟩)).links? k =
                t₀.links? k := fun k hk => by
            rw [links?_modifyElement _ hfirst, if_neg hk]
          refine cons (by rw [hsame parent (by omega), hlinks']) hparent hfurther ?_
            (h.congr fun k hk => hsame k (by omega))
          change Forest _ (some parent) (parent + 1) hi (dropLeaves t pe).children
          rw [hinit]
          exact hchildren.withBranch hfirst hid' heid e.elseCondition
  | @root root first hopened hroot' hne hfirst =>
      subst hopened
      obtain rfl : root = 0 := by
        rw [hroot] at hroot'
        simpa using hroot'.symm
      have hpos : 0 < id := Nat.pos_of_ne_zero fun h => hne h.symm
      cases h with
      | nil h =>
          have hforest : Forest t none 0 id ([] ++ [0]) := (h hpos).1
          refine nil fun _ => ⟨hforest.withBranch hfirst hid he e.elseCondition, ?_⟩
          exact ⟨_, by rw [links?_modifyElement _ hfirst, if_pos rfl]⟩

end Tree

/-! ### Builders -/

namespace Build.Builder

/-- **The tree and the open elements fit together**: the first node is the root, and the open
elements are nested. -/
structure Ordered (b : Builder) : Prop where
  root : b.tree.root = if b.tree.size = 0 then none else some 0
  stacked : b.tree.Stacked b.opened b.tree.size

theorem Ordered.init : Ordered {} := ⟨rfl, .nil fun h => absurd h (by simp [Tree.size])⟩

/-- As long as an element is open there is a root. -/
theorem Ordered.root_eq {b : Builder} {id : NodeId} {rest : List NodeId} (hb : b.Ordered)
    (hopened : b.opened = id :: rest) : b.tree.root = some 0 := by
  have hstacked := hb.stacked
  rw [hopened] at hstacked
  have hlt := hstacked.lt
  rw [hb.root, if_neg (by omega)]

/-- The innermost open element is there, it knows its parent, and the others came before it. -/
theorem Ordered.exists_innermost {b : Builder} {id : NodeId} {rest : List NodeId} (hb : b.Ordered)
    (hopened : b.opened = id :: rest) :
    ∃ e, b.tree.element? id = some e ∧ e.parent = rest.head? ∧ ∀ k : Nat, k ∈ rest → k < id := by
  have hstacked := hb.stacked
  rw [hopened] at hstacked
  cases hstacked with
  | cons hlinks hparent _ _ h =>
      obtain ⟨e, he, rfl⟩ := Tree.links?_eq_some_some_iff.mp hlinks
      exact ⟨e, he, hparent, h.mem_lt⟩

theorem Ordered.agrees {b b' : Builder} (h : b.Agrees b') (hb : b.Ordered) : b'.Ordered := by
  constructor
  · rw [h.tree]
    exact hb.root
  · rw [h.tree, h.opened]
    exact hb.stacked

/-- A leaf comes last in the innermost element. -/
theorem Ordered.leaf {src : Source} {b : Builder} {parent : NodeId} {rest : List NodeId}
    {n : Node} (hopened : b.opened = parent :: rest) (hn : b.Admits src n) (hb : b.Ordered) :
    (b.append parent n).Ordered := by
  have hpush : (b.tree.push n).Stacked (parent :: rest) b.tree.size := by
    rw [← hopened]
    refine hb.stacked.congr fun k hk => ?_
    rw [Tree.links?_push, if_neg (Nat.ne_of_lt hk)]
  have hleaf : (b.tree.push n).links? b.tree.size = some none := by
    rw [Tree.links?_push, if_pos rfl]
    cases n with
    | element => exact hn.elim
    | expression => rfl
    | text => rfl
  have hnew : (b.tree.push n).Forest (some parent) b.tree.size (b.tree.size + 1) [b.tree.size] :=
    .leaf hleaf le_rfl (.nil le_rfl)
  have hadded := hpush.addChild hnew
  have hsize : (b.append parent n).tree.size = b.tree.size + 1 := by
    simp [append, Tree.addChild]
  constructor
  · rw [hsize, if_neg (by omega)]
    exact hb.root_eq hopened
  · rw [hsize]
    change (b.append parent n).tree.Stacked b.opened (b.tree.size + 1)
    rw [hopened]
    exact hadded

/-- An element that is opened comes behind everything that is there. -/
theorem Ordered.enter {b : Builder} (src : Source) (tag : String)
    (attributes : List Markup.Attribute) (start stop : Nat) (hb : b.Ordered) :
    (b.enter src (b.created src tag attributes start stop)).Ordered := by
  obtain ⟨_, _, _, _, _, _, _, branches, hcreated, -, hbranches⟩ :=
    unopened_created src b tag attributes start stop
  generalize b.created src tag attributes start stop = e at hcreated
  have hparent : e.parent = b.opened.head? := (congrArg Element.parent hcreated :)
  have hchildren : e.children = [] := (congrArg Element.children hcreated :)
  have hfurther : e.branches.drop 1 = [] := by
    have heq : e.branches = branches := (congrArg Element.branches hcreated :)
    rw [heq, hbranches]
  have hsize : (b.enter src e).tree.size = b.tree.size + 1 := Tree.size_push b.tree _
  have hlinks : ∀ k, (b.enter src e).tree.links? k =
      if k = b.tree.size then some (some e.links) else b.tree.links? k :=
    Tree.links?_push b.tree (.element e)
  constructor
  · rw [hsize, if_neg (by omega)]
    change b.tree.root.or (some b.tree.size) = some 0
    rw [hb.root]
    split
    · rename_i hzero
      simp [hzero]
    · rfl
  · rw [hsize]
    refine .cons (by rw [hlinks, if_pos rfl]) hparent ?_ ?_ (hb.stacked.congr fun k hk => ?_)
    · simp [Element.links, hfurther]
    · rw [Element.links, hchildren]
      exact .nil le_rfl
    · rw [hlinks, if_neg (Nat.ne_of_lt hk)]

theorem Ordered.stop {b : Builder} (id : NodeId) (stop : Nat) (hb : b.Ordered) :
    Ordered { b with tree := b.tree.modifyElement id fun e => { e with stop := some stop } } := by
  have hs := Tree.shrinks_modifyElement b.tree id (f := fun e => { e with stop := some stop })
    (fun e _ => Links.Shrinks.refl e.links)
  constructor
  · simpa using hb.root
  · simpa using hb.stacked.shrink (hs 0 b.tree.size)

/-- Finishing the innermost element keeps the others nested. -/
theorem Ordered.finish {b : Builder} {id : NodeId} {rest : List NodeId} (src : Source)
    (hopened : b.opened = id :: rest) (hb : b.Ordered) :
    ({ b with opened := rest }.finishElement src id).Ordered := by
  have hstacked := hb.stacked
  rw [hopened] at hstacked
  have hlt := hstacked.lt
  have hhead := hstacked.forest_head
  have hroot := hb.root_eq hopened
  cases hstacked with
  | @cons _ _ _ l hlinks hparent hfurther hchildren h =>
      obtain ⟨e, he, rfl⟩ := Tree.links?_eq_some_some_iff.mp hlinks
      obtain ⟨t, hfinished⟩ := finished_finishElement src { b with opened := rest } he
      have hs := Tree.shrinks_completed src { b with opened := rest } he
      have he' : (b.tree.modifyElement id fun _ =>
          completed src { b with opened := rest } id e).element? id =
          some (completed src { b with opened := rest } id e) := by
        rw [Tree.element?_modifyElement, if_pos rfl, he]
        rfl
      have hattached : t.Stacked rest b.tree.size :=
        (h.shrink (hs 0 id)).attached (hhead.shrink (hs id b.tree.size)) he' hroot
          hfinished.attached
      have hsize : t.size = b.tree.size := by
        rw [hfinished.attached.size_eq]
        simp
      constructor
      · rw [hfinished.tree, Tree.root_modifyElement, Tree.size_modifyElement, hsize,
          if_neg (by omega), hfinished.attached.root_eq]
        exact hroot
      · rw [hfinished.tree, hfinished.opened, Tree.size_modifyElement, hsize]
        exact hattached.shrink
          (Tree.shrinks_modifyElement t id (fun e _ => Tree.shrinks_trimmed _ e) 0 _)

/-- **Every event keeps the builder ordered.** -/
theorem invariant_ordered (src : Source) : Invariant src Ordered where
  init := Ordered.init
  agrees := Ordered.agrees
  leaf := Ordered.leaf
  enter := Ordered.enter src
  stop := Ordered.stop
  finish := Ordered.finish src

end Build.Builder

/-! ### Templates -/

namespace Build

/-- A template fails to have a tree for its delimiters only. -/
theorem exists_parse (settings : Settings) (template : String)
    (h : ∀ opening closing, settings.customDelimiters = some (opening, closing) →
      opening ≠ "" ∧ closing ≠ "") : ∃ parsed, parse settings template = .ok parsed := by
  unfold parse
  split
  · rename_i error herror
    simp only [Settings.delimiters] at herror
    split at herror
    · cases herror
    · rename_i opening closing hcustom
      obtain ⟨hopening, hclosing⟩ := h opening closing hcustom
      simp [hopening, hclosing] at herror
  · exact ⟨_, rfl⟩

theorem Builder.Ordered.inDocumentOrder {b : Builder} (h : b.Ordered) : b.tree.InDocumentOrder := by
  by_cases hsize : b.tree.size = 0
  · have hroot := h.root
    rw [if_pos hsize] at hroot
    exact Tree.inDocumentOrder_of_root_eq_none hroot
  · have hroot := h.root
    rw [if_neg hsize] at hroot
    obtain ⟨hforest, l, hl⟩ := h.stacked.forest (by omega)
    exact hforest.inDocumentOrder hroot hl

/-- **The tree of a template is in document order**, and with delimiters that are not empty every
template has one. -/
theorem exists_parse_inDocumentOrder (settings : Settings) (template : String)
    (h : ∀ opening closing, settings.customDelimiters = some (opening, closing) →
      opening ≠ "" ∧ closing ≠ "") :
    ∃ parsed, parse settings template = .ok parsed ∧ parsed.tree.InDocumentOrder := by
  obtain ⟨parsed, hparsed⟩ := exists_parse settings template h
  obtain ⟨b, hb, htree⟩ := Builder.Invariant.of_parse invariant_ordered hparsed
  exact ⟨parsed, hparsed, htree ▸ hb.inDocumentOrder⟩

/-- A template with delimiters of its own, and with a branch that moves to the conditional before
it. -/
theorem exists_parse_inDocumentOrder_custom :
    ∃ parsed, parse { Settings.web with customDelimiters := some ("[[", "]]") }
        "<ul><li v-if=\"a\">[[ x ]]</li> <li v-else>y</li></ul>" = .ok parsed ∧
      parsed.tree.InDocumentOrder :=
  exists_parse_inDocumentOrder _ _ (by simp)

end Build

end Templating
