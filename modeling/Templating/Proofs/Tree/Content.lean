import Templating.Proofs.Build.Order
import Templating.Text.Blank

/-!
**What a tree shows.**

A walk through a tree shows the tags of its elements and the texts between them.  Texts of spaces
only do not count, and neither do comments.  What a forest shows does not change when leaves that
show nothing are dropped at the end of an element, and a branch that is added to the last
conditional is shown last.

Main definitions:

* `Templating.Item`, `Templating.Visit.item?` — a tag or a text, and what a step of a walk shows;
* `Templating.Tree.content` — what the walks from some nodes show;
* `Templating.Tree.IsHidden`, `Templating.Tree.Fades` — leaves that show nothing, and changes that
  drop such leaves at most;
* `Templating.Tree.said` — what is shown up to the innermost open element.

Main results:

* `Templating.Tree.Forest.content_fades` — **dropping what shows nothing** changes nothing;
* `Templating.Tree.Forest.content_element` — what an element shows;
* `Templating.Tree.Forest.content_withBranch` — a further branch is shown last;
* `Templating.Tree.Stacked.said_fades`, `Templating.Tree.Stacked.said_addChild`,
  `Templating.Tree.Stacked.said_withBranch` — the same for open elements.
-/

set_option autoImplicit false

namespace Templating

open Build Build.Builder

/-! ### What nodes show -/

/-- A tag or a text. -/
inductive Item where
  | tag (name : String)
  | text (text : String)
  deriving Repr, DecidableEq

/-- A text, unless it is made of spaces only. -/
def Item.ofText? (s : String) : Option Item :=
  if Text.trim s.toList = [] then none else some (.text s)

/-- What a step of a walk shows. -/
def Visit.item? : Visit → Option Item
  | enter _ e => some (.tag e.tag)
  | expression _ n => Item.ofText? n.text
  | text _ n => if n.isComment then none else Item.ofText? n.text
  | leave .. => none
  | missing _ => none

/-- What a leaf shows. -/
def Node.item? : Node → Option Item
  | .element _ => none
  | .expression n => Item.ofText? n.text
  | .text n => if n.isComment then none else Item.ofText? n.text

namespace Tree

/-- What the walks from some nodes show, one after another. -/
def content (t : Tree) (ids : List NodeId) : List Item :=
  (ids.flatMap (t.walkFrom fun _ => true)).filterMap Visit.item?

@[simp] theorem content_nil (t : Tree) : t.content [] = [] := rfl

theorem content_append (t : Tree) (a b : List NodeId) :
    t.content (a ++ b) = t.content a ++ t.content b := by
  simp [content]

theorem walkFuel_items_of_leaf {t : Tree} {id : NodeId} {n : Node} (hn : t.node? id = some n)
    (hleaf : n.element? = none) (fuel : Nat) :
    (t.walkFuel (fun _ => true) (fuel + 1) id).filterMap Visit.item? = n.item?.toList := by
  cases n with
  | element => cases hleaf
  | expression n =>
      simp only [walkFuel, hn, List.filterMap_cons, List.filterMap_nil, Visit.item?, Node.item?]
      cases Item.ofText? n.text <;> rfl
  | text n =>
      simp only [walkFuel, hn, List.filterMap_cons, List.filterMap_nil, Visit.item?, Node.item?]
      cases (if n.isComment = true then none else Item.ofText? n.text) <;> rfl

theorem content_of_leaf {t : Tree} {id : NodeId} {n : Node} (hn : t.node? id = some n)
    (hleaf : n.element? = none) : t.content [id] = n.item?.toList := by
  simp only [content, List.flatMap_cons, List.flatMap_nil, List.append_nil]
  exact walkFuel_items_of_leaf hn hleaf t.size

theorem walkFuel_items_of_element {t : Tree} {id : NodeId} {e : Element}
    (he : t.element? id = some e) (fuel : Nat) :
    (t.walkFuel (fun _ => true) (fuel + 1) id).filterMap Visit.item? =
      .tag e.tag ::
        ((e.children.flatMap (t.walkFuel (fun _ => true) fuel)).filterMap Visit.item? ++
          (e.links.further.flatMap (t.walkFuel (fun _ => true) fuel)).filterMap Visit.item?) := by
  rw [walkFuel_of_element _ fuel he]
  simp [Visit.item?, List.filterMap_cons]

/-! ### Dropping what shows nothing -/

/-- A leaf that shows nothing. -/
def IsHidden (t : Tree) (id : NodeId) : Prop :=
  ∃ n, t.node? id = some n ∧ n.element? = none ∧ n.item? = none

/-- The table changes, for numbers from `lo` on and below `hi`, by leaves that show nothing and are
dropped at the end of an element at most. -/
structure Fades (t t' : Tree) (lo hi : Nat) : Prop where
  leaf : ∀ (id : Nat) (n : Node), lo ≤ id → id < hi → t.node? id = some n → n.element? = none →
    ∃ n', t'.node? id = some n' ∧ n'.element? = none ∧ n'.item? = n.item?
  element : ∀ (id : Nat) (e : Element), lo ≤ id → id < hi → t.element? id = some e →
    ∃ e' dropped, t'.element? id = some e' ∧ e'.tag = e.tag ∧ e'.links.further = e.links.further ∧
      e.children = e'.children ++ dropped ∧ ∀ c ∈ dropped, t.IsHidden c

theorem Fades.of_eq {t t' : Tree} {lo hi : Nat}
    (h : ∀ id : Nat, lo ≤ id → id < hi → t'.node? id = t.node? id) : Fades t t' lo hi where
  leaf id n hlo hhi hn hleaf := ⟨n, (h id hlo hhi).trans hn, hleaf, rfl⟩
  element id e hlo hhi he := by
    refine ⟨e, [], ?_, rfl, rfl, by simp, by simp⟩
    rw [element?, h id hlo hhi]
    exact he

/-- A change of one element. -/
theorem Fades.modifyElement {t : Tree} {id : NodeId} {f : Element → Element} {lo hi : Nat}
    (hf : ∀ e, t.element? id = some e → (f e).tag = e.tag ∧
      (f e).links.further = e.links.further ∧
      ∃ dropped, e.children = (f e).children ++ dropped ∧ ∀ c ∈ dropped, t.IsHidden c) :
    Fades t (t.modifyElement id f) lo hi where
  leaf k n _ _ hn hleaf := by
    refine ⟨n, ?_, hleaf, rfl⟩
    rw [node?_modifyElement, hn]
    split
    · cases n with
      | element => cases hleaf
      | expression => rfl
      | text => rfl
    · rfl
  element k e _ _ he := by
    by_cases hk : id = k
    · subst hk
      obtain ⟨htag, hfurther, dropped, hchildren, hhidden⟩ := hf e he
      refine ⟨f e, dropped, ?_, htag, hfurther, hchildren, hhidden⟩
      rw [element?_modifyElement, if_pos rfl, he]
      rfl
    · refine ⟨e, [], ?_, rfl, rfl, by simp, by simp⟩
      rw [element?_modifyElement, if_neg hk, he]

/-- Other nodes than the one that changes. -/
theorem Fades.modifyElement_of_not_mem (t : Tree) {id : Nat} (f : Element → Element) {lo hi : Nat}
    (h : id < lo ∨ hi ≤ id) : Fades t (t.modifyElement id f) lo hi :=
  Fades.of_eq fun k _ _ => by
    rw [node?_modifyElement, if_neg]
    rintro rfl
    omega

namespace Forest

variable {t t' : Tree} {p : Option NodeId} {lo hi : Nat} {ids : List NodeId}

/-- Dropping leaves that show nothing changes nothing, whatever bounds the walk. -/
theorem walkFuel_items_fades (h : Forest t p lo hi ids) : Fades t t' lo hi → ∀ f g : Nat,
    hi ≤ lo + f → hi ≤ lo + g →
    (ids.flatMap (t'.walkFuel (fun _ => true) f)).filterMap Visit.item? =
      (ids.flatMap (t.walkFuel (fun _ => true) g)).filterMap Visit.item? := by
  induction h with
  | nil => intro _ f g _ _; rfl
  | @leaf p lo hi id ids hlinks hlo h ih =>
      intro hs f g hf hg
      have hle := h.le
      obtain ⟨f, rfl⟩ : ∃ f', f = f' + 1 := ⟨f - 1, by omega⟩
      obtain ⟨g, rfl⟩ : ∃ g', g = g' + 1 := ⟨g - 1, by omega⟩
      obtain ⟨n, hn, hlinks⟩ := Option.map_eq_some_iff.mp hlinks
      have hleaf : n.element? = none := by cases n <;> simp_all [Node.links, Node.element?]
      obtain ⟨n', hn', hleaf', hitem⟩ := hs.leaf id n hlo (by omega) hn hleaf
      have hrest := ih
        ⟨fun k n hk => hs.leaf k n (by omega), fun k e hk => hs.element k e (by omega)⟩
        (f + 1) (g + 1) (by omega) (by omega)
      rw [List.flatMap_cons, List.flatMap_cons, List.filterMap_append, List.filterMap_append,
        walkFuel_items_of_leaf hn hleaf, walkFuel_items_of_leaf hn' hleaf', hitem, hrest]
  | @element p lo mid₁ mid₂ hi id ids l hlinks _ hlo hchildren _ hfurther h ih₁ ih₂ ih₃ =>
      intro hs f g hf hg
      have hle₁ := hchildren.le
      have hle₂ := hfurther.le
      have hle₃ := h.le
      obtain ⟨f, rfl⟩ : ∃ f', f = f' + 1 := ⟨f - 1, by omega⟩
      obtain ⟨g, rfl⟩ : ∃ g', g = g' + 1 := ⟨g - 1, by omega⟩
      obtain ⟨e, he, rfl⟩ := links?_eq_some_some_iff.mp hlinks
      obtain ⟨e', dropped, he', htag, hsame, hsplit, hhidden⟩ := hs.element id e hlo (by omega) he
      have hnarrow : ∀ lo' hi', lo ≤ lo' → hi' ≤ hi → Fades t t' lo' hi' := fun lo' hi' hl hh =>
        ⟨fun k n hk hk' => hs.leaf k n (by omega) (by omega),
          fun k e hk hk' => hs.element k e (by omega) (by omega)⟩
      change Forest t (some id) (id + 1) mid₁ e.children at hchildren
      have hinside : (e.children.flatMap (t'.walkFuel (fun _ => true) f)).filterMap Visit.item? =
          (e.children.flatMap (t.walkFuel (fun _ => true) g)).filterMap Visit.item? :=
        ih₁ (hnarrow _ _ (by omega) (by omega)) f g (by omega) (by omega)
      have hbeside := ih₂ (hnarrow _ _ (by omega) (by omega)) f g (by omega) (by omega)
      have hafter := ih₃ (hnarrow _ _ (by omega) le_rfl) (f + 1) (g + 1) (by omega) (by omega)
      -- what is dropped shows nothing before and after
      have hnothing : (dropped.flatMap (t'.walkFuel (fun _ => true) f)).filterMap Visit.item? =
          [] := by
        rw [List.filterMap_eq_nil_iff]
        intro v hv
        obtain ⟨c, hc, hv⟩ := List.mem_flatMap.mp hv
        have hmem := hchildren.mem_interval c (by rw [hsplit]; simp [hc])
        obtain ⟨n, hn, hleaf, hitem⟩ := hhidden c hc
        obtain ⟨n', hn', hleaf', hitem'⟩ := hs.leaf c n (by omega) (by omega) hn hleaf
        obtain ⟨f, rfl⟩ : ∃ f', f = f' + 1 := ⟨f - 1, by omega⟩
        have hitems := walkFuel_items_of_leaf hn' hleaf' f
        rw [hitem', hitem] at hitems
        exact List.filterMap_eq_nil_iff.mp hitems v hv
      have hkept : (e'.children.flatMap (t'.walkFuel (fun _ => true) f)).filterMap Visit.item? =
          (e.children.flatMap (t.walkFuel (fun _ => true) g)).filterMap Visit.item? := by
        rw [← hinside, hsplit, List.flatMap_append, List.filterMap_append, hnothing,
          List.append_nil]
      rw [List.flatMap_cons, List.flatMap_cons, List.filterMap_append, List.filterMap_append,
        walkFuel_items_of_element he, walkFuel_items_of_element he', htag, hsame, hkept, hbeside,
        hafter]

/-- **Dropping what shows nothing** changes nothing. -/
theorem content_fades (h : Forest t p lo hi ids) (hs : Fades t t' lo hi) (hhi : hi ≤ t.size)
    (hhi' : hi ≤ t'.size) : t'.content ids = t.content ids :=
  h.walkFuel_items_fades hs _ _ (by omega) (by omega)

/-- What an element shows: its tag, its children and its further branches. -/
theorem content_element {id : NodeId} {e : Element} (h : Forest t p lo hi [id])
    (hhi : hi ≤ t.size) (he : t.element? id = some e) :
    t.content [id] = .tag e.tag :: (t.content e.children ++ t.content e.links.further) := by
  cases h with
  | leaf hlinks =>
      rw [links?_of_element? he] at hlinks
      cases hlinks
  | @element _ _ mid₁ mid₂ _ _ _ _ hlinks _ hlo hchildren _ hfurther hnil =>
      rw [links?_of_element? he] at hlinks
      cases hlinks
      have hle₁ := hchildren.le
      have hle₂ := hfurther.le
      have hle₃ := hnil.le
      change Forest t (some id) (id + 1) mid₁ e.children at hchildren
      have hinside := hchildren.walkFuel_items_fades (Fades.of_eq fun _ _ _ => rfl) t.size
        (t.size + 1) (by omega) (by omega)
      have hbeside := hfurther.walkFuel_items_fades (Fades.of_eq fun _ _ _ => rfl) t.size
        (t.size + 1) (by omega) (by omega)
      simp only [content, walkFrom, List.flatMap_cons, List.flatMap_nil, List.append_nil]
      rw [walkFuel_items_of_element he, hinside, hbeside]
      rfl

/-- **A further branch** of the last conditional is shown last. -/
theorem content_withBranch {mid : Nat} {last id : Nat} {first e : Element}
    (h : Forest t p lo mid (ids ++ [last])) (hfirst : t.element? last = some first)
    (hbranches : first.branches ≠ []) (hid : Forest t p mid hi [id])
    (he : t.element? id = some e) (hhi : hi ≤ t.size) (condition : Option String) :
    (t.modifyElement last (Builder.withBranch ⟨condition, id⟩)).content (ids ++ [last]) =
      t.content (ids ++ [last]) ++ t.content [id] := by
  have hsize := t.size_modifyElement last (Builder.withBranch ⟨condition, id⟩)
  have hlater := hid.mem_interval id (by simp)
  obtain ⟨_, -, hlast'⟩ := (h.withBranch hfirst hid he condition).split
  obtain ⟨m, hinit, hlast⟩ := h.split
  have hmem := hlast.mem_interval last (by simp)
  have hsame : ∀ {p' : Option NodeId} {ids' : List NodeId} {lo' hi' : Nat},
      Forest t p' lo' hi' ids' → last < lo' ∨ hi' ≤ last → hi' ≤ t.size →
      (t.modifyElement last (Builder.withBranch ⟨condition, id⟩)).content ids' = t.content ids' :=
    fun h' hout hle => h'.content_fades (Fades.modifyElement_of_not_mem t _ hout) hle (by omega)
  have hfirst' : (t.modifyElement last (Builder.withBranch ⟨condition, id⟩)).element? last =
      some (Builder.withBranch ⟨condition, id⟩ first) := by
    rw [element?_modifyElement, if_pos rfl, hfirst]
    rfl
  have hshown := hlast.content_element (by omega) hfirst
  have hshown' := hlast'.content_element (by omega) hfirst'
  rw [links_withBranch _ _ hbranches] at hshown'
  -- the children and the further branches of the element lie behind it
  cases hlast with
  | leaf hlinks =>
      rw [links?_of_element? hfirst] at hlinks
      cases hlinks
  | @element _ _ mid₁ mid₂ _ _ _ _ hlinks _ hlo hchildren _ hfurther hnil =>
      rw [links?_of_element? hfirst] at hlinks
      cases hlinks
      have hle₁ := hchildren.le
      have hle₂ := hfurther.le
      have hle₃ := hnil.le
      have hinside := hsame hchildren (.inl (by omega)) (by omega)
      have hbeside := hsame hfurther (.inl (by omega)) (by omega)
      have hadded := hsame hid (.inl (by omega)) hhi
      have hbefore := hsame hinit (.inr hmem.1) (by omega)
      change _ = Item.tag first.tag :: (content _ first.links.children ++
        content _ (first.links.further ++ [id])) at hshown'
      change _ = Item.tag first.tag :: (content _ first.links.children ++ _) at hshown
      rw [content_append, content_append, hbefore, hshown', hshown, content_append, hinside,
        hbeside, hadded]
      simp

end Forest

/-! ### Open elements -/

/-- What is shown up to and inside the innermost open element, when all nodes have numbers below
`hi`. -/
def said (t : Tree) : (opened : List NodeId) → (hi : Nat) → List Item
  | [], hi => if hi = 0 then [] else t.content [0]
  | id :: opened, _ => t.said opened id ++ t.content [id]

namespace Stacked

variable {t t' : Tree} {opened : List NodeId} {hi : Nat}

/-- Dropping what shows nothing changes nothing. -/
theorem said_fades (h : Stacked t opened hi) : Fades t t' 0 hi → hi ≤ t.size → hi ≤ t'.size →
    t'.said opened hi = t.said opened hi := by
  induction h with
  | @nil hi h =>
      intro hs hhi hhi'
      unfold said
      split
      · rfl
      · exact (h (by omega)).1.content_fades hs hhi hhi'
  | @cons id opened hi l hlinks hparent hfurther hchildren h ih =>
      intro hs hhi hhi'
      have hhead := (cons hlinks hparent hfurther hchildren h).forest_head
      have hle := hchildren.le
      have hnarrow : ∀ lo' hi', hi' ≤ hi → Fades t t' lo' hi' := fun lo' hi' hh =>
        ⟨fun k n _ hk => hs.leaf k n (by omega) (by omega),
          fun k e _ hk => hs.element k e (by omega) (by omega)⟩
      unfold said
      rw [ih (hnarrow 0 id (by omega)) (by omega) (by omega),
        hhead.content_fades (hnarrow id hi le_rfl) hhi hhi']

/-- A node that comes last in the innermost element is shown last. -/
theorem said_addChild {parent id : Nat} {rest : List NodeId}
    (h : Stacked t (parent :: rest) id) (hid : Forest t (some parent) id hi [id])
    (hhi : hi ≤ t.size) :
    (t.addChild parent id).said (parent :: rest) hi =
      t.said (parent :: rest) id ++ t.content [id] := by
  have hhead := h.forest_head
  have hhead' := (h.addChild hid).forest_head
  have hsize : (t.addChild parent id).size = t.size := t.size_modifyElement _ _
  have hlt := (hid.mem_interval id (by simp)).2
  cases h with
  | @cons _ _ _ l hlinks hparent hfurther hchildren h =>
      obtain ⟨e, he, rfl⟩ := links?_eq_some_some_iff.mp hlinks
      have hle := hchildren.le
      have he' : (t.addChild parent id).element? parent =
          some { e with children := e.children ++ [id] } := by
        rw [Tree.addChild, element?_modifyElement, if_pos rfl, he]
        rfl
      have hsame : ∀ {p : Option NodeId} {ids : List NodeId} {lo hi : Nat}, Forest t p lo hi ids →
          parent < lo ∨ hi ≤ parent → hi ≤ t.size →
          (t.addChild parent id).content ids = t.content ids :=
        fun h' hout hle => h'.content_fades (Fades.modifyElement_of_not_mem t _ hout) hle (by omega)
      have hshown := hhead.content_element (by omega) he
      have hshown' := hhead'.content_element (by omega) he'
      have hbefore : (t.addChild parent id).said rest parent = t.said rest parent :=
        h.said_fades (Fades.modifyElement_of_not_mem t _ (.inr le_rfl)) (by omega) (by omega)
      change e.links.further = [] at hfurther
      change _ = Item.tag e.tag :: (content _ (e.children ++ [id]) ++ content _ e.links.further)
        at hshown'
      rw [hfurther, content_nil, List.append_nil] at hshown hshown'
      change Forest t (some parent) (parent + 1) id e.children at hchildren
      have hinside := hsame hchildren (.inl (by omega)) (by omega)
      have hadded := hsame hid (.inl (by omega)) hhi
      unfold said
      rw [hbefore, hshown, hshown', content_append, hinside, hadded]
      simp

/-- A further branch of the conditional that comes last in the innermost element is shown last. -/
theorem said_withBranch {parent prev id : Nat} {rest init : List NodeId} {pe first e : Element}
    (h : Stacked t (parent :: rest) id) (hid : Forest t (some parent) id hi [id])
    (hhi : hi ≤ t.size) (hparent : t.element? parent = some pe)
    (hchildren : pe.children = init ++ [prev]) (hfirst : t.element? prev = some first)
    (hbranches : first.branches ≠ []) (he : t.element? id = some e) (condition : Option String) :
    (t.modifyElement prev (Builder.withBranch ⟨condition, id⟩)).said (parent :: rest) hi =
      t.said (parent :: rest) id ++ t.content [id] := by
  have hhead := h.forest_head
  have hsize := t.size_modifyElement prev (Builder.withBranch ⟨condition, id⟩)
  have hlt := (hid.mem_interval id (by simp)).2
  cases h with
  | @cons _ _ _ l hlinks hparent' hfurther hforest h =>
      rw [links?_of_element? hparent] at hlinks
      cases hlinks
      change Forest t (some parent) (parent + 1) id pe.children at hforest
      rw [hchildren] at hforest
      have hmem := hforest.mem_interval prev (by simp)
      -- the parent stays as it is, since the conditional is behind it
      have hparent₁ : (t.modifyElement prev (Builder.withBranch ⟨condition, id⟩)).element? parent =
          some pe := by
        rw [element?_modifyElement, if_neg, hparent]
        rintro rfl
        omega
      have hhead' : Forest (t.modifyElement prev (Builder.withBranch ⟨condition, id⟩)) rest.head?
          parent hi [parent] := by
        have hnone : Forest (t.modifyElement prev (Builder.withBranch ⟨condition, id⟩)) rest.head?
          hi hi [] := .nil le_rfl
        have hinside : Forest (t.modifyElement prev (Builder.withBranch ⟨condition, id⟩))
            (some parent) (parent + 1) hi pe.children := by
          rw [hchildren]
          exact hforest.withBranch hfirst hid he condition
        exact .element (links?_of_element? hparent₁) hparent' le_rfl hinside
          (by rw [hfurther]; simp) (by rw [hfurther]; exact hnone) hnone
      have hshown := hhead.content_element (by omega) hparent
      have hshown' := hhead'.content_element (by omega) hparent₁
      have hbefore : (t.modifyElement prev (Builder.withBranch ⟨condition, id⟩)).said rest parent =
          t.said rest parent :=
        h.said_fades (Fades.modifyElement_of_not_mem t _ (.inr (by omega))) (by omega) (by omega)
      rw [hfurther, content_nil, List.append_nil, hchildren] at hshown hshown'
      unfold said
      rw [hbefore, hshown, hshown',
        hforest.content_withBranch hfirst hbranches hid he hhi condition]
      simp

end Stacked

end Tree

end Templating
