import Templating.Tree.Basic

/-!
**Trees that look alike.**

Changes of a tree are compared node by node: by looking nodes up, or by looking at a part of each
node only.

Main definitions:

* `Templating.Tree.Alike` — trees with nodes that look alike, where a view says what is looked at;
* `Templating.Element.ShowsIn` — a property that depends on what a view keeps only.

Main results:

* `Templating.Tree.ext_node?` — trees with the same nodes and the same root are the same;
* `Templating.Tree.modifyElement_modifyElement`, `Templating.Tree.modifyElement_congr` — changing an
  element twice, and what matters of a change;
* `Templating.Tree.Alike.modifyNode` — a change that cannot be seen;
* `Templating.Tree.Alike.element?` — the elements of trees that look alike;
* `Templating.Element.ShowsIn.congr` — elements that look alike have the same properties.
-/

set_option autoImplicit false

namespace Templating

/-! ### Looking nodes up -/

namespace Tree

theorem node?_of_element? {t : Tree} {id : NodeId} {e : Element} (h : t.element? id = some e) :
    t.node? id = some (.element e) := by
  simp only [element?] at h
  cases hn : t.node? id with
  | none => simp [hn] at h
  | some n => cases n <;> simp_all [Node.element?]

theorem element?_of_node? {t : Tree} {id : NodeId} {e : Element}
    (h : t.node? id = some (.element e)) : t.element? id = some e := by
  simp [element?, h, Node.element?]

theorem lt_size_of_node? {t : Tree} {id : Nat} {n : Node} (h : t.node? id = some n) :
    id < t.size := by
  obtain ⟨hlt, -⟩ := Array.getElem?_eq_some_iff.mp h
  exact hlt

theorem lt_size_of_element? {t : Tree} {id : Nat} {e : Element} (h : t.element? id = some e) :
    id < t.size :=
  lt_size_of_node? (node?_of_element? h)

theorem node?_modifyElement (t : Tree) (id : NodeId) (f : Element → Element) (k : NodeId) :
    (t.modifyElement id f).node? k = if id = k then
      (t.node? k).map fun | .element e => .element (f e) | n => n else t.node? k :=
  node?_modifyNode t id _ k

/-- Trees with the same nodes and the same root are the same. -/
theorem ext_node? {t t' : Tree} (hnodes : ∀ k, t'.node? k = t.node? k) (hroot : t'.root = t.root) :
    t' = t := by
  obtain ⟨nodes, root⟩ := t
  obtain ⟨nodes', root'⟩ := t'
  obtain rfl : root' = root := hroot
  obtain rfl : nodes' = nodes := Array.ext_getElem? hnodes
  rfl

theorem modifyElement_modifyElement (t : Tree) (id : NodeId) (f g : Element → Element) :
    (t.modifyElement id f).modifyElement id g = t.modifyElement id fun e => g (f e) := by
  refine ext_node? (fun k => ?_) rfl
  simp only [node?_modifyElement]
  split
  · cases t.node? k with
    | none => rfl
    | some n => cases n <;> rfl
  · rfl

/-- Only what a change does to the element that is there matters. -/
theorem modifyElement_congr {t : Tree} {id : NodeId} {f g : Element → Element}
    (h : ∀ e, t.element? id = some e → f e = g e) :
    t.modifyElement id f = t.modifyElement id g := by
  refine ext_node? (fun k => ?_) rfl
  simp only [node?_modifyElement]
  split
  · rename_i hk
    subst hk
    cases hn : t.node? id with
    | none => rfl
    | some n =>
        cases n with
        | element e => simp [h e (element?_of_node? hn)]
        | expression => rfl
        | text => rfl
  · rfl

theorem modifyElement_self (t : Tree) (id : NodeId) : t.modifyElement id (fun e => e) = t := by
  refine ext_node? (fun k => ?_) rfl
  simp only [node?_modifyElement]
  split
  · cases t.node? k with
    | none => rfl
    | some n => cases n <;> rfl
  · rfl

theorem exists_of_element?_modifyElement {t : Tree} {id k : NodeId} {f : Element → Element}
    {e' : Element} (h : (t.modifyElement id f).element? k = some e') :
    ∃ e, t.element? k = some e ∧ e' = if id = k then f e else e := by
  rw [element?_modifyElement] at h
  split at h
  · obtain ⟨e, he, rfl⟩ := Option.map_eq_some_iff.mp h
    exact ⟨e, he, by simp_all⟩
  · exact ⟨e', h, by simp_all⟩

end Tree

/-! ### Views -/

namespace Tree

/-- Trees with nodes that look alike. -/
def Alike (view : Node → Node) (t t' : Tree) : Prop :=
  ∀ k, (t'.node? k).map view = (t.node? k).map view

namespace Alike

variable {view : Node → Node} {t t' t'' : Tree}

theorem refl (t : Tree) : Alike view t t := fun _ => rfl

theorem symm (h : Alike view t t') : Alike view t' t := fun k => (h k).symm

theorem trans (h : Alike view t t') (h' : Alike view t' t'') : Alike view t t'' :=
  fun k => (h' k).trans (h k)

/-- Whoever sees less sees no more differences. -/
theorem coarsen {coarse : Node → Node} (hview : ∀ n, coarse (view n) = coarse n)
    (h : Alike view t t') : Alike coarse t t' := by
  intro k
  have hk := congrArg (Option.map coarse) (h k)
  simpa [Function.comp_def, hview] using hk

/-- A change that cannot be seen. -/
theorem modifyNode (t : Tree) (id : NodeId) {f : Node → Node} (hf : ∀ n, view (f n) = view n) :
    Alike view t (t.modifyNode id f) := by
  intro k
  rw [node?_modifyNode]
  split
  · simp [Function.comp_def, hf]
  · rfl

/-- A change of an element that cannot be seen. -/
theorem modifyElement (t : Tree) (id : NodeId) {f : Element → Element}
    (hf : ∀ e, t.element? id = some e → view (.element (f e)) = view (.element e)) :
    Alike view t (t.modifyElement id f) := by
  intro k
  rw [node?_modifyElement]
  split
  · rename_i hk
    subst hk
    cases hn : t.node? id with
    | none => rfl
    | some n =>
        cases n with
        | element e => simp [hf e (element?_of_node? hn)]
        | expression => rfl
        | text => rfl
  · rfl

theorem node? (h : Alike view t t') {k : NodeId} {n : Node} (hn : t.node? k = some n) :
    ∃ n', t'.node? k = some n' ∧ view n' = view n := by
  have hk := h k
  rw [hn, Option.map_some, Option.map_eq_some_iff] at hk
  exact hk

/-- The elements of trees that look alike, when a view keeps elements apart from other nodes. -/
theorem element? {f : Element → Element} (hview : ∀ n, (view n).element? = n.element?.map f)
    (h : Alike view t t') {k : NodeId} {e : Element} (he : t.element? k = some e) :
    ∃ e', t'.element? k = some e' ∧ f e' = f e := by
  obtain ⟨n, hn, hne⟩ := Option.bind_eq_some_iff.mp he
  obtain ⟨n', hn', hsame⟩ := h.node? hn
  have helement : n'.element?.map f = n.element?.map f := by
    rw [← hview, ← hview, hsame]
  rw [hne, Option.map_some, Option.map_eq_some_iff] at helement
  obtain ⟨e', he', hf⟩ := helement
  exact ⟨e', by rw [Tree.element?, hn', Option.bind_some, he'], hf⟩

end Alike

end Tree

/-! ### Properties that show -/

/-- A property of elements that depends on what a view keeps only. -/
def Element.ShowsIn (view : Element → Element) (P : Element → Prop) : Prop :=
  ∀ e, P (view e) ↔ P e

/-- **Elements that look alike have the same properties**: those that show in a view, however much
more is looked at. -/
theorem Element.ShowsIn.congr {view finer : Element → Element} {P : Element → Prop} {e e' : Element}
    (h : ShowsIn view P) (hsame : finer e' = finer e) (hfiner : ∀ e, view (finer e) = view e) :
    P e' ↔ P e := by
  rw [← h e', ← hfiner e', hsame, hfiner e, h e]

end Templating
