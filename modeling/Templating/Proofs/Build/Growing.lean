import Templating.Proofs.Build.Verbatim
import Templating.Proofs.Tree.Inside

/-!
**Trees that grow.**

While a tree is built, nodes are added behind the others, and what is known of an element when it is
opened stays as it is.  So do the way up from an element, the loops around it, and whether it is
rendered as it stands.

Main definitions:

* `Templating.Tree.Grows` — a tree with all nodes of another one, as far as they are known when they
  are added.

Main results:

* `Templating.Tree.Grows.verbatim`, `Templating.Tree.Grows.inside` — **what lies around an element
  stays**;
* `Templating.Tree.Grows.isSome_nearestLoop?` — so does whether it stands in a loop;
* `Templating.Build.Builder.grows_append`, `Templating.Build.Builder.grows_enter` — nodes that are
  added let the tree grow.
-/

set_option autoImplicit false

namespace Templating

open Build Build.Builder

/-- The tree `t'` has all nodes of `t`, as far as they are known when they are added. -/
def Tree.Grows (t t' : Tree) : Prop :=
  ∀ k : Nat, k < t.size → (t'.node? k).map Node.frame = (t.node? k).map Node.frame

namespace Tree.Grows

variable {t t' t'' : Tree}

theorem push (t : Tree) (n : Node) : t.Grows (t.push n) := by
  intro k hk
  rw [node?_push, if_neg (Nat.ne_of_lt hk)]

theorem of_alike (h : t.Alike Node.frame t') : t.Grows t' := fun k _ => h k

theorem refl (t : Tree) : t.Grows t := fun _ _ => rfl

theorem trans (h : t.Grows t') (h' : t'.Grows t'') : t.Grows t'' := by
  intro k hk
  -- a node that is there stays there
  obtain ⟨n, hn⟩ : ∃ n, t.node? k = some n := ⟨t.nodes[k], Array.getElem?_eq_getElem hk⟩
  have hsome := h k hk
  rw [hn, Option.map_some, Option.map_eq_some_iff] at hsome
  obtain ⟨n', hn', -⟩ := hsome
  exact (h' k (lt_size_of_node? hn')).trans (h k hk)

theorem alike (h : t.Grows t') (h' : t'.Alike Node.frame t'') : t.Grows t'' :=
  fun k hk => (h' k).trans (h k hk)

theorem map_element? (h : t.Grows t') {k : Nat} (hk : k < t.size) :
    (t'.element? k).map (fun e => e.core.unclosed) =
      (t.element? k).map fun e => e.core.unclosed := by
  have hframe : ∀ o : Option Node, (o.bind Node.element?).map (fun e => e.core.unclosed) =
      (o.map Node.frame).bind Node.element? := by
    intro o
    cases o with
    | none => rfl
    | some n => exact (Node.element?_frame n).symm
  rw [Tree.element?, Tree.element?, hframe, hframe, h k hk]

theorem element? (h : t.Grows t') {k : Nat} {e : Element} (he : t.element? k = some e) :
    ∃ e', t'.element? k = some e' ∧ e'.core.unclosed = e.core.unclosed := by
  have hmap := h.map_element? (lt_size_of_element? he)
  rwa [he, Option.map_some, Option.map_eq_some_iff] at hmap

/-- An element that was there already. -/
theorem exists_element (h : t.Grows t') {k : Nat} {e' : Element} (hk : k < t.size)
    (he' : t'.element? k = some e') :
    ∃ e, t.element? k = some e ∧ e'.core.unclosed = e.core.unclosed := by
  have hmap := (h.map_element? hk).symm
  rw [he', Option.map_some, Option.map_eq_some_iff] at hmap
  obtain ⟨e, he, hsame⟩ := hmap
  exact ⟨e, he, hsame.symm⟩

/-- What is rendered as it stands stays so. -/
theorem verbatim (h : t.Grows t') {id : NodeId} (hid : t.Verbatim id) : t'.Verbatim id := by
  refine hid.congr fun k e he => ?_
  obtain ⟨e', he', hsame⟩ := h.element? he
  exact ⟨e', he', (congrArg Element.parent hsame :), (congrArg Element.pre hsame :)⟩

/-- What was there already is not rendered as it stands for a reason that came later. -/
theorem of_verbatim (h : t.Grows t') (hfirst : t.ParentsFirst) {id : Nat} (hid : id < t.size)
    (hverbatim : t'.Verbatim id) : t.Verbatim id := by
  induction hverbatim with
  | pre he' hpre =>
      obtain ⟨e, he, hsame⟩ := h.exists_element hid he'
      exact .pre he ((congrArg Element.pre hsame :).symm.trans hpre)
  | @inside id parent e' he' hparent _ ih =>
      obtain ⟨e, he, hsame⟩ := h.exists_element hid he'
      have hparent' : e.parent = some parent := (congrArg Element.parent hsame :).symm.trans hparent
      have hlt := hfirst id e he parent hparent'
      exact .inside he hparent' (ih (Nat.lt_trans hlt hid))

/-- What an element lies inside of stays around it. -/
theorem inside (h : t.Grows t') {id a : NodeId} (hid : t.Inside id a) : t'.Inside id a := by
  induction hid with
  | parent he hparent =>
      obtain ⟨e', he', hsame⟩ := h.element? he
      exact .parent he' ((congrArg Element.parent hsame :).trans hparent)
  | step he hparent _ ih =>
      obtain ⟨e', he', hsame⟩ := h.element? he
      exact .step he' ((congrArg Element.parent hsame :).trans hparent) ih

/-- Whether an element stands in a loop is known when it is opened. -/
theorem isSome_nearestLoop? (h : t.Grows t') (hfirst : t.ParentsFirst) (hfirst' : t'.ParentsFirst)
    {id : Nat} (hid : id < t.size) :
    (t'.nearestLoop? (some id)).isSome = (t.nearestLoop? (some id)).isSome := by
  induction id using Nat.strongRecOn with
  | ind id ih =>
      have hmap := h.map_element? hid
      cases he : t.element? id with
      | none =>
          rw [he, Option.map_none, Option.map_eq_none_iff] at hmap
          rw [nearestLoop?_of_none he, nearestLoop?_of_none hmap]
      | some e =>
          obtain ⟨e', he', hsame⟩ := h.element? he
          have hparent : e'.parent = e.parent := (congrArg Element.parent hsame :)
          have hloop : e'.loop = e.loop := (congrArg Element.loop hsame :)
          rw [hfirst.nearestLoop?_some he, hfirst'.nearestLoop?_some he', hloop, hparent]
          split
          · rfl
          · cases hp : e.parent with
            | none => simp only [nearestLoop?, loopFuel?_none]
            | some p =>
                have hlt := hfirst id e he p hp
                exact ih p hlt (Nat.lt_trans hlt hid)

end Tree.Grows

namespace Build.Builder

variable {b : Builder} {id : NodeId}

theorem sameCore_append (b : Builder) (parent : NodeId) (n : Node) :
    (b.tree.push n).SameCore (b.append parent n).tree :=
  Tree.sameCore_modifyElement _ parent fun _ => rfl

theorem grows_append (b : Builder) (parent : NodeId) (n : Node) :
    b.tree.Grows (b.append parent n).tree :=
  (Tree.Grows.push b.tree n).alike ((b.sameCore_append parent n).coarsen Node.frame_core)

/-- The elements next to a leaf that is added are those that were there. -/
theorem exists_element_of_append {src : Source} {parent : NodeId} {n : Node}
    (hn : b.Admits src n) {e' : Element}
    (he' : (b.append parent n).tree.element? id = some e') :
    ∃ e, b.tree.element? id = some e ∧ e'.core = e.core := by
  obtain ⟨e, he, hsame⟩ := (b.sameCore_append parent n).symm.element? Node.element?_core he'
  rw [Tree.element?_push] at he
  split at he
  · cases n with
    | element => exact hn.elim
    | expression => cases he
    | text => cases he
  · exact ⟨e, he, hsame.symm⟩

theorem grows_enter (src : Source) (b : Builder) (e : Element) :
    b.tree.Grows (b.enter src e).tree :=
  Tree.Grows.push b.tree (.element e)

theorem size_enter (src : Source) (b : Builder) (e : Element) :
    (b.enter src e).tree.size = b.tree.size + 1 :=
  Tree.size_push b.tree (.element e)

theorem element?_enter (src : Source) (b : Builder) (e : Element) (k : NodeId) :
    (b.enter src e).tree.element? k = if k = b.tree.size then some e else b.tree.element? k :=
  Tree.element?_push b.tree (.element e) k

theorem sameCore_stop (b : Builder) (id : NodeId) (stop : Nat) :
    b.tree.SameCore (b.tree.modifyElement id fun e => { e with stop := some stop }) :=
  Tree.sameCore_modifyElement _ id fun _ => rfl

end Build.Builder

end Templating
