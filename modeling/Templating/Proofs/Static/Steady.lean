import Templating.Proofs.Tree.Alike
import Templating.Static.Marking

/-!
**What is marked never changes.**

The two passes over a tree write their marks into the table that they read.  What they may mark is
said without them: a node is steady when it says so of itself and everything it depends on is
steady.

Main definitions:

* `Templating.Static.Steady` — nodes that never change, read off the tree alone;
* `Templating.Static.Justified` — a tree with marks on steady nodes only.

Main results:

* `Templating.Static.justified_markNodes` — **the first pass** marks steady nodes only;
* `Templating.Static.justified_markRoots` — so does the second;
* `Templating.Static.justified_mark` — and so do both together.
-/

set_option autoImplicit false

namespace Templating

/-! ### Nodes without marks -/

/-- An element without what the passes record. -/
def Element.unmarked (e : Element) : Element :=
  { e with isStatic := none, staticRoot := none, staticInFor := none }

/-- A node without what the passes record. -/
def Node.unmarked : Node → Node
  | .element e => .element e.unmarked
  | .expression n => .expression { n with isStatic := none }
  | .text n => .text { n with isStatic := none }

theorem Node.element?_unmarked (n : Node) :
    n.unmarked.element? = n.element?.map Element.unmarked := by
  cases n <;> rfl

theorem Node.unmarked_setStatic (value : Bool) (n : Node) :
    (n.setStatic value).unmarked = n.unmarked := by
  cases n <;> rfl

namespace Tree.Alike

variable {t t' : Tree}

/-- Trees that look alike have tables of the same size. -/
theorem size_eq {view : Node → Node} (h : Alike view t t') : t'.size = t.size := by
  have hle : ∀ {t t' : Tree}, Alike view t t' → t.size ≤ t'.size := by
    intro t t' h
    have hnone : (t'.node? t'.size).map view = none := by simp [Tree.node?, Tree.size]
    rw [h t'.size] at hnone
    simpa [Tree.node?, Tree.size] using hnone
  exact Nat.le_antisymm (hle h.symm) (hle h)

/-- Marks do not matter for what stands in a loop. -/
theorem templateLoopFrom_eq (h : Alike Node.unmarked t t') (fuel : Nat) (id : Option NodeId) :
    t'.templateLoopFrom fuel id = t.templateLoopFrom fuel id := by
  induction fuel generalizing id with
  | zero => rfl
  | succ fuel ih =>
      cases id with
      | none => rfl
      | some id =>
          simp only [templateLoopFrom]
          cases he : t.element? id with
          | none =>
              cases he' : t'.element? id with
              | none => rfl
              | some e' =>
                  obtain ⟨e, he₀, -⟩ := h.symm.element? Node.element?_unmarked he'
                  simp [he] at he₀
          | some e =>
              obtain ⟨e', he', hsame⟩ := h.element? Node.element?_unmarked he
              have htag : e'.tag = e.tag := (congrArg Element.tag hsame :)
              have hloop : e'.loop = e.loop := (congrArg Element.loop hsame :)
              have hparent : e'.parent = e.parent := (congrArg Element.parent hsame :)
              simp only [he', htag, hloop, hparent, ih]

end Tree.Alike

namespace Static

variable {settings : Settings} {t₀ t t' : Tree}

/-- Whether an element never changes by itself does not depend on marks. -/
theorem isStaticElement_congr (h : t.Alike Node.unmarked t') {e e' : Element}
    (hsame : e'.unmarked = e.unmarked) :
    isStaticElement settings t' e' = isStaticElement settings t e := by
  have hloop : t'.inTemplateLoop e' = t.inTemplateLoop e := by
    have hparent : e'.parent = e.parent := (congrArg Element.parent hsame :)
    rw [Tree.inTemplateLoop, Tree.inTemplateLoop, h.size_eq, hparent, h.templateLoopFrom_eq]
  have hkeys : e'.keysInUse = e.keysInUse := (congrArg Element.keysInUse hsame :)
  have hpre : e'.pre = e.pre := (congrArg Element.pre hsame :)
  have hbindings : e'.hasBindings = e.hasBindings := (congrArg Element.hasBindings hsame :)
  have hcondition : e'.condition = e.condition := (congrArg Element.condition hsame :)
  have hfor : e'.loop = e.loop := (congrArg Element.loop hsame :)
  have htag : e'.tag = e.tag := (congrArg Element.tag hsame :)
  simp only [isStaticElement, hloop, hkeys, hpre, hbindings, hcondition, hfor, htag]

/-! ### Steady nodes -/

/-- A node that never changes: a text, or an element that says so of itself and whose dependents are
steady, unless they belong to a component. -/
inductive Steady (settings : Settings) (t : Tree) : NodeId → Prop
  | text {id : NodeId} {n : TextNode} (h : t.node? id = some (.text n)) : Steady settings t id
  | element {id : NodeId} {e : Element} (h : t.element? id = some e)
      (own : isStaticElement settings t e = true)
      (below : ownsContent settings e = false → ∀ c ∈ dependents e, Steady settings t c) :
      Steady settings t id

/-- The tree `t` is the tree `t₀` with marks, and an element that is marked as never changing is
steady. -/
structure Justified (settings : Settings) (t₀ t : Tree) : Prop where
  alike : t₀.Alike Node.unmarked t
  marked : ∀ id e, t.element? id = some e → e.isStatic = some true ∨ e.staticRoot = some true →
    Steady settings t₀ id

/-- Whether an element is steady can be seen with marks just as well. -/
theorem steady_of_alike (h : t₀.Alike Node.unmarked t) {id : NodeId} {e : Element}
    (he : t.element? id = some e) (own : isStaticElement settings t e = true)
    (below : ownsContent settings e = false → ∀ c ∈ dependents e, Steady settings t₀ c) :
    Steady settings t₀ id := by
  obtain ⟨e₀, he₀, hsame⟩ := h.symm.element? Node.element?_unmarked he
  have howns : ownsContent settings e₀ = ownsContent settings e :=
    (congrArg (ownsContent settings) hsame :)
  have hdependents : dependents e₀ = dependents e := (congrArg dependents hsame :)
  have hown : isStaticElement settings t₀ e₀ = isStaticElement settings t e :=
    isStaticElement_congr h.symm hsame
  refine .element he₀ (hown.trans own) fun hnot c hc => ?_
  rw [hdependents] at hc
  exact below (howns.symm.trans hnot) c hc

/-- A steady node may be marked. -/
theorem Justified.setStatic (h : Justified settings t₀ t) {id : NodeId} {value : Bool}
    (hid : value = true → Steady settings t₀ id) :
    Justified settings t₀ (t.modifyNode id (Node.setStatic value)) := by
  refine ⟨h.alike.trans (Tree.Alike.modifyNode t id (Node.unmarked_setStatic value)), ?_⟩
  intro k e he hmarked
  have hn := Tree.node?_of_element? he
  rw [Tree.node?_modifyNode] at hn
  split at hn
  · rename_i hk
    subst hk
    obtain ⟨n, hold, hset⟩ := Option.map_eq_some_iff.mp hn
    cases n with
    | element e' =>
        cases hset
        rcases hmarked with hstatic | hroot
        · exact hid (by simpa using hstatic)
        · exact h.marked id e' (Tree.element?_of_node? hold) (.inr hroot)
    | expression => cases hset
    | text => cases hset
  · exact h.marked k e (Tree.element?_of_node? hn) hmarked

/-! ### The first pass -/

/-- Marking several nodes one after another. -/
theorem justified_foldl {mark : Tree → NodeId → Tree × Bool}
    (hmark : ∀ t id, Justified settings t₀ t → Justified settings t₀ (mark t id).1 ∧
      ((mark t id).2 = true → Steady settings t₀ id)) (ids : List NodeId) (acc : Bool)
    (h : Justified settings t₀ t) :
    let r := ids.foldl (fun p child => ((mark p.1 child).1, p.2 && (mark p.1 child).2)) (t, acc)
    Justified settings t₀ r.1 ∧ (r.2 = true → acc = true ∧ ∀ c ∈ ids, Steady settings t₀ c) := by
  induction ids generalizing t acc with
  | nil => exact ⟨h, fun hacc => ⟨hacc, by simp⟩⟩
  | cons id ids ih =>
      -- the marks on the first node are there when the others are looked at
      obtain ⟨hfirst, hid⟩ := hmark t id h
      obtain ⟨hrest, hids⟩ := ih (acc && (mark t id).2) hfirst
      refine ⟨hrest, fun hr => ?_⟩
      obtain ⟨hacc, hsteady⟩ := hids hr
      rw [Bool.and_eq_true] at hacc
      refine ⟨hacc.1, fun c hc => ?_⟩
      rcases List.mem_cons.mp hc with rfl | hc
      · exact hid hacc.2
      · exact hsteady c hc

/-- **The first pass** marks steady nodes only. -/
theorem justified_markNodes (fuel : Nat) (id : NodeId) (h : Justified settings t₀ t) :
    Justified settings t₀ (markNodes settings fuel t id).1 ∧
      ((markNodes settings fuel t id).2 = true → Steady settings t₀ id) := by
  induction fuel generalizing t id with
  | zero => exact ⟨h, by simp [markNodes]⟩
  | succ fuel ih =>
      simp only [markNodes]
      split
      · exact ⟨h, by simp⟩
      · rename_i node hnode
        -- it is enough that the node is steady when the pass says so
        suffices hbelow : ∀ below : Tree × Bool, Justified settings t₀ below.1 →
            (below.2 = true → Steady settings t₀ id) →
            Justified settings t₀ (below.1.modifyNode id (Node.setStatic below.2)) ∧
              (below.2 = true → Steady settings t₀ id) by
          cases node with
          | expression n => exact hbelow (t, false) h (by simp)
          | text n =>
              refine hbelow (t, true) h fun _ => ?_
              obtain ⟨node₀, hnode₀, hsame⟩ := h.alike.symm.node? hnode
              cases node₀ with
              | text => exact .text hnode₀
              | element => simp [Node.unmarked] at hsame
              | expression => simp [Node.unmarked] at hsame
          | element e =>
              have he : t.element? id = some e := Tree.element?_of_node? hnode
              by_cases howns : ownsContent settings e = true
              · simp only [isStaticNode, howns, if_true]
                refine hbelow (t, _) h fun hown => ?_
                refine steady_of_alike h.alike he hown fun hnot => ?_
                simp [howns] at hnot
              · simp only [isStaticNode, if_neg howns]
                obtain ⟨hfold, hsteady⟩ := justified_foldl (fun t id ht => ih id ht) (dependents e)
                  (isStaticElement settings t e) h
                refine hbelow _ hfold fun hr => ?_
                obtain ⟨hown, hdependents⟩ := hsteady hr
                exact steady_of_alike h.alike he hown fun _ => hdependents
        intro below hbelow hsteady
        exact ⟨hbelow.setStatic hsteady, hsteady⟩

/-! ### The second pass -/

/-- An element that was marked as never changing may be marked as a root. -/
theorem Justified.noteRoot (h : Justified settings t₀ t) {id : NodeId} {e : Element}
    (he : t.element? id = some e) (inFor : Bool) :
    Justified settings t₀ (t.modifyElement id (Static.noteRoot (isRoot t e) inFor)) := by
  refine ⟨h.alike.trans (Tree.Alike.modifyElement t id fun _ _ => rfl), ?_⟩
  intro k e' he' hmarked
  obtain ⟨e₁, he₁, rfl⟩ := Tree.exists_of_element?_modifyElement he'
  split at hmarked
  · rename_i hk
    subst hk
    obtain rfl : e = e₁ := by simpa [he] using he₁
    refine h.marked id e he (.inl ?_)
    rcases hmarked with hstatic | hroot
    · exact hstatic
    · have hisRoot : isRoot t e = true := by simpa [Static.noteRoot] using hroot
      simp only [isRoot, Bool.and_eq_true, beq_iff_eq] at hisRoot
      exact hisRoot.1.1
  · exact h.marked k e₁ he₁ hmarked

/-- **The second pass** marks steady elements only. -/
theorem justified_markRoots (fuel : Nat) (id : NodeId) (inFor : Bool)
    (h : Justified settings t₀ t) : Justified settings t₀ (markRoots fuel t id inFor) := by
  induction fuel generalizing t id inFor with
  | zero => exact h
  | succ fuel ih =>
      simp only [markRoots]
      split
      · exact h
      · rename_i e he
        have hnoted := h.noteRoot he inFor
        split
        · exact hnoted
        · -- the elements below, one after another
          generalize followers e inFor = next
          generalize t.modifyElement id (Static.noteRoot (isRoot t e) inFor) = t₁ at hnoted
          induction next generalizing t₁ with
          | nil => exact hnoted
          | cons p next ih' => exact ih' _ (ih p.1 p.2 hnoted)

/-! ### Both passes -/

/-- **What is marked is steady**, when nothing was marked before. -/
theorem justified_mark
    (h : ∀ id e, t.element? id = some e → e.isStatic = none ∧ e.staticRoot = none) :
    Justified settings t (mark settings t) := by
  have hinit : Justified settings t t := by
    refine ⟨Tree.Alike.refl t, fun id e he hmarked => ?_⟩
    obtain ⟨hstatic, hroot⟩ := h id e he
    simp [hstatic, hroot] at hmarked
  unfold mark
  split
  · exact hinit
  · exact justified_markRoots _ _ _ (justified_markNodes _ _ hinit).1

end Static

end Templating
