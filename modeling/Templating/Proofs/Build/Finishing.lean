import Mathlib.Data.List.DropRight
import Templating.Proofs.Build.Opening
import Templating.Proofs.Tree.Alike

/-!
**Finishing an element.**

The spaces at the end of an element are dropped, its directives are read, and it is attached: to its
parent, to the conditional it belongs to, or to nothing.

Main definitions:

* `Templating.Element.core`, `Templating.Tree.SameCore` — what does not depend on other nodes;
* `Templating.Element.isBranch` — an element with `v-else` or `v-else-if`;
* `Templating.Tree.children?`, `Templating.Tree.upToElement` — the children of an element, and those
  up to the last element among them;
* `Templating.Build.Builder.completed` — an element with everything that is read when it is closed;
* `Templating.Build.Builder.Attached` — what attaching an element does to the table;
* `Templating.Build.Builder.received` — what it does to the children of the parent;
* `Templating.Build.Builder.Finished` — how an element was finished, step by step.

Main results:

* `Templating.Build.Builder.attached_attach` — attaching does one of the things in `Attached`;
* `Templating.Build.Builder.Attached.children?_eq` — **what attaching an element does to children**;
* `Templating.Build.Builder.finished_finishElement` — **finishing an element** that is there;
* `Templating.Build.Builder.Finished.sameCore`, `Templating.Build.Builder.Finished.children` — what
  finishing an element leaves alone.
-/

set_option autoImplicit false

namespace Templating

/-! ### What does not depend on other nodes -/

/-- An element without its children, its branches and its end, which are known only later. -/
def Element.core (e : Element) : Element := { e with children := [], branches := [], stop := none }

/-- A node without what is known only later. -/
def Node.core : Node → Node
  | .element e => .element e.core
  | n => n

theorem Node.element?_core (n : Node) : n.core.element? = n.element?.map Element.core := by
  cases n <;> rfl

/-- Trees that differ in children, branches and ends at most. -/
abbrev Tree.SameCore (t t' : Tree) : Prop := t.Alike Node.core t'

theorem Tree.sameCore_modifyElement (t : Tree) (id : NodeId) {f : Element → Element}
    (hf : ∀ e, (f e).core = e.core) : t.SameCore (t.modifyElement id f) :=
  Alike.modifyElement t id fun e _ => congrArg Node.element (hf e)

/-! ### Children -/

/-- An element with `v-else` or `v-else-if`. -/
def Element.isBranch (e : Element) : Bool := e.elseCondition.isSome || e.isElse

namespace Tree

/-- The children of an element. -/
def children? (t : Tree) (id : NodeId) : Option (List NodeId) :=
  (t.element? id).map Element.children

/-- The nodes up to the last element among them. -/
def upToElement (t : Tree) (ids : List NodeId) : List NodeId :=
  ids.rdropWhile (Build.Builder.isLeaf t)

theorem prefix_upToElement (t : Tree) (ids : List NodeId) : t.upToElement ids <+: ids :=
  List.rdropWhile_prefix _ ids

theorem children?_of_element? {t : Tree} {id : NodeId} {e : Element} (he : t.element? id = some e) :
    t.children? id = some e.children := by
  rw [children?, he, Option.map_some]

theorem children?_modifyElement {t : Tree} {id : NodeId} {f : Element → Element}
    {g : List NodeId → List NodeId} (hf : ∀ e, (f e).children = g e.children) (k : NodeId) :
    (t.modifyElement id f).children? k =
      (t.children? k).map fun ids => if id = k then g ids else ids := by
  rw [children?, children?, element?_modifyElement]
  cases t.element? k with
  | none => split <;> rfl
  | some e =>
      split
      · exact congrArg some (hf e)
      · rfl

theorem children?_modifyElement_of_eq {t : Tree} {id k : NodeId} {f : Element → Element}
    (hf : id = k → ∀ e, t.element? k = some e → (f e).children = e.children) :
    (t.modifyElement id f).children? k = t.children? k := by
  rw [children?, children?, element?_modifyElement]
  split
  · rename_i hk
    cases he : t.element? k with
    | none => rfl
    | some e => exact congrArg some (hf hk e he)
  · rfl

end Tree

namespace Build.Builder

/-! ### Finishing an element -/

/-- An element without the spaces at its end, unless blanks are kept. -/
def trimmed (b : Builder) (e : Element) : Element :=
  if b.inPre then e
  else { e with children := (e.children.reverse.dropWhile (isSpaceText b.tree)).reverse }

theorem prefix_trimmed (b : Builder) (e : Element) : (b.trimmed e).children <+: e.children := by
  unfold trimmed
  split
  · exact List.prefix_rfl
  · exact List.rdropWhile_prefix _ _

theorem trimEnd_eq (b : Builder) (id : NodeId) :
    b.trimEnd id = { b with tree := b.tree.modifyElement id b.trimmed } := by
  unfold trimEnd
  split
  · rename_i h
    have htrimmed : b.trimmed = fun e => e := by
      funext e
      simp [trimmed, h]
    rw [htrimmed, Tree.modifyElement_self]
  · rename_i h
    have htrimmed : b.trimmed = fun e =>
        { e with children := (e.children.reverse.dropWhile (isSpaceText b.tree)).reverse } := by
      funext e
      simp [trimmed, h]
    rw [htrimmed]

/-- An element with everything that is read when it is closed. -/
def completed (src : Source) (b : Builder) (id : NodeId) (e : Element) : Element :=
  if b.inVerbatim then b.trimmed e
  else
    (readDirectives src.delimiters ((b.trimEnd id).tree.nearestLoop? (some id)).isSome
      (b.trimmed e)).1

theorem agrees_readAll {src : Source} {b : Builder} {id : NodeId} {e : Element}
    (h : b.tree.element? id = some e) :
    { b with tree := b.tree.modifyElement id fun _ => b.completed src id e }.Agrees
      ((b.trimEnd id).readAll src id) := by
  have htrimmed : (b.trimEnd id).tree.element? id = some (b.trimmed e) := by
    rw [trimEnd_eq, Tree.element?_modifyElement, if_pos rfl, h]
    rfl
  have hverbatim : (b.trimEnd id).inVerbatim = b.inVerbatim := by rw [trimEnd_eq]
  simp only [readAll, hverbatim]
  by_cases hb : b.inVerbatim = true
  · rw [if_pos hb, trimEnd_eq]
    refine ⟨Tree.modifyElement_congr fun e' he' => ?_, rfl, rfl, rfl⟩
    obtain rfl : e = e' := by simpa [h] using he'
    simp [completed, hb]
  · rw [if_neg hb, htrimmed]
    refine Agrees.trans ⟨?_, ?_, ?_, ?_⟩ (agrees_reportAll _ _)
    · have hcompleted : b.completed src id e = (readDirectives src.delimiters
          ((b.trimEnd id).tree.nearestLoop? (some id)).isSome (b.trimmed e)).1 := if_neg hb
      rw [hcompleted, trimEnd_eq]
      exact Tree.modifyElement_modifyElement _ _ _ _
    · rw [trimEnd_eq]
    · rw [trimEnd_eq]
    · rw [trimEnd_eq]

/-- An element without the leaves at its end. -/
def dropLeaves (t : Tree) (e : Element) : Element :=
  { e with children := t.upToElement e.children }

/-- A branch added to the conditional that starts at an element. -/
def withBranch (branch : Branch) (e : Element) : Element :=
  { e with branches := e.branches ++ [branch] }

theorem core_dropLeaves (t : Tree) (e : Element) : (dropLeaves t e).core = e.core := rfl

theorem core_withBranch (branch : Branch) (e : Element) : (withBranch branch e).core = e.core := rfl

/-- What attaching the finished element `e` with the number `id` does to the table. -/
inductive Attached (t : Tree) (opened : List NodeId) (id : NodeId) (e : Element) : Tree → Prop
  | nothing (h : opened = [] ∨ e.forbidden = true) : Attached t opened id e t
  | child {parent : NodeId} {rest : List NodeId} (hopened : opened = parent :: rest)
      (hforbidden : e.forbidden = false) (hbranch : (e.elseCondition.isSome || e.isElse) = false) :
      Attached t opened id e (t.addChild parent id)
  | orphan {parent : NodeId} {rest : List NodeId} (hopened : opened = parent :: rest)
      (hforbidden : e.forbidden = false) (hbranch : (e.elseCondition.isSome || e.isElse) = true) :
      Attached t opened id e (t.modifyElement parent (dropLeaves t))
  | branch {parent prev : NodeId} {rest : List NodeId} {pe first : Element}
      (hopened : opened = parent :: rest) (hforbidden : e.forbidden = false)
      (hbranch : (e.elseCondition.isSome || e.isElse) = true)
      (hparent : t.element? parent = some pe)
      (hprev : (dropLeaves t pe).children.getLast? = some prev)
      (hfirst : (t.modifyElement parent (dropLeaves t)).element? prev = some first)
      (hcondition : first.condition.isSome = true) :
      Attached t opened id e ((t.modifyElement parent (dropLeaves t)).modifyElement prev
        (withBranch ⟨e.elseCondition, id⟩))
  | root {root : NodeId} {first : Element} (hopened : opened = []) (hroot : t.root = some root)
      (hne : root ≠ id) (hfirst : t.element? root = some first)
      (hcondition : first.condition.isSome = true)
      (hbranch : (e.elseCondition.isSome || e.isElse) = true) :
      Attached t opened id e (t.modifyElement root (withBranch ⟨e.elseCondition, id⟩))

theorem Attached.sameCore {t t' : Tree} {opened : List NodeId} {id : NodeId} {e : Element}
    (h : Attached t opened id e t') : t.SameCore t' := by
  cases h with
  | nothing => exact Tree.Alike.refl t
  | child => exact Tree.sameCore_modifyElement t _ fun _ => rfl
  | orphan => exact Tree.sameCore_modifyElement t _ (core_dropLeaves t)
  | branch =>
      exact (Tree.sameCore_modifyElement t _ (core_dropLeaves t)).trans
        (Tree.sameCore_modifyElement _ _ (core_withBranch _))
  | root => exact Tree.sameCore_modifyElement t _ (core_withBranch _)

theorem Attached.root_eq {t t' : Tree} {opened : List NodeId} {id : NodeId} {e : Element}
    (h : Attached t opened id e t') : t'.root = t.root := by
  cases h <;> rfl

theorem Attached.size_eq {t t' : Tree} {opened : List NodeId} {id : NodeId} {e : Element}
    (h : Attached t opened id e t') : t'.size = t.size := by
  cases h <;> simp [Tree.addChild]

/-- The children of an element behind which the element `e` with the number `id` is attached.  One
that is forbidden is left out, a branch takes the leaves at the end away, and any other is added. -/
def received (t : Tree) (id : NodeId) (e : Element) (ids : List NodeId) : List NodeId :=
  if e.forbidden then ids else if e.isBranch then t.upToElement ids else ids ++ [id]

theorem received_cases (t : Tree) (id : NodeId) (e : Element) (ids : List NodeId) :
    received t id e ids <+: ids ∨ received t id e ids = ids ++ [id] := by
  unfold received
  split
  · exact .inl List.prefix_rfl
  · split
    · exact .inl (t.prefix_upToElement ids)
    · exact .inr rfl

theorem mem_of_mem_received {t : Tree} {id c : NodeId} {e : Element} {ids : List NodeId}
    (hc : c ∈ received t id e ids) : c ∈ ids ∨ (c = id ∧ e.forbidden = false) := by
  cases hforbidden : e.forbidden with
  | true =>
      rw [received, if_pos hforbidden] at hc
      exact .inl hc
  | false =>
      rcases received_cases t id e ids with hshort | hadded
      · exact .inl (hshort.subset hc)
      · rw [hadded, List.mem_append, List.mem_singleton] at hc
        exact hc.imp_right fun hid => ⟨hid, rfl⟩

/-- **What attaching an element does to children**: those of its parent are changed, and all others
stay. -/
theorem Attached.children?_eq {t t' : Tree} {opened : List NodeId} {id : NodeId} {e : Element}
    (h : Attached t opened id e t') (k : NodeId) :
    t'.children? k = (t.children? k).map fun ids =>
      if opened.head? = some k then received t id e ids else ids := by
  have hdrop : ∀ parent, (t.modifyElement parent (dropLeaves t)).children? k =
      (t.children? k).map fun ids => if parent = k then t.upToElement ids else ids :=
    fun parent => Tree.children?_modifyElement (g := t.upToElement) (fun _ => rfl) k
  have hbranches : ∀ (t : Tree) (target : NodeId) (branch : Branch),
      (t.modifyElement target (withBranch branch)).children? k = t.children? k :=
    fun t target branch =>
      Tree.children?_modifyElement_of_eq (f := withBranch branch) fun _ _ _ => rfl
  have hreceived : e.forbidden = false → (e.elseCondition.isSome || e.isElse) = true →
      received t id e = t.upToElement := by
    intro hforbidden hbranch
    funext ids
    simp [received, Element.isBranch, hforbidden, hbranch]
  cases h with
  | nothing hnone =>
      rcases hnone with rfl | hforbidden
      · simp
      · simp [received, hforbidden]
  | child hopened hforbidden hbranch =>
      have hadded : received t id e = (· ++ [id]) := by
        funext ids
        simp [received, Element.isBranch, hforbidden, hbranch]
      simp only [hopened, List.head?_cons, Option.some.injEq, hadded]
      exact Tree.children?_modifyElement (fun _ => rfl) k
  | orphan hopened hforbidden hbranch =>
      simp only [hopened, List.head?_cons, Option.some.injEq, hreceived hforbidden hbranch]
      exact hdrop _
  | branch hopened hforbidden hbranch =>
      simp only [hopened, List.head?_cons, Option.some.injEq, hreceived hforbidden hbranch]
      rw [hbranches]
      exact hdrop _
  | root hopened =>
      rw [hbranches, hopened]
      simp

theorem Attached.exists_received {t t' : Tree} {opened : List NodeId} {id : NodeId} {e : Element}
    (h : Attached t opened id e t') {k : NodeId} {e' : Element} (he' : t'.element? k = some e') :
    ∃ e₀, t.element? k = some e₀ ∧
      e'.children = if opened.head? = some k then received t id e e₀.children else e₀.children := by
  obtain ⟨e₀, he₀, -⟩ := h.sameCore.symm.element? Node.element?_core he'
  have hchildren := h.children?_eq k
  rw [Tree.children?_of_element? he', Tree.children?_of_element? he₀] at hchildren
  exact ⟨e₀, he₀, Option.some.inj hchildren⟩

/-- Attaching an element adds it to the children of its parent at most, and only when it is not
forbidden. -/
theorem Attached.children {t t' : Tree} {opened : List NodeId} {id : NodeId} {e : Element}
    (h : Attached t opened id e t') {k : NodeId} {e' : Element} (he' : t'.element? k = some e') :
    ∃ e₀, t.element? k = some e₀ ∧ ∀ c ∈ e'.children,
      c ∈ e₀.children ∨ (c = id ∧ opened.head? = some k ∧ e.forbidden = false) := by
  obtain ⟨e₀, he₀, hchildren⟩ := h.exists_received he'
  refine ⟨e₀, he₀, fun c hc => ?_⟩
  rw [hchildren] at hc
  split at hc
  · rename_i hk
    exact (mem_of_mem_received hc).imp_right fun hnew => ⟨hnew.1, hk, hnew.2⟩
  · exact .inl hc

/-- The last element of `parent`, and the builder without the leaves after it. -/
theorem previousElement_spec (b : Builder) (parent : NodeId) :
    (b.previousElement parent).1 =
        (b.tree.element? parent).bind (fun e => (dropLeaves b.tree e).children.getLast?) ∧
      { b with tree := b.tree.modifyElement parent (dropLeaves b.tree) }.Agrees
        (b.previousElement parent).2 := by
  simp only [previousElement]
  split
  · rename_i h
    refine ⟨by rw [h]; rfl, ⟨?_, rfl, rfl, rfl⟩⟩
    rw [Tree.modifyElement_congr (g := fun e => e) (by simp [h]), Tree.modifyElement_self]
  · rename_i e h
    refine ⟨by rw [h]; simp [dropLeaves, Tree.upToElement, List.rdropWhile], ?_⟩
    dsimp only
    refine Agrees.trans ?_ (agrees_reportAll _ _)
    refine ⟨Tree.modifyElement_congr fun e' he' => ?_, rfl, rfl, rfl⟩
    obtain rfl : e = e' := by simpa [h] using he'
    rfl

/-- A branch without a conditional before it is dropped, with the leaves before it. -/
theorem attached_attachBranch (b : Builder) (id : NodeId) (e : Element) {parent : NodeId}
    {rest : List NodeId} (hopened : b.opened = parent :: rest) (hforbidden : e.forbidden = false)
    (hbranch : (e.elseCondition.isSome || e.isElse) = true) :
    ∃ t, Attached b.tree b.opened id e t ∧
      { b with tree := t }.Agrees (b.attachBranch parent id e) := by
  obtain ⟨hprev, hdropped⟩ := b.previousElement_spec parent
  have horphan : ∃ t, Attached b.tree b.opened id e t ∧ { b with tree := t }.Agrees
      ((b.previousElement parent).2.report (orphanBranch e)) :=
    ⟨_, .orphan hopened hforbidden hbranch, hdropped.trans (agrees_report _ _)⟩
  simp only [attachBranch]
  split
  · rename_i prev hfound
    split
    · rename_i hstarts
      rw [hfound, hdropped.tree] at hstarts
      obtain ⟨first, hfirst, hcondition⟩ := (Option.any_eq_true _ _).mp hstarts
      rw [hfound] at hprev
      obtain ⟨pe, hparent, hlast⟩ := Option.bind_eq_some_iff.mp hprev.symm
      refine ⟨_, .branch hopened hforbidden hbranch hparent hlast hfirst hcondition, ?_⟩
      exact ⟨congrArg (·.modifyElement prev (withBranch ⟨e.elseCondition, id⟩)) hdropped.tree,
        hdropped.opened, hdropped.inVerbatim, hdropped.inPre⟩
    · exact horphan
  · exact horphan

/-- **Attaching an element** does one of the things that attaching can do. -/
theorem attached_attach (b : Builder) (id : NodeId) (e : Element) :
    ∃ t, Attached b.tree b.opened id e t ∧ { b with tree := t }.Agrees (b.attach id e) := by
  unfold attach
  split
  · rename_i hopened
    split
    · exact ⟨b.tree, .nothing (.inl hopened), Agrees.refl b⟩
    · rename_i hne
      have hnothing : ∀ message start, ∃ t, Attached b.tree b.opened id e t ∧
          { b with tree := t }.Agrees (b.reportRoot message start) := fun message start =>
        ⟨b.tree, .nothing (.inl hopened), agrees_reportRoot b message start⟩
      unfold attachRoot
      split
      · rename_i root hroot
        split
        · rename_i h
          obtain ⟨hstarts, hbranch⟩ := Bool.and_eq_true_iff.mp h
          obtain ⟨first, hfirst, hcondition⟩ := (Option.any_eq_true _ _).mp hstarts
          rw [Tree.rootElement?, hroot] at hfirst
          have hdiff : root ≠ id := fun heq => hne (by rw [hroot, heq])
          refine ⟨_, .root hopened hroot hdiff hfirst hcondition hbranch, ?_⟩
          have hcheck := agrees_checkRoot b id
          exact ⟨congrArg (·.modifyElement root (withBranch ⟨e.elseCondition, id⟩)) hcheck.tree,
            hcheck.opened, hcheck.inVerbatim, hcheck.inPre⟩
        · exact hnothing _ _
      · exact hnothing _ _
  · rename_i parent rest hopened
    split
    · rename_i hforbidden
      exact ⟨b.tree, .nothing (.inr hforbidden), Agrees.refl b⟩
    · rename_i hforbidden
      have hforbidden : e.forbidden = false := by simpa using hforbidden
      split
      · rename_i hbranch
        exact attached_attachBranch b id e hopened hforbidden hbranch
      · rename_i hbranch
        exact ⟨_, .child hopened hforbidden (by simpa using hbranch), Agrees.refl _⟩

/-- How an element was finished: it is completed, attached, and trimmed once more. -/
structure Finished (src : Source) (b : Builder) (id : NodeId) (e : Element) (t : Tree)
    (b' : Builder) : Prop where
  attached : Attached (b.tree.modifyElement id fun _ => b.completed src id e) b.opened id
    (b.completed src id e) t
  tree : b'.tree = t.modifyElement id { b with tree := t }.trimmed
  opened : b'.opened = b.opened
  inVerbatim : b'.inVerbatim = (b.inVerbatim && !e.pre)
  inPre : b'.inPre = (b.inPre && !src.settings.tags.isPre e.tag)

theorem core_trimmed (b : Builder) (e : Element) : (b.trimmed e).core = e.core := by
  unfold trimmed
  split <;> rfl

theorem unclosed_completed (src : Source) (b : Builder) (id : NodeId) (e : Element) :
    (b.completed src id e).unclosed = (b.trimmed e).unclosed := by
  unfold completed
  split
  · rfl
  · exact unclosed_readDirectives _ _ _

theorem Finished.sameCore {src : Source} {b b' : Builder} {id : NodeId} {e : Element} {t : Tree}
    (h : Finished src b id e t b') :
    (b.tree.modifyElement id fun _ => b.completed src id e).SameCore b'.tree := by
  rw [h.tree]
  exact h.attached.sameCore.trans (Tree.sameCore_modifyElement t id (core_trimmed _))

/-- Whether an element is forbidden is known when it is opened. -/
theorem forbidden_completed (src : Source) (b : Builder) (id : NodeId) (e : Element) :
    (b.completed src id e).forbidden = e.forbidden := by
  have hunclosed := unclosed_completed src b id e
  have htrimmed := b.core_trimmed e
  generalize b.completed src id e = e' at hunclosed
  have h₁ : e'.forbidden = (b.trimmed e).forbidden := (congrArg Element.forbidden hunclosed :)
  have h₂ : (b.trimmed e).forbidden = e.forbidden := (congrArg Element.forbidden htrimmed :)
  rw [h₁, h₂]

/-- Finishing an element adds it to the children of its parent at most, and only when it is not
forbidden. -/
theorem Finished.children {src : Source} {b b' : Builder} {id : NodeId} {e : Element} {t : Tree}
    (h : Finished src b id e t b') (he : b.tree.element? id = some e) {k : NodeId} {e' : Element}
    (he' : b'.tree.element? k = some e') :
    ∃ e₀, b.tree.element? k = some e₀ ∧ ∀ c ∈ e'.children,
      c ∈ e₀.children ∨ (c = id ∧ b.opened.head? = some k ∧ e.forbidden = false) := by
  rw [h.tree] at he'
  obtain ⟨e₂, he₂, rfl⟩ := Tree.exists_of_element?_modifyElement he'
  obtain ⟨e₁, he₁, hchildren₁⟩ := h.attached.children he₂
  obtain ⟨e₀, he₀, rfl⟩ := Tree.exists_of_element?_modifyElement he₁
  refine ⟨e₀, he₀, fun c hc => ?_⟩
  have hc₂ : c ∈ e₂.children := by
    split at hc
    · exact (prefix_trimmed _ e₂).subset hc
    · exact hc
  rcases hchildren₁ c hc₂ with hc₁ | hc₁
  · refine .inl ?_
    split at hc₁
    · rename_i hk
      subst hk
      obtain rfl : e = e₀ := by simpa [he] using he₀
      have hcompleted : (b.completed src id e).children = (b.trimmed e).children :=
        (congrArg Element.children (unclosed_completed src b id e) :)
      rw [hcompleted] at hc₁
      exact (b.prefix_trimmed e).subset hc₁
    · exact hc₁
  · refine .inr ⟨hc₁.1, hc₁.2.1, ?_⟩
    rw [← forbidden_completed src b id e]
    exact hc₁.2.2

theorem trimmed_congr {b b' : Builder} (htree : b'.tree = b.tree) (hpre : b'.inPre = b.inPre) :
    b'.trimmed = b.trimmed := by
  funext e
  simp only [trimmed, htree, hpre]

/-- Finishing an element, when it is known how it is attached. -/
theorem finished_of_attached (src : Source) (b : Builder) {id : NodeId} {e : Element} {t : Tree}
    (h : b.tree.element? id = some e)
    (hattached : Attached ((b.trimEnd id).readAll src id).tree
      ((b.trimEnd id).readAll src id).opened id (b.completed src id e) t)
    (hagrees : { (b.trimEnd id).readAll src id with tree := t }.Agrees
      (((b.trimEnd id).readAll src id).attach id (b.completed src id e))) :
    Finished src b id e t (b.finishElement src id) := by
  have hread : { b with tree := b.tree.modifyElement id fun _ => b.completed src id e }.Agrees
      ((b.trimEnd id).readAll src id) := agrees_readAll h
  have hcompleted : ((b.trimEnd id).readAll src id).tree.element? id =
      some (b.completed src id e) := by
    rw [hread.tree, Tree.element?_modifyElement, if_pos rfl, h]
    rfl
  simp only [finishElement, hcompleted]
  generalize (b.trimEnd id).readAll src id = c at hread hcompleted hattached hagrees
  generalize c.attach id (b.completed src id e) = d at hagrees
  have hpre : d.inPre = b.inPre := hagrees.inPre.trans hread.inPre
  have hverbatim : d.inVerbatim = b.inVerbatim := hagrees.inVerbatim.trans hread.inVerbatim
  -- the modes that are left are those of the element, which attaching does not change
  obtain ⟨e', he', hcore⟩ : ∃ e', (d.trimEnd id).tree.element? id = some e' ∧
      e'.core = (b.completed src id e).core := by
    refine Tree.Alike.element? Node.element?_core ?_ hcompleted
    rw [trimEnd_eq]
    refine (hattached.sameCore.trans ?_)
    rw [hagrees.tree]
    exact Tree.sameCore_modifyElement t id d.core_trimmed
  have hunclosed := unclosed_completed src b id e
  have htrimmed := b.core_trimmed e
  have hpre' : e'.pre = e.pre := by
    have h₁ : e'.pre = (b.completed src id e).pre := (congrArg Element.pre hcore :)
    have h₂ : (b.completed src id e).pre = (b.trimmed e).pre := (congrArg Element.pre hunclosed :)
    have h₃ : (b.trimmed e).pre = e.pre := (congrArg Element.pre htrimmed :)
    rw [h₁, h₂, h₃]
  have htag' : e'.tag = e.tag := by
    have h₁ : e'.tag = (b.completed src id e).tag := (congrArg Element.tag hcore :)
    have h₂ : (b.completed src id e).tag = (b.trimmed e).tag := (congrArg Element.tag hunclosed :)
    have h₃ : (b.trimmed e).tag = e.tag := (congrArg Element.tag htrimmed :)
    rw [h₁, h₂, h₃]
  refine ⟨?_, ?_, ?_, ?_, ?_⟩
  · rw [hread.tree, hread.opened] at hattached
    exact hattached
  all_goals simp only [leaveModes, he']
  · rw [trimEnd_eq]
    simp only [hagrees.tree]
    rw [trimmed_congr (b := { b with tree := t }) hagrees.tree hpre]
  · rw [trimEnd_eq]
    exact hagrees.opened.trans hread.opened
  · rw [trimEnd_eq]
    simp only [hverbatim, hpre']
  · rw [trimEnd_eq]
    simp only [hpre, htag']

/-- **Finishing an element** that is there. -/
theorem finished_finishElement (src : Source) (b : Builder) {id : NodeId} {e : Element}
    (h : b.tree.element? id = some e) : ∃ t, Finished src b id e t (b.finishElement src id) := by
  obtain ⟨t, hattached, hagrees⟩ :=
    attached_attach ((b.trimEnd id).readAll src id) id (b.completed src id e)
  exact ⟨t, finished_of_attached src b h hattached hagrees⟩

/-- Finishing an element that is not there changes nothing. -/
theorem agrees_finishElement_of_none (src : Source) (b : Builder) {id : NodeId}
    (h : b.tree.element? id = none) : b.Agrees (b.finishElement src id) := by
  have htrim : b.trimEnd id = b := by
    rw [trimEnd_eq, Tree.modifyElement_congr (g := fun e => e) (by simp [h]),
      Tree.modifyElement_self]
  have hread : b.readAll src id = b := by
    simp only [readAll, h]
    split <;> rfl
  simp only [finishElement, htrim, hread, h]
  exact Agrees.refl b

end Build.Builder

end Templating
